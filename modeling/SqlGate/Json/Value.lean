import SqlGate.Number.Text

/-!
# JSON values

Numbers are integers of 64 bits, signed or unsigned, or doubles. An object is a list of members;
one that was read from a text has its keys in increasing order and each key once, and `insert`
keeps it so.
-/

namespace SqlGate

/-- A JSON number. -/
inductive Json.Num where
  /-- An integer in `[-2^63, 2^64)`. -/
  | int (i : Int)
  /-- A finite double. -/
  | real (x : Number.Double)
  deriving Repr, DecidableEq

/-- A double as a number. There is none for one that is not finite. -/
def Json.Num.ofDouble? (x : Number.Double) : Option Json.Num :=
  match x.value with
  | .finite _ _ _ => some (.real x)
  | _ => none

/-- A JSON value. -/
inductive Json where
  | null
  | bool (b : Bool)
  | num (n : Json.Num)
  | str (s : String)
  | arr (items : List Json)
  | obj (members : List (String × Json))
  deriving Repr

namespace Json

instance : Inhabited Json := ⟨.null⟩

/-- An integer value. -/
def int (i : Int) : Json := .num (.int i)

/-- A natural number as a value. -/
def nat (n : Nat) : Json := .int n

/-- Text, or null. -/
def ofText? : Option String → Json
  | some s => .str s
  | none => .null

/-- The members with a key set to a value, in key order; an earlier value of the key is lost. -/
def insert (k : String) (v : Json) : List (String × Json) → List (String × Json)
  | [] => [(k, v)]
  | (k', v') :: r =>
    if k < k' then (k, v) :: (k', v') :: r
    else if k = k' then (k, v) :: r
    else (k', v') :: insert k v r

/-- The object with the given members, a later one winning over an earlier one of its key. -/
def object (members : List (String × Json)) : Json :=
  .obj (members.foldl (fun acc kv => insert kv.1 kv.2 acc) [])

/-- The value of a key of an object. -/
def get? (k : String) : Json → Option Json
  | .obj ms => ms.lookup k
  | _ => none

end Json

end SqlGate
