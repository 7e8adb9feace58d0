import SqlGate.Config

/-!
# Hiding parts of results

Each rule replaces the matches of its pattern in every text of a result, in the order of the rules.
The shape of a value, its keys, its numbers and truth values stay.
-/

namespace SqlGate

/-- The replacements in the texts of results. -/
structure Sanitizer where
  rules : List (Pattern × String)

namespace Sanitizer

/-- The rules of a configuration. -/
def ofConfig (rules : List Config.SanitizeRule) : Except Config.Fault Sanitizer := do
  return ⟨← Config.forItems (fun i (r : Config.SanitizeRule) => do
    return (← Config.compile (Config.itemField "sanitize" i "pattern") r.pattern,
      r.replacement)) rules⟩

/-- Whether there are no rules. -/
def isEmpty (s : Sanitizer) : Bool := s.rules.isEmpty

/-- A text with all replacements made. A rule that matches nowhere leaves it alone. -/
def text (s : Sanitizer) (t : String) : String :=
  s.rules.foldl (fun t r => (r.1.replaced? t r.2).getD t) t

mutual

/-- A value with all replacements made in its texts. -/
def value (s : Sanitizer) : Json → Json
  | .null => .null
  | .bool b => .bool b
  | .num n => .num n
  | .str t => .str (s.text t)
  | .arr xs => .arr (values s xs)
  | .obj ms => .obj (members s ms)

/-- The items of an array with all replacements made. -/
def values (s : Sanitizer) : List Json → List Json
  | [] => []
  | x :: xs => value s x :: values s xs

/-- The members of an object with all replacements made in their values. -/
def members (s : Sanitizer) : List (String × Json) → List (String × Json)
  | [] => []
  | (k, v) :: ms => (k, value s v) :: members s ms

end

/-- Rows with all replacements made in their cells. Without rules nothing is looked at. -/
def rows (s : Sanitizer) (rs : List (List (String × Json))) : List (List (String × Json)) :=
  if s.isEmpty then rs else rs.map s.members

/-! ## Without rules -/

theorem text_eq (s : Sanitizer) (t : String) :
    s.text t = s.rules.foldl (fun t r => r.1.replaceAll t r.2) t :=
  congrArg (fun f => s.rules.foldl f t) (funext fun t => funext fun r => r.1.getD_replaced? t r.2)

variable {s : Sanitizer}

theorem text_of_isEmpty (h : s.isEmpty) (t : String) : s.text t = t := by
  rw [text, List.isEmpty_iff.1 h]
  rfl

mutual

theorem value_of_isEmpty (h : s.isEmpty) (v : Json) : s.value v = v := by
  match v with
  | .null | .bool _ | .num _ => rfl
  | .str t => exact congrArg Json.str (text_of_isEmpty h t)
  | .arr xs => exact congrArg Json.arr (values_of_isEmpty h xs)
  | .obj ms => exact congrArg Json.obj (members_of_isEmpty h ms)

theorem values_of_isEmpty (h : s.isEmpty) (xs : List Json) : s.values xs = xs := by
  match xs with
  | [] => rfl
  | x :: xs => rw [values, value_of_isEmpty h x, values_of_isEmpty h xs]

theorem members_of_isEmpty (h : s.isEmpty) (ms : List (String × Json)) : s.members ms = ms := by
  match ms with
  | [] => rfl
  | (k, v) :: ms => rw [members, value_of_isEmpty h v, members_of_isEmpty h ms]

end

/-- Rows are gone through the same way whether or not there are rules. -/
theorem rows_eq (s : Sanitizer) (rs : List (List (String × Json))) :
    s.rows rs = rs.map s.members := by
  unfold rows
  split
  next h => rw [show s.members = id from funext (members_of_isEmpty h), List.map_id]
  next => rfl

end Sanitizer

end SqlGate
