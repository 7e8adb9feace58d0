import SqlGate.Proofs.Json.RoundTrip

/-!
# Places in values

A place in a value is reached by steps from the outside in: to an item of an array, or to the value
of a member of an object. `at?` is what stands there, if the value goes so far.

What a value is on its outside says all of it but what is further in: of an array its length, of an
object its keys. Two values that are the same on the outside at every place are one value
(`eq_of_outside`).
-/

namespace SqlGate.Json

/-- A step into a value: to the item of an array, or to the value of the member of an object, at an
index. -/
inductive Step where
  | item (i : Nat)
  | member (i : Nat)
  deriving Repr, DecidableEq

/-- What a step leads to. -/
def step? : Json → Step → Option Json
  | .arr xs, .item i => xs[i]?
  | .obj ms, .member i => ms[i]?.map (·.2)
  | _, _ => none

/-- What stands at a place. -/
def at? : Json → List Step → Option Json
  | v, [] => some v
  | v, s :: p => (v.step? s).bind fun w => w.at? p

/-- A value without what is further in. -/
inductive Outside where
  | null
  | bool (b : Bool)
  | num (n : Num)
  | str (s : String)
  | arr (length : Nat)
  | obj (keys : List String)
  deriving Repr, DecidableEq

/-- What a value is on its outside. -/
def outside : Json → Outside
  | .null => .null
  | .bool b => .bool b
  | .num n => .num n
  | .str s => .str s
  | .arr xs => .arr xs.length
  | .obj ms => .obj (ms.map (·.1))

variable {v w : Json} {s : Step}

theorem at?_cons (v : Json) (s : Step) (p : List Step) :
    v.at? (s :: p) = (v.step? s).bind fun w => w.at? p := rfl

theorem at?_append (v : Json) (p q : List Step) :
    v.at? (p ++ q) = (v.at? p).bind fun w => w.at? q := by
  induction p generalizing v with
  | nil => rfl
  | cons s p ih =>
      rw [List.cons_append, at?_cons, at?_cons, Option.bind_assoc]
      exact congrArg (v.step? s).bind (funext ih)

theorem sizeOf_lt_of_step? (h : v.step? s = some w) : sizeOf w < sizeOf v := by
  match v, s with
  | .arr xs, .item i =>
      have hmem : w ∈ xs := List.mem_of_getElem? h
      have hlt := List.sizeOf_lt_of_mem hmem
      simp only [arr.sizeOf_spec]
      omega
  | .obj ms, .member i =>
      obtain ⟨⟨k, x⟩, hm, rfl⟩ := Option.map_eq_some_iff.1 h
      have hlt := List.sizeOf_lt_of_mem (List.mem_of_getElem? hm)
      simp only [obj.sizeOf_spec, Prod.mk.sizeOf_spec] at hlt ⊢
      omega

/-- What holds of a value once it holds of its parts holds of every value. -/
theorem induction_parts {motive : Json → Prop}
    (h : ∀ v, (∀ s w, v.step? s = some w → motive w) → motive v) (v : Json) : motive v :=
  h v fun _ w _ => induction_parts h w
termination_by sizeOf v
decreasing_by exact sizeOf_lt_of_step? ‹_›

/-- Values that are the same on the outside, and have the same parts, are the same. -/
theorem eq_of_parts (hout : v.outside = w.outside)
    (hparts : ∀ s x y, v.step? s = some x → w.step? s = some y → x = y) : v = w := by
  match v, w with
  | .null, .null => rfl
  | .bool b, .bool b' => exact congrArg bool (Outside.bool.inj hout)
  | .num n, .num n' => exact congrArg num (Outside.num.inj hout)
  | .str t, .str t' => exact congrArg str (Outside.str.inj hout)
  | .arr xs, .arr ys =>
      refine congrArg arr (List.ext_getElem (Outside.arr.inj hout) fun i hi hi' => ?_)
      exact hparts (.item i) _ _ (List.getElem?_eq_getElem hi) (List.getElem?_eq_getElem hi')
  | .obj ms, .obj ns =>
      have hkeys : ms.map (·.1) = ns.map (·.1) := Outside.obj.inj hout
      have hlength : ms.length = ns.length := by
        rw [← List.length_map (·.1), hkeys, List.length_map]
      refine congrArg obj (List.ext_getElem hlength fun i hi hi' => Prod.ext ?_ ?_)
      · have hkey := congrArg (·[i]?) hkeys
        simpa [hi, hi'] using hkey
      · refine hparts (.member i) _ _ ?_ ?_
        · exact congrArg (Option.map Prod.snd) (List.getElem?_eq_getElem hi)
        · exact congrArg (Option.map Prod.snd) (List.getElem?_eq_getElem hi')

/-- Values that are the same on the outside at every place are the same. -/
theorem eq_of_outside (h : ∀ p, (v.at? p).map outside = (w.at? p).map outside) : v = w := by
  induction v using induction_parts generalizing w with
  | h v ih =>
      refine eq_of_parts (Option.some.inj (h [])) fun s x y hx hy => ih s x hx fun p => ?_
      have hp := h (s :: p)
      rw [at?_cons, at?_cons, hx, hy] at hp
      exact hp

end SqlGate.Json

/-!
## What reading keeps in place

The written form of a value is read as a value of the same build, if it is read at all: what stood
at a place is read on its own and stands there again (`exists_at?_reread`). Only its doubles can come
out different. It is read just if it does not nest too deep and each of its doubles is
(`isSome_reread_iff`).
-/

namespace SqlGate.Json

variable {v w u : Json}

/-- What is read of the written form of a value. -/
theorem ofString?_text (h : Proper v) : ofString? v.text = reread maxDepth v := by
  refine ofString?_of_reads (reads_value h maxDepth ?_)
  change v.text.toList.length ≤ 2 * v.text.toList.length + 2
  omega

/-! ### Places -/

theorem exists_of_rereadAll {depth : Nat} {xs ys : List Json} (h : rereadAll depth xs = some ys)
    {i : Nat} (hi : xs[i]? = some u) : ∃ u', reread depth u = some u' ∧ ys[i]? = some u' := by
  induction xs generalizing ys i with
  | nil => cases hi
  | cons x xs ih =>
      obtain ⟨y, hy, h⟩ := Option.bind_eq_some_iff.1 h
      obtain ⟨ys, hys, h⟩ := Option.bind_eq_some_iff.1 h
      cases h
      cases i with
      | zero =>
          cases hi
          exact ⟨y, hy, rfl⟩
      | succ i => exact ih hys hi

theorem exists_of_rereadMembers {depth : Nat} {ms ns : List (String × Json)}
    (h : rereadMembers depth ms = some ns) {i : Nat} (hi : ms[i]?.map (·.2) = some u) :
    ∃ u', reread depth u = some u' ∧ ns[i]?.map (·.2) = some u' := by
  induction ms generalizing ns i with
  | nil => cases hi
  | cons m ms ih =>
      obtain ⟨k, v⟩ := m
      obtain ⟨y, hy, h⟩ := Option.bind_eq_some_iff.1 h
      obtain ⟨ns, hns, h⟩ := Option.bind_eq_some_iff.1 h
      cases h
      cases i with
      | zero =>
          cases hi
          exact ⟨y, hy, rfl⟩
      | succ i => exact ih hns hi

theorem exists_step?_reread {depth : Nat} (h : reread depth v = some w) {s : Step}
    (hs : v.step? s = some u) : ∃ u', reread (depth - 1) u = some u' ∧ w.step? s = some u' := by
  match v, s with
  | .arr xs, .item i =>
      rw [reread] at h
      split_ifs at h
      obtain ⟨ys, hys, rfl⟩ := Option.map_eq_some_iff.1 h
      exact exists_of_rereadAll hys hs
  | .obj ms, .member i =>
      rw [reread] at h
      split_ifs at h
      obtain ⟨ns, hns, rfl⟩ := Option.map_eq_some_iff.1 h
      exact exists_of_rereadMembers hns hs

/-- What stood at a place is read on its own and stands there again. -/
theorem exists_at?_reread {depth : Nat} (h : reread depth v = some w) {p : List Step}
    (hp : v.at? p = some u) : ∃ depth' u', reread depth' u = some u' ∧ w.at? p = some u' := by
  induction p generalizing v w depth with
  | nil =>
      cases hp
      exact ⟨depth, w, h, rfl⟩
  | cons s p ih =>
      obtain ⟨x, hx, hp⟩ := Option.bind_eq_some_iff.1 hp
      obtain ⟨y, hy, hw⟩ := exists_step?_reread h hx
      rw [at?_cons, hw]
      exact ih hy hp

/-! ### What is read at all -/

theorem isSome_rereadAll_iff {depth : Nat} {xs : List Json} :
    (rereadAll depth xs).isSome ↔ ∀ x ∈ xs, (reread depth x).isSome := by
  induction xs with
  | nil => simp [rereadAll]
  | cons x xs ih =>
      rw [rereadAll, List.forall_mem_cons, ← ih]
      cases reread depth x with
      | none => simp
      | some y => cases rereadAll depth xs <;> simp

theorem isSome_rereadMembers_iff {depth : Nat} {ms : List (String × Json)} :
    (rereadMembers depth ms).isSome ↔ ∀ m ∈ ms, (reread depth m.2).isSome := by
  induction ms with
  | nil => simp [rereadMembers]
  | cons m ms ih =>
      obtain ⟨k, v⟩ := m
      rw [rereadMembers, List.forall_mem_cons, ← ih]
      cases reread depth v with
      | none => simp
      | some y => cases rereadMembers depth ms <;> simp

/-- The written form of a value is read just if it does not nest too deep and each of its doubles is
read. -/
theorem isSome_reread_iff (h : Proper v) {depth : Nat} (hdepth : 0 < depth) :
    (reread depth v).isSome ↔
      nesting v < depth ∧ ∀ x ∈ doubles v, (ofString? x.json).isSome := by
  refine reread_iff (P := fun _ read => read.isSome) (by simp) (by simp) (fun _ => Iff.rfl)
    (fun depth xs => ?_) (fun depth ms => ?_) h hdepth
  · rw [Option.isSome_map, isSome_rereadAll_iff]
  · rw [Option.isSome_map, isSome_rereadMembers_iff]

end SqlGate.Json
