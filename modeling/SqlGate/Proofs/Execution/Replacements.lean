import SqlGate.Execution.Sanitizer
import SqlGate.Proofs.Json.Places

/-!
# What replacements leave

The replacements of a sanitizer change the texts in a value and nothing else. The place of everything
stays: what stands at a place afterwards is what stood there, with the replacements made
(`at?_value`). So the value that comes out is told by what it is at each place (`value_eq_iff`), and
that all rules are applied to one text after the other comes to the same as going through the whole
value once for the first rules and once more for the others.
-/

namespace SqlGate

open Json

/-- The same with another text, if it is a text. -/
def Json.Outside.mapText (f : String → String) : Outside → Outside
  | .str t => .str (f t)
  | o => o

namespace Sanitizer

variable (s : Sanitizer)

theorem values_eq (xs : List Json) : s.values xs = xs.map s.value := by
  induction xs with
  | nil => rfl
  | cons x xs ih => rw [values, ih, List.map_cons]

theorem members_eq (ms : List (String × Json)) :
    s.members ms = ms.map fun m => (m.1, s.value m.2) := by
  induction ms with
  | nil => rfl
  | cons m ms ih => rw [members, ih, List.map_cons]

theorem step?_value (v : Json) (st : Step) : (s.value v).step? st = (v.step? st).map s.value := by
  match v, st with
  | .arr xs, .item i => rw [value, values_eq, step?, step?, List.getElem?_map]
  | .obj ms, .member i =>
      rw [value, members_eq, step?, step?, List.getElem?_map, Option.map_map, Option.map_map]
      rfl
  | .null, _ | .bool _, _ | .num _, _ | .str _, _ | .arr _, .member _ | .obj _, .item _ => rfl

/-- Everything keeps its place. -/
theorem at?_value (v : Json) (p : List Step) : (s.value v).at? p = (v.at? p).map s.value := by
  induction p generalizing v with
  | nil => rfl
  | cons st p ih =>
      rw [at?_cons, at?_cons, step?_value]
      cases v.step? st with
      | none => rfl
      | some w => exact ih w

theorem outside_value (v : Json) : (s.value v).outside = v.outside.mapText s.text := by
  cases v with
  | arr xs =>
      rw [value, values_eq, outside, outside, List.length_map]
      rfl
  | obj ms =>
      rw [value, members_eq, outside, outside, List.map_map]
      rfl
  | _ => rfl

/-- What a value is once the replacements are made in it. -/
theorem value_eq_iff (v w : Json) : s.value v = w ↔
    ∀ p, (w.at? p).map outside = ((v.at? p).map outside).map (Outside.mapText s.text) := by
  have hvalue : ∀ p, ((s.value v).at? p).map outside =
      ((v.at? p).map outside).map (Outside.mapText s.text) := by
    intro p
    rw [at?_value, Option.map_map, Option.map_map]
    exact congrArg (Option.map · (v.at? p)) (funext s.outside_value)
  constructor
  · rintro rfl
    exact hvalue
  · exact fun h => eq_of_outside fun p => (hvalue p).trans (h p).symm

theorem text_append (xs ys : List (Pattern × String)) (t : String) :
    text ⟨xs ++ ys⟩ t = text ⟨ys⟩ (text ⟨xs⟩ t) := List.foldl_append

theorem mapText_append (xs ys : List (Pattern × String)) (o : Outside) :
    o.mapText (text ⟨xs ++ ys⟩) = (o.mapText (text ⟨xs⟩)).mapText (text ⟨ys⟩) := by
  cases o with
  | str t => exact congrArg Outside.str (text_append xs ys t)
  | _ => rfl

/-- Two lists of rules may be gone through one after the other. -/
theorem value_append (xs ys : List (Pattern × String)) (v : Json) :
    value ⟨xs ++ ys⟩ v = value ⟨ys⟩ (value ⟨xs⟩ v) := by
  rw [value_eq_iff]
  intro p
  rw [at?_value, at?_value]
  cases v.at? p with
  | none => rfl
  | some w =>
      simp only [Option.map_some, outside_value]
      rw [mapText_append]

theorem rows_append (xs ys : List (Pattern × String)) (rs : List (List (String × Json))) :
    rows ⟨xs ++ ys⟩ rs = rows ⟨ys⟩ (rows ⟨xs⟩ rs) := by
  rw [rows_eq, rows_eq, rows_eq, List.map_map]
  refine List.map_congr_left fun row _ => ?_
  rw [Function.comp, members_eq, members_eq, members_eq, List.map_map]
  exact List.map_congr_left fun m _ => Prod.ext rfl (value_append xs ys m.2)

/-- What replacements do, whatever the rules are. The value that comes out is the one that is
everywhere what the value was, but for its texts: each of them has gone through the replacements of
all rules in their order. In rows this is done to the value of every cell and to nothing else. To
replace by some rules and others after them comes to the same as to replace by the ones and then by
the others. -/
theorem replacements_exact (s : Sanitizer) :
    (∀ v w : Json, s.value v = w ↔ ∀ p, (w.at? p).map outside = ((v.at? p).map outside).map
      (Outside.mapText fun t => s.rules.foldl (fun t r => r.1.replaceAll t r.2) t)) ∧
    (∀ rs, s.rows rs = rs.map fun row => row.map fun cell => (cell.1, s.value cell.2)) ∧
    ∀ xs ys : List (Pattern × String),
      (∀ v, value ⟨xs ++ ys⟩ v = value ⟨ys⟩ (value ⟨xs⟩ v)) ∧
      ∀ rs, rows ⟨xs ++ ys⟩ rs = rows ⟨ys⟩ (rows ⟨xs⟩ rs) := by
  refine ⟨fun v w => ?_, fun rs => ?_, fun xs ys => ⟨value_append xs ys, rows_append xs ys⟩⟩
  · rw [value_eq_iff, show s.text = _ from funext s.text_eq]
  · rw [rows_eq]
    exact List.map_congr_left fun row _ => s.members_eq row

end Sanitizer

end SqlGate
