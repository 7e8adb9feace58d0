import SqlGate.Proofs.Json.RoundTrip
import SqlGate.Proofs.Text.Bytes

/-!
# The text of a value is one line

In a string the end of a line is escaped, and nothing else that is written has one, so no text of a
value has an end of a line in it, nor have its bytes (`not_mem_encode`).
-/

namespace SqlGate

namespace Json

open Number Numeral

theorem not_mem_escape (c : Char) : '\n' ∉ escape c := by
  have hdigit : ∀ n < 16, '\n' ≠ Text.Hex.digit n := by
    intro n hn h
    have hread := digit?_digit hn
    rw [← h] at hread
    exact absurd hread (by simp [Text.Hex.digit?])
  unfold escape
  split_ifs with h₁ h₂ h₃ h₄ h₅ h₆ h₇ h₈
  · decide
  · decide
  · decide
  · decide
  · decide
  · decide
  · decide
  · simp [hdigit (c.toNat / 16) (by omega), hdigit (c.toNat % 16) (by omega)]
  · rw [List.mem_singleton]
    rintro rfl
    exact h₅ rfl

theorem not_mem_quote (s : String) : '\n' ∉ (quote s).toList := by
  rw [toList_quote, List.mem_cons, List.mem_append, List.mem_flatMap, List.mem_singleton]
  rintro (h | ⟨c, -, hc⟩ | h)
  · exact absurd h (by decide)
  · exact not_mem_escape c hc
  · exact absurd h (by decide)

theorem not_mem_run {ds : List Char} (h : ∀ c ∈ ds, c.isDigit) : '\n' ∉ ds :=
  fun hmem => ne_of_isDigit (h '\n' hmem) rfl rfl

theorem not_mem_numeral {w : Written} (h : w.Sound) (negative : Bool) :
    '\n' ∉ sign negative ++ w.chars := by
  have hpart : '\n' ∉ pointed w.part := by
    cases hp : w.part with
    | nil => exact List.not_mem_nil
    | cons d ds =>
        rw [pointed, List.mem_cons, ← hp]
        · exact not_or.2 ⟨by decide, not_mem_run h.part⟩
        · exact List.cons_ne_nil _ _
  have hexponent : '\n' ∉ lettered w.exponent := by
    cases he : w.exponent with
    | none => exact List.not_mem_nil
    | some e =>
        obtain ⟨negative, ds⟩ := e
        have hds := not_mem_run (h.exponent _ he).2
        rw [lettered, List.mem_cons, List.mem_cons]
        refine not_or.2 ⟨by decide, not_or.2 ⟨?_, hds⟩⟩
        cases negative <;> decide
  rw [Written.chars, List.mem_append, List.mem_append, List.mem_append]
  refine not_or.2 ⟨?_, not_or.2 ⟨not_mem_run h.whole.2, not_or.2 ⟨hpart, hexponent⟩⟩⟩
  cases negative <;> decide

theorem not_mem_num (n : Num) : '\n' ∉ n.text.toList := by
  rcases text_num n with ⟨negative, w, hw, htext⟩ | htext
  · rw [htext]
    exact not_mem_numeral hw negative
  · rw [htext]
    decide

theorem not_mem_trailing {β : Type} {text : β → List Char} {ys : List β}
    (h : ∀ y ∈ ys, '\n' ∉ text y) : '\n' ∉ trailing text ys := by
  rw [trailing, List.mem_flatMap]
  rintro ⟨y, hy, hmem⟩
  rcases List.mem_cons.1 hmem with hmem | hmem
  · exact absurd hmem (by decide)
  · exact h y hy hmem

theorem not_mem_separated {β : Type} {text : β → List Char} {ys : List β}
    (h : ∀ y ∈ ys, '\n' ∉ text y) : '\n' ∉ separated text ys := by
  cases ys with
  | nil => exact List.not_mem_nil
  | cons y ys =>
      rw [List.forall_mem_cons] at h
      rw [separated, List.mem_append]
      exact not_or.2 ⟨h.1, not_mem_trailing h.2⟩

mutual

/-- No text of a value has an end of a line in it. -/
theorem not_mem_chars (v : Json) : '\n' ∉ chars v := by
  match v with
  | .null => simp [chars, text]
  | .bool true => simp [chars, text]
  | .bool false => simp [chars, text]
  | .num n => exact not_mem_num n
  | .str s => exact not_mem_quote s
  | .arr xs =>
      rw [chars_arr, List.mem_cons, List.mem_append, List.mem_singleton]
      exact not_or.2 ⟨by decide, not_or.2 ⟨not_mem_separated (not_mem_items xs), by decide⟩⟩
  | .obj ms =>
      rw [chars_obj, List.mem_cons, List.mem_append, List.mem_singleton]
      exact not_or.2 ⟨by decide, not_or.2 ⟨not_mem_separated (not_mem_members ms), by decide⟩⟩

theorem not_mem_items (xs : List Json) : ∀ x ∈ xs, '\n' ∉ chars x := by
  match xs with
  | [] => exact fun _ hx => nomatch hx
  | x :: xs => exact List.forall_mem_cons.2 ⟨not_mem_chars x, not_mem_items xs⟩

theorem not_mem_members (ms : List (String × Json)) : ∀ m ∈ ms, '\n' ∉ memberText m := by
  match ms with
  | [] => exact fun _ hm => nomatch hm
  | (k, v) :: ms =>
      refine List.forall_mem_cons.2 ⟨?_, not_mem_members ms⟩
      rw [memberText, List.mem_append, List.mem_cons]
      exact not_or.2 ⟨not_mem_quote k, not_or.2 ⟨by decide, not_mem_chars v⟩⟩

end

end Json

end SqlGate
