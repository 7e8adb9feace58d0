import SqlGate.Json.Typed
import SqlGate.Proofs.Except

/-!
# What reading comes to

A reader that starts at a text stops somewhere in it, with a value, or finds a fault. `Gives` says
this of one run and `Reads` of all runs that start with the same characters, whatever comes after
them. Two things are left open, for nobody who goes on reading looks at them: the places that the
cursors have counted, and which fault it was.

What comes after must not go on with a numeral; a numeral is the only value that does not show where
it ends.
-/

namespace SqlGate.Json

variable {α β : Type}

/-- What a run comes to: a value, the cursor standing before `rest`, or a fault. -/
def Gives (run : Except Fault (α × Cursor)) (outcome : Option α) (rest : List Char) : Prop :=
  match outcome with
  | some a => ∃ place, run = .ok (a, ⟨rest, place⟩)
  | none => ∃ f, run = .error f

theorem gives_ok (a : α) (rest : List Char) (place : Place) :
    Gives (.ok (a, ⟨rest, place⟩)) (some a) rest := ⟨place, rfl⟩

theorem gives_error (f : Fault) (rest : List Char) :
    Gives (.error f : Except Fault (α × Cursor)) none rest := ⟨f, rfl⟩

/-- One run after another. -/
theorem Gives.bind {run : Except Fault (α × Cursor)} {outcome : Option α} {rest rest' : List Char}
    {next : α × Cursor → Except Fault (β × Cursor)} {outcome' : α → Option β}
    (h : Gives run outcome rest)
    (hnext : ∀ a place, outcome = some a → Gives (next (a, ⟨rest, place⟩)) (outcome' a) rest') :
    Gives (run >>= next) (outcome.bind outcome') rest' := by
  cases outcome with
  | none =>
      obtain ⟨f, rfl⟩ := h
      exact ⟨f, rfl⟩
  | some a =>
      obtain ⟨place, rfl⟩ := h
      exact hnext a place rfl

/-- A run whose value is turned into another one. -/
theorem Gives.map {run : Except Fault (α × Cursor)} {outcome : Option α} {rest : List Char}
    (h : Gives run outcome rest) (f : α → β) :
    Gives (run >>= fun (a, c) => .ok (f a, c)) (outcome.map f) rest := by
  rw [Option.map_eq_bind]
  exact h.bind fun a place _ => gives_ok (f a) rest place

/-- Whether a character may stand in a numeral after its first digit. A sign only follows the letter
of the exponent. -/
def continuesNumeral (c : Char) : Bool :=
  (digitValue? c).isSome || c = '.' || c = 'e' || c = 'E'

/-- A text that does not go on with a numeral. -/
def Ends (rest : List Char) : Prop := ∀ c ∈ rest.head?, continuesNumeral c = false

theorem ends_nil : Ends [] := by
  intro c h
  cases h

theorem ends_cons {c : Char} (rest : List Char) (h : continuesNumeral c = false) :
    Ends (c :: rest) := by
  intro x hx
  cases hx
  exact h

/-- What a reader comes to on every text that starts with some characters. -/
def Reads (read : Cursor → Except Fault (α × Cursor)) (cs : List Char) (outcome : Option α) :
    Prop :=
  ∀ rest place, Ends rest → Gives (read ⟨cs ++ rest, place⟩) outcome rest

theorem Reads.map {read : Cursor → Except Fault (α × Cursor)} {cs : List Char}
    {outcome : Option α} (h : Reads read cs outcome) (f : α → β) :
    Reads (fun c => read c >>= fun (a, c) => .ok (f a, c)) cs (outcome.map f) :=
  fun rest place hr => (h rest place hr).map f

/-- A text that is read whole gives what the reader comes to. -/
theorem Reads.toOption_ofString {read : Typed.Read α} {s : String} {outcome : Option α}
    (h : Reads read s.toList outcome) : (Typed.ofString read s).toOption = outcome := by
  have hread : Gives (read (Cursor.ofString s)) outcome [] := by
    have hread := h [] ⟨1, 0⟩ ends_nil
    rw [List.append_nil] at hread
    exact hread
  unfold Typed.ofString Typed.wholeFrom
  cases outcome with
  | none =>
      obtain ⟨f, hf⟩ := hread
      rw [hf]
      rfl
  | some a =>
      obtain ⟨place, hv⟩ := hread
      rw [hv]
      rfl

/-! ## Steps of a cursor -/

namespace Cursor

variable {c : Char} {rest : List Char} {place : Place}

@[simp] theorem peek?_cons : peek? ⟨c :: rest, place⟩ = some c := rfl

@[simp] theorem advance_cons : advance ⟨c :: rest, place⟩ = ⟨rest, after place c⟩ := rfl

theorem skipBlanks_cons (h : isBlank c = false) :
    skipBlanks ⟨c :: rest, place⟩ = ⟨c :: rest, place⟩ := by
  simp [skipBlanks, h, placeAfter]

theorem exists_word (ws rest : List Char) (place : Place) :
    ∃ place', word ws ⟨ws ++ rest, place⟩ = .ok ⟨rest, place'⟩ := by
  induction ws generalizing place with
  | nil => exact ⟨place, rfl⟩
  | cons w ws ih =>
      obtain ⟨place', h⟩ := ih (after place w)
      exact ⟨place', by simpa [word] using h⟩

end Cursor

/-! ## Brackets and braces -/

section Between

variable {c : Char} (rest : List Char) (place : Place)

theorem moreItems_first (hb : Cursor.isBlank c = false) (hc : c ≠ ']') :
    moreItems true ⟨c :: rest, place⟩ = .ok (true, ⟨c :: rest, place⟩) := by
  simp [moreItems, Cursor.skipBlanks_cons hb, hc]

theorem moreItems_comma (hb : Cursor.isBlank c = false) (hc : c ≠ ']') :
    moreItems false ⟨',' :: c :: rest, place⟩ = .ok (true, ⟨c :: rest, Cursor.after place ','⟩) := by
  have hcomma : Cursor.skipBlanks ⟨',' :: c :: rest, place⟩ = ⟨',' :: c :: rest, place⟩ :=
    Cursor.skipBlanks_cons rfl
  simp [moreItems, hcomma, Cursor.skipBlanks_cons hb, hc]

theorem endList_bracket : endList ⟨']' :: rest, place⟩ = .ok ⟨rest, Cursor.after place ']'⟩ := rfl

theorem moreMembers_end (first : Bool) :
    moreMembers first ⟨'\x7d' :: rest, place⟩ = .ok (false, ⟨'\x7d' :: rest, place⟩) := rfl

theorem moreMembers_first :
    moreMembers true ⟨'"' :: rest, place⟩ = .ok (true, ⟨'"' :: rest, place⟩) := rfl

theorem moreMembers_comma :
    moreMembers false ⟨',' :: '"' :: rest, place⟩ =
      .ok (true, ⟨'"' :: rest, Cursor.after place ','⟩) := rfl

theorem endObject_brace :
    endObject ⟨'\x7d' :: rest, place⟩ = .ok ⟨rest, Cursor.after place '\x7d'⟩ := rfl

theorem colon_colon : colon ⟨':' :: rest, place⟩ = .ok ⟨rest, Cursor.after place ':'⟩ := rfl

end Between

end SqlGate.Json
