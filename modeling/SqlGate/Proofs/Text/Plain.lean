import Mathlib.Data.List.Basic
import Mathlib.Tactic.IntervalCases
import SqlGate.Proofs.Text.Digits
import SqlGate.Text.Bytes

/-!
# Texts that may stand between commas

## Texts between commas

A text is cut into `parts` at its commas outside of brackets. Some characters `Pass` if they are all
kept in the part that they stand in: plain ones, and what has brackets around it, commas included
(`Passes.enclosed`). Where texts with commas between them are cut is settled if each of them passes,
or is put together of so many parts that do (`Separable`).
-/

namespace SqlGate.Text

/-! ## Cutting at commas -/

/-- Whether a bracket opens with a character. -/
def isOpening (c : Char) : Bool := c = '(' || c = '[' || c = '\x7b' || c = '<'

/-- Whether a bracket closes with a character. -/
def isClosing (c : Char) : Bool := c = ')' || c = ']' || c = '\x7d' || c = '>'

/-- How many brackets are open after a character. -/
def levelAfter (level : Nat) (c : Char) : Nat :=
  if isOpening c then level + 1 else if isClosing c then level - 1 else level

/-- The parts of a text between commas that stand outside of brackets, of which `level` are open. -/
def parts : Nat → List Char → List (List Char)
  | _, [] => [[]]
  | level, c :: cs =>
    if c = ',' ∧ level = 0 then [] :: parts 0 cs
    else (parts (levelAfter level c) cs).modifyHead (c :: ·)

variable {n level : Nat} {c : Char} {cs cs' rest : List Char}

theorem parts_comma (cs : List Char) : parts 0 (',' :: cs) = [] :: parts 0 cs :=
  if_pos ⟨rfl, rfl⟩

theorem parts_cons (h : c ≠ ',' ∨ level ≠ 0) :
    parts level (c :: cs) = (parts (levelAfter level c) cs).modifyHead (c :: ·) :=
  if_neg (by tauto)

/-- The parts with commas between them are the text. -/
theorem intercalate_parts (level : Nat) (cs : List Char) :
    [','].intercalate (parts level cs) = cs ∧ parts level cs ≠ [] := by
  induction cs generalizing level with
  | nil => exact ⟨rfl, List.cons_ne_nil _ _⟩
  | cons c cs ih =>
      by_cases hcut : c = ',' ∧ level = 0
      · obtain ⟨rfl, rfl⟩ := hcut
        obtain ⟨hjoin, hne⟩ := ih 0
        rw [parts_comma]
        obtain ⟨p, ps, hps⟩ := List.exists_cons_of_ne_nil hne
        rw [hps] at hjoin ⊢
        refine ⟨?_, List.cons_ne_nil _ _⟩
        rw [List.intercalate_cons_cons, hjoin]
        rfl
      · obtain ⟨hjoin, hne⟩ := ih (levelAfter level c)
        rw [parts_cons (by tauto)]
        obtain ⟨p, ps, hps⟩ := List.exists_cons_of_ne_nil hne
        rw [hps] at hjoin ⊢
        refine ⟨?_, List.cons_ne_nil _ _⟩
        cases ps with
        | nil => simpa using hjoin
        | cons p' ps =>
            rw [List.intercalate_cons_cons] at hjoin
            rw [List.modifyHead_cons, List.intercalate_cons_cons, ← hjoin]
            rfl

theorem parts_inj (h : parts level cs = parts level cs') : cs = cs' := by
  rw [← (intercalate_parts level cs).1, h, (intercalate_parts level cs').1]

/-! ## Passing -/

/-- Characters that are kept in one part wherever so many brackets are open. -/
def Passes (level : Nat) (cs : List Char) : Prop :=
  ∀ l rest, level ≤ l → parts l (cs ++ rest) = (parts l rest).modifyHead (cs ++ ·)

theorem passes_nil : Passes level [] := by
  intro l rest _
  rw [List.nil_append]
  cases parts l rest <;> rfl

theorem Passes.append (h : Passes level cs) (h' : Passes level cs') :
    Passes level (cs ++ cs') := by
  intro l rest hl
  rw [List.append_assoc, h l _ hl, h' l rest hl, List.modifyHead_modifyHead]
  congr 1
  funext p
  exact (List.append_assoc cs cs' p).symm

theorem Passes.mono {level' : Nat} (h : Passes level cs) (hle : level ≤ level') :
    Passes level' cs := fun l rest hl => h l rest (Nat.le_trans hle hl)

/-- Inside of brackets a comma passes. -/
theorem passes_comma : Passes 1 [','] := by
  intro l rest hl
  exact parts_cons (.inr (by omega))

/-- A character that is neither a comma nor a bracket. -/
def isPlain (c : Char) : Bool := c ≠ ',' && !isOpening c && !isClosing c

theorem passes_of_isPlain (h : ∀ c ∈ cs, isPlain c) : Passes level cs := by
  induction cs with
  | nil => exact passes_nil
  | cons c cs ih =>
      obtain ⟨hc, hcs⟩ := List.forall_mem_cons.1 h
      simp only [isPlain, Bool.and_eq_true, decide_eq_true_eq, Bool.not_eq_true'] at hc
      have hone : Passes level [c] := by
        intro l rest _
        rw [List.singleton_append, parts_cons (.inl hc.1.1), levelAfter, if_neg (by simp [hc.1.2]),
          if_neg (by simp [hc.2])]
        rfl
      exact hone.append (ih hcs)

/-- What has brackets around it passes everywhere. -/
theorem Passes.enclosed {o c : Char} (ho : isOpening o) (hc : isClosing c) (h : Passes 1 cs) :
    Passes 0 (o :: cs ++ [c]) := by
  have hocomma : o ≠ ',' := fun heq => by
    rw [heq] at ho
    cases ho
  have hccomma : c ≠ ',' := fun heq => by
    rw [heq] at hc
    cases hc
  have hcopening : isOpening c = false := by
    simp only [isClosing, Bool.or_eq_true, decide_eq_true_eq] at hc
    rcases hc with ((rfl | rfl) | rfl) | rfl <;> rfl
  intro l rest _
  rw [List.cons_append, List.cons_append, parts_cons (.inl hocomma), levelAfter, if_pos ho,
    List.append_assoc, h (l + 1) _ (by omega), List.singleton_append, parts_cons (.inl hccomma),
    levelAfter, if_neg (by simp [hcopening]), if_pos hc, List.modifyHead_modifyHead,
    List.modifyHead_modifyHead]
  congr 1
  funext p
  simp

/-! ## Texts that can be told apart -/

/-- A text of so many parts, the first one not empty, after which a comma is one outside of
brackets. -/
structure Separable (n : Nat) (cs : List Char) : Prop where
  length_eq : (parts 0 cs).length = n
  head_ne : (parts 0 cs).head? ≠ some []
  closed : ∀ rest, parts 0 (cs ++ ',' :: rest) = parts 0 cs ++ parts 0 rest

theorem Passes.parts_eq (h : Passes 0 cs) : parts 0 cs = [cs] := by
  have hparts := h 0 [] (Nat.le_refl 0)
  rw [List.append_nil] at hparts
  rw [hparts, parts, List.modifyHead_cons, List.append_nil]

theorem Passes.parts_append_comma (h : Passes 0 cs) (rest : List Char) :
    parts 0 (cs ++ ',' :: rest) = cs :: parts 0 rest := by
  rw [h 0 _ (Nat.le_refl 0), parts_comma, List.modifyHead_cons, List.append_nil]

theorem separable_one (h : Passes 0 cs) (hne : cs ≠ []) : Separable 1 cs where
  length_eq := by rw [h.parts_eq]; rfl
  head_ne := by
    rw [h.parts_eq]
    simpa using hne
  closed rest := by rw [h.parts_eq, h.parts_append_comma]; rfl

theorem separable_two (h : Passes 0 cs) (hne : cs ≠ []) (h' : Passes 0 cs') :
    Separable 2 (cs ++ ',' :: cs') where
  length_eq := by rw [h.parts_append_comma, h'.parts_eq]; rfl
  head_ne := by
    rw [h.parts_append_comma]
    simpa using hne
  closed rest := by
    rw [List.append_assoc, List.cons_append, h.parts_append_comma, h.parts_append_comma,
      h'.parts_append_comma, h'.parts_eq]
    rfl

/-- A text that may be left out. -/
def SeparableIfAny (n : Nat) (text : Option (List Char)) : Prop := ∀ cs ∈ text, Separable n cs

section

variable {text text' low low' high high' : Option (List Char)}

theorem SeparableIfAny.closed (h : SeparableIfAny n text) (rest : List Char) :
    parts 0 (text.getD [] ++ ',' :: rest) = parts 0 (text.getD []) ++ parts 0 rest := by
  cases text with
  | none => exact parts_comma rest
  | some cs => exact (h cs rfl).closed rest

/-- A text is left out where the first part is empty. -/
theorem SeparableIfAny.eq_none_iff (h : SeparableIfAny n text) :
    text = none ↔ (parts 0 (text.getD [])).head? = some [] := by
  cases text with
  | none => exact iff_of_true rfl rfl
  | some cs => exact iff_of_false nofun (h cs rfl).head_ne

theorem SeparableIfAny.length_eq (h : SeparableIfAny n text) :
    (parts 0 (text.getD [])).length = if text = none then 1 else n := by
  cases text with
  | none => rfl
  | some cs => exact (h cs rfl).length_eq

theorem SeparableIfAny.eq_of_parts_eq (h : SeparableIfAny n text) (h' : SeparableIfAny n text')
    (hparts : parts 0 (text.getD []) = parts 0 (text'.getD [])) : text = text' := by
  have hnone : text = none ↔ text' = none := by rw [h.eq_none_iff, h'.eq_none_iff, hparts]
  cases text with
  | none => exact (hnone.1 rfl).symm
  | some cs =>
      cases text' with
      | none => exact hnone.2 rfl
      | some cs' => exact congrArg some (parts_inj hparts)

/-- Two texts around a comma, each of which may be left out, are settled by what is written. -/
theorem separable_inj (hlow : SeparableIfAny n low) (hlow' : SeparableIfAny n low')
    (hhigh : SeparableIfAny n high) (hhigh' : SeparableIfAny n high')
    (h : low.getD [] ++ ',' :: high.getD [] = low'.getD [] ++ ',' :: high'.getD []) :
    low = low' ∧ high = high' := by
  have hparts := congrArg (parts 0) h
  rw [hlow.closed, hlow'.closed] at hparts
  have hhead : (parts 0 (low.getD [])).head? = (parts 0 (low'.getD [])).head? := by
    have := congrArg List.head? hparts
    rwa [List.head?_append_of_ne_nil _ (intercalate_parts 0 _).2,
      List.head?_append_of_ne_nil _ (intercalate_parts 0 _).2] at this
  have hnone : low = none ↔ low' = none := by
    rw [hlow.eq_none_iff, hlow'.eq_none_iff, hhead]
  have hlength : (parts 0 (low.getD [])).length = (parts 0 (low'.getD [])).length := by
    rw [hlow.length_eq, hlow'.length_eq]
    simp only [hnone]
  obtain ⟨hpartsLow, hpartsHigh⟩ := List.append_inj hparts hlength
  exact ⟨hlow.eq_of_parts_eq hlow' hpartsLow, hhigh.eq_of_parts_eq hhigh' hpartsHigh⟩

end

end SqlGate.Text

/-!
## Plain and solid texts

A text without commas and brackets is `Plain`. Plain texts, and those with brackets around them, are
`Solid` unless they are empty: they stand for themselves between commas.
-/

namespace SqlGate.Text

/-- A text without commas and brackets. -/
def Plain (s : String) : Prop := ∀ c ∈ s.toList, isPlain c

instance (s : String) : Decidable (Plain s) :=
  decidable_of_decidable_of_iff (p := s.toList.all isPlain = true) List.all_eq_true

variable {s s' : String} {cs : List Char} {ss : List String}

@[simp] theorem plain_append : Plain (s ++ s') ↔ Plain s ∧ Plain s' := by
  rw [Plain, String.toList_append, List.forall_mem_append]
  rfl

theorem plain_ofList : Plain (String.ofList cs) ↔ ∀ c ∈ cs, isPlain c := by
  rw [Plain, String.toList_ofList]

theorem plain_ite {p : Prop} [Decidable p] (h : Plain s) (h' : Plain s') :
    Plain (if p then s else s') := by
  split
  · exact h
  · exact h'

theorem plain_join (h : ∀ s ∈ ss, Plain s) : Plain (String.join ss) := by
  intro c hc
  rw [String.toList_join] at hc
  obtain ⟨s, hs, hc⟩ := List.mem_flatMap.1 hc
  exact h s hs c hc

theorem plain_intercalate (hsep : Plain s) (h : ∀ s ∈ ss, Plain s) :
    Plain (s.intercalate ss) := by
  induction ss with
  | nil => exact nofun
  | cons t ss ih =>
      obtain ⟨ht, hss⟩ := List.forall_mem_cons.1 h
      cases ss with
      | nil => rwa [String.intercalate_singleton]
      | cons u ss =>
          rw [String.intercalate_cons_cons, plain_append, plain_append]
          exact ⟨⟨ht, hsep⟩, ih hss⟩

theorem isPlain_of_isDigit {c : Char} (h : c.isDigit) : isPlain c := by
  have hbounds := bounds_of_isDigit h
  have hne {d : Char} (hd : d.toNat < 48 ∨ 57 < d.toNat) : c ≠ d := by
    rintro rfl
    omega
  simp [isPlain, isOpening, isClosing, hne]

theorem plain_of_isDigit (h : ∀ c ∈ s.toList, c.isDigit) : Plain s :=
  fun c hc => isPlain_of_isDigit (h c hc)

@[simp] theorem plain_zeros (n : Nat) : Plain (zeros n) :=
  plain_ofList.2 fun c hc => by
    rw [List.eq_of_mem_replicate hc]
    rfl

theorem plain_digits (n : Nat) : ∀ c ∈ digits n, isPlain c :=
  fun _ hc => isPlain_of_isDigit (isDigit_of_mem_digits hc)

@[simp] theorem plain_padNat (width n : Nat) : Plain (padNat width n) :=
  plain_of_isDigit (isPadded_padNat width n).isDigit

@[simp] theorem plain_padInt (width : Nat) (i : Int) : Plain (padInt width i) :=
  plain_ite (plain_append.2 ⟨by decide, plain_padNat _ _⟩) (plain_padNat _ _)

@[simp] theorem plain_decimal (i : Int) : Plain (decimal i) := plain_padInt 0 i

theorem padNat_ne (width n : Nat) : padNat width n ≠ "" := by
  rw [padNat, Ne, String.ofList_eq_empty_iff, List.append_eq_nil_iff, not_and_or]
  exact .inr Nat.toDigits_ne_nil

theorem padInt_ne (width : Nat) (i : Int) : padInt width i ≠ "" := by
  rw [padInt]
  split
  · simp
  · exact padNat_ne _ _

theorem decimal_ne (i : Int) : decimal i ≠ "" := padInt_ne 0 i

/-! ## Hexadecimal texts -/

theorem isPlain_hexDigit {n : Nat} (h : n < 16) : isPlain (Hex.digit n) := by
  interval_cases n <;> decide

theorem isPlain_hexByte (b : UInt8) : ∀ c ∈ Hex.byte b, isPlain c := by
  have hb := UInt8.toNat_lt b
  simp only [Hex.byte, List.forall_mem_cons]
  exact ⟨isPlain_hexDigit (by omega), isPlain_hexDigit (by omega), List.forall_mem_nil _⟩

@[simp] theorem plain_hex (bs : List UInt8) : Plain (Hex.encode bs) :=
  plain_ofList.2 fun c hc => by
    obtain ⟨b, -, hc⟩ := List.mem_flatMap.1 hc
    exact isPlain_hexByte b c hc

theorem isPlain_of_mem_toDigits (n : Nat) : ∀ c ∈ Nat.toDigits 16 n, isPlain c := by
  have hdigit (d : Nat) (hd : d < 16) : isPlain (Nat.digitChar d) := by
    interval_cases d <;> decide
  induction n using Nat.base_induction 16 (by decide) with
  | single d hd =>
      rw [Nat.toDigits_of_lt_base hd]
      simpa using hdigit d hd
  | digit n d hd hn ih =>
      rw [← Nat.toDigits_append_toDigits (by decide) hn hd, Nat.toDigits_of_lt_base hd,
        List.forall_mem_append]
      exact ⟨ih, by simpa using hdigit d hd⟩

@[simp] theorem plain_hexNat (n : Nat) : Plain (Hex.ofNat n) :=
  plain_ofList.2 (isPlain_of_mem_toDigits n)

/-! ## Texts that stand for themselves -/

/-- A text that passes everywhere and is not empty. -/
structure Solid (s : String) : Prop where
  passes : Passes 0 s.toList
  ne : s ≠ ""

theorem solid_of_plain (h : Plain s) (hne : s ≠ "") : Solid s := ⟨passes_of_isPlain h, hne⟩

/-- Passing texts with a comma between them pass inside of brackets. -/
theorem Solid.passes_append (h : Solid s) (h' : Passes 0 s'.toList) :
    Passes 1 (s ++ "," ++ s').toList := by
  rw [String.toList_append, String.toList_append]
  exact ((h.passes.mono (Nat.zero_le 1)).append passes_comma).append (h'.mono (Nat.zero_le 1))

theorem passes_intercalate (h : ∀ s ∈ ss, Solid s) :
    Passes 1 (",".intercalate ss).toList := by
  induction ss with
  | nil => exact passes_nil
  | cons t ss ih =>
      obtain ⟨ht, hss⟩ := List.forall_mem_cons.1 h
      cases ss with
      | nil =>
          rw [String.intercalate_singleton]
          exact ht.passes.mono (Nat.zero_le 1)
      | cons u ss =>
          rw [String.intercalate_cons_cons, String.toList_append, String.toList_append]
          exact ((ht.passes.mono (Nat.zero_le 1)).append passes_comma).append (ih hss)

/-- What has brackets around it stands for itself. -/
theorem solid_enclosed {o c : Char} (ho : isOpening o) (hc : isClosing c)
    (h : Passes 1 s.toList) : Solid (String.ofList [o] ++ s ++ String.ofList [c]) where
  passes := by
    rw [String.toList_append, String.toList_append, String.toList_ofList, String.toList_ofList]
    exact h.enclosed ho hc
  ne := by simp

end SqlGate.Text
