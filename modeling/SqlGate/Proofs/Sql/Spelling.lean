import Mathlib.Tactic.IntervalCases
import SqlGate.Proofs.Sql.Lexer
import SqlGate.Proofs.Sql.Reading
import SqlGate.Proofs.Text.Digits

/-!
# Names as they are written

A part of a name is written as a word or in double quotes, and a name with points between its parts.
Written so it is cut into its parts and the points again (`yields_name`), whatever the parts are:
what stands between quotes is not looked into, and a point never begins a number there.
-/

namespace SqlGate.Sql

/-! ## Names that can be written -/

/-- The characters of a word. -/
def IsWord : List Char → Prop
  | [] => False
  | c :: cs => Lexer.startsWord c = true ∧ ∀ x ∈ cs, Lexer.continuesWord x = true

instance : DecidablePred IsWord
  | [] => .isFalse id
  | c :: cs =>
    decidable_of_decidable_of_iff (p := (Lexer.startsWord c && cs.all Lexer.continuesWord) = true)
      (by simp [IsWord])

namespace Ident

/-- A part of a name is a word, or anything in double quotes. -/
def Written (i : Ident) : Prop :=
  match i.quote with
  | none => IsWord i.value.toList
  | some q => q = '"'

instance : DecidablePred Written
  | ⟨value, none⟩ => inferInstanceAs (Decidable (IsWord value.toList))
  | ⟨_, some q⟩ => inferInstanceAs (Decidable (q = '"'))

end Ident

namespace Name

/-- A name has parts, and each can be written. -/
def Written (n : Name) : Prop := n ≠ [] ∧ ∀ i ∈ n, i.Written

instance : DecidablePred Written := fun n =>
  decidable_of_decidable_of_iff (p := (n ≠ [] && n.all fun i => i.Written) = true)
    (by simp [Written])

end Name

namespace Lexer

/-- Some characters are cut into some tokens, wherever they stand. -/
def Yields (before : Token) (cs : List Char) (ts : List Token) : Prop :=
  ∀ fuel place, cs.length ≤ fuel →
    ∃ ls, tokensFrom fuel before place cs = .ok ls ∧ ls.map Located.token = ts

/-- A word may end before some characters, and so may a word in quotes. -/
def Stops (rest : List Char) : Prop := ∀ c ∈ rest.head?, c = ' ' ∨ c = '.'

variable {before t : Token} {c : Char} {cs rest : List Char} {ts : List Token}

theorem yields_nil (before : Token) : Yields before [] [] := by
  intro fuel place _
  cases fuel <;> exact ⟨[], rfl, rfl⟩

/-- The first token is scanned, and what it leaves is cut on. -/
theorem yields_append (chunk : List Char) (hc : chunk = c :: cs)
    (hs : scan before c (cs ++ rest) = .ok (t, chunk.length)) (h : Yields t rest ts) :
    Yields before (chunk ++ rest) (t :: ts) := by
  subst hc
  intro fuel place hfuel
  cases fuel with
  | zero => exact absurd hfuel (by simp)
  | succ fuel =>
      have hlen : max (c :: cs).length 1 = (c :: cs).length := by simp
      have htake : (c :: (cs ++ rest)).drop (c :: cs).length = rest := by simp
      obtain ⟨ls, hls, hts⟩ := h fuel
        (advance place ((c :: (cs ++ rest)).take (c :: cs).length)) (by
          simp only [List.cons_append, List.length_cons, List.length_append] at hfuel
          omega)
      refine ⟨⟨t, place⟩ :: ls, ?_, by rw [List.map_cons, hts]⟩
      rw [List.cons_append, tokensFrom, hs]
      simp only [hlen, htake, hls, Bind.bind, Except.bind, Pure.pure, Except.pure]

theorem yields_space (h : Yields (.blank .space) rest ts) :
    Yields before (' ' :: rest) (.blank .space :: ts) :=
  yields_append [' '] rfl (by simp [scan]) h

/-! ## Words -/

theorem takeWhile_continuesWord (h : ∀ x ∈ cs, continuesWord x = true) (hr : Stops rest) :
    (cs ++ rest).takeWhile continuesWord = cs := by
  rw [List.takeWhile_append_of_pos h]
  cases rest with
  | nil => simp
  | cons d rest =>
      have hd : continuesWord d = false := by
        rcases hr d rfl with rfl | rfl <;> decide
      simp [hd]

theorem word_of_isWord (h : IsWord (c :: cs)) (hr : Stops rest) :
    word (c :: cs ++ rest) = .ok (.word (String.ofList (c :: cs)) none, (c :: cs).length) := by
  have hall : ∀ x ∈ c :: cs, continuesWord x = true :=
    List.forall_mem_cons.2 ⟨by simp [continuesWord, h.1], h.2⟩
  rw [word, takeWhile_continuesWord hall hr]

theorem startsWord_of_isDigit (h : c.isDigit) : startsWord c = false := by
  obtain ⟨hlow, hhigh⟩ := Text.bounds_of_isDigit h
  rw [← Char.ofNat_toNat c]
  interval_cases c.toNat <;> rfl

/-- A letter that may introduce a quoted text begins a word if no quote comes after it. -/
theorem introduced_of_isWord (h : IsWord (c :: cs)) (hr : Stops rest) :
    introduced c (cs ++ rest) = word (c :: cs ++ rest) := by
  have hne : ∀ d ∈ (cs ++ rest).head?, d ≠ '\'' ∧ d ≠ '"' ∧ d ≠ '&' := by
    intro d hd
    have hd' : continuesWord d = true ∨ d = ' ' ∨ d = '.' := by
      cases cs with
      | nil => exact .inr (hr d hd)
      | cons e cs =>
          obtain rfl : e = d := Option.some.inj hd
          exact .inl (h.2 e List.mem_cons_self)
    rcases hd' with hd' | rfl | rfl
    · refine ⟨?_, ?_, ?_⟩ <;> rintro rfl <;> revert hd' <;> decide
    · decide
    · decide
  unfold introduced
  split <;> simp_all

theorem scan_isWord (before : Token) (h : IsWord (c :: cs)) (hr : Stops rest) :
    scan before c (cs ++ rest) =
      .ok (.word (String.ofList (c :: cs)) none, (c :: cs).length) := by
  have hne : ∀ d, startsWord d = false → c ≠ d := by
    rintro d hd rfl
    exact absurd h.1 (by simp [hd])
  have hdigit : ¬ c.isDigit := fun hd => absurd h.1 (by simp [startsWord_of_isDigit hd])
  rw [scan, if_neg (hne _ (by decide)), if_neg (hne _ (by decide)), if_neg (hne _ (by decide)),
    if_neg (hne _ (by decide))]
  split
  · rw [introduced_of_isWord h hr, word_of_isWord h hr]
  · rw [if_neg (hne _ (by decide)), if_neg (hne _ (by decide)), if_neg, if_pos h.1]
    · exact word_of_isWord h hr
    · rintro (hd | hd)
      · exact hdigit hd
      · exact hne _ (by decide) hd

/-! ## Words in double quotes -/

/-- Some characters with each quote among them written twice. -/
def doubled (q : Char) (cs : List Char) : List Char :=
  cs.flatMap fun c => if c = q then [c, c] else [c]

theorem quotedBody_doubled (q : Char) (s : List Char) (hr : ∀ c ∈ rest.head?, c ≠ q) :
    quotedBody q (doubled q s ++ q :: rest) = some (s, (doubled q s).length + 1) := by
  induction s with
  | nil =>
      cases rest with
      | nil => simp [doubled, quotedBody]
      | cons d rest => simp [doubled, quotedBody, hr d rfl]
  | cons c s ih =>
      by_cases hc : c = q
      · subst hc
        have hd : doubled c (c :: s) = c :: c :: doubled c s := by simp [doubled]
        rw [hd, List.cons_append, List.cons_append, quotedBody, if_pos rfl, if_pos rfl, ih]
        simp
      · have hd : doubled q (c :: s) = c :: doubled q s := by simp [doubled, hc]
        obtain ⟨d, more, hmore⟩ : ∃ d more, doubled q s ++ q :: rest = d :: more := by
          cases doubled q s with
          | nil => exact ⟨q, rest, rfl⟩
          | cons d more => exact ⟨d, more ++ q :: rest, rfl⟩
        rw [hd, List.cons_append, hmore, quotedBody, if_neg hc, ← hmore, ih]
        simp

theorem scan_quoted (before : Token) (s : List Char) (hr : Stops rest) :
    scan before '"' (doubled '"' s ++ ['"'] ++ rest) =
      .ok (.word (String.ofList s) (some '"'), ('"' :: doubled '"' s ++ ['"']).length) := by
  have hne : ∀ c ∈ rest.head?, c ≠ '"' := by
    intro c hc
    rcases hr c hc with rfl | rfl <;> decide
  have hscan : ∀ r, scan before '"' r = quotedWord r := by
    intro r
    simp [scan]
  rw [hscan, quotedWord, List.append_assoc, List.singleton_append, quotedBody_doubled _ s hne]
  simp [Nat.add_comm]

/-! ## Names -/

/-- What is written without a quote is a word. -/
theorem exists_isWord {value : String} (h : Ident.Written ⟨value, none⟩) :
    ∃ c cs, value.toList = c :: cs ∧ IsWord (c :: cs) := by
  cases hv : value.toList with
  | nil => simp [Ident.Written, hv, IsWord] at h
  | cons c cs => exact ⟨c, cs, rfl, by simpa [Ident.Written, hv] using h⟩

theorem yields_ident {i : Ident} (h : i.Written) (hr : Stops rest)
    (hy : Yields i.token rest ts) : Yields before (i.text.toList ++ rest) (i.token :: ts) := by
  obtain ⟨value, quote⟩ := i
  cases quote with
  | none =>
      obtain ⟨c, cs, hv, hw⟩ := exists_isWord h
      have hval : value = String.ofList (c :: cs) := by rw [← hv, String.ofList_toList]
      have htext : (Ident.text ⟨value, none⟩).toList = c :: cs := by simp [Ident.text, hv]
      refine yields_append _ htext ?_ hy
      rw [scan_isWord before hw hr]
      simp [Ident.token, Ident.text, hval]
  | some q =>
      obtain rfl : q = '"' := h
      have ht : (Ident.text ⟨value, some '"'⟩).toList =
          '"' :: (doubled '"' value.toList ++ ['"']) := by
        simp [Ident.text, doubled]
      rw [ht]
      refine yields_append _ rfl ?_ hy
      rw [scan_quoted before _ hr]
      simp [Ident.token]

/-- A part of a name begins with a letter, an underscore or a quote. -/
theorem exists_ident_cons {i : Ident} (h : i.Written) :
    ∃ c cs, i.text.toList = c :: cs ∧ (startsWord c = true ∨ c = '"') := by
  obtain ⟨value, quote⟩ := i
  cases quote with
  | none =>
      obtain ⟨c, cs, hv, hw⟩ := exists_isWord h
      exact ⟨c, cs, by simp [Ident.text, hv], .inl hw.1⟩
  | some q =>
      obtain rfl : q = '"' := h
      exact ⟨'"', doubled '"' value.toList ++ ['"'], by simp [Ident.text, doubled], .inr rfl⟩

/-- A point between the parts of a name is a symbol. After a word it is one even before an
underscore, and otherwise no digit comes after it that would make it a number. -/
theorem scan_point (i : Ident) {c : Char} (hc : startsWord c = true ∨ c = '"') (cs : List Char) :
    scan i.token '.' (c :: cs) = .ok (.symbol ".", 1) := by
  have hscan : scan i.token '.' (c :: cs) = number i.token ('.' :: c :: cs) := by
    simp [scan]
  rw [hscan]
  by_cases hunder : c = '_'
  · subst hunder
    rfl
  · have hdigit : c.isDigit = false := by
      rw [← Bool.not_eq_true]
      intro hd
      rcases hc with hc | rfl
      · exact absurd hc (by simp [startsWord_of_isDigit hd])
      · exact absurd hd (by decide)
    have hwhole : digitRun Char.isDigit ('.' :: c :: cs) = [] := by simp [digitRun]
    have hfraction : digitRun Char.isDigit (c :: cs) = [] := by
      cases cs <;> simp [digitRun, hdigit, hunder]
    unfold number
    split
    · simp_all
    · have hpoint : known "." = .ok (.symbol ".", 1) := rfl
      simp [hwhole, hfraction, hpoint]

/-- A part of a name may end before parts with points before them. -/
theorem stops_pointed (is : List Ident) (hr : Stops rest) :
    Stops (is.flatMap (fun i => '.' :: i.text.toList) ++ rest) := by
  cases is with
  | nil => exact hr
  | cons k is => simp [Stops]

/-- Parts of a name with points before them are cut into the points and the parts. -/
theorem yields_pointed {is : List Ident} (h : ∀ i ∈ is, i.Written) (i : Ident) (hr : Stops rest)
    (hy : ∀ t, Yields t rest ts) :
    Yields i.token (is.flatMap (fun i => '.' :: i.text.toList) ++ rest)
      (Name.pointed is ++ ts) := by
  induction is generalizing i with
  | nil => exact hy _
  | cons j is ih =>
      obtain ⟨hj, his⟩ := List.forall_mem_cons.1 h
      obtain ⟨c, cs, hcs, hc⟩ := exists_ident_cons hj
      have hrest : Yields (.symbol ".") _ _ := yields_ident hj (stops_pointed is hr) (ih his j)
      rw [List.flatMap_cons, List.cons_append, List.cons_append, List.append_assoc]
      refine yields_append ['.'] rfl ?_ hrest
      rw [hcs]
      exact scan_point i hc _

theorem toList_text (i : Ident) (is : List Ident) :
    (Name.text (i :: is)).toList = i.text.toList ++ is.flatMap fun i => '.' :: i.text.toList := by
  induction is generalizing i with
  | nil => simp [Name.text]
  | cons j is ih =>
      have hj := ih j
      simp only [Name.text, List.map_cons] at hj ⊢
      rw [String.intercalate_cons_cons, String.toList_append, String.toList_append, hj]
      simp

/-- A name is cut into its parts and the points between them. -/
theorem yields_name {n : Name} (h : n.Written) (hr : Stops rest) (hy : ∀ t, Yields t rest ts) :
    Yields before (n.text.toList ++ rest) (n.tokens ++ ts) := by
  obtain ⟨hne, hn⟩ := h
  cases n with
  | nil => exact absurd rfl hne
  | cons i is =>
      obtain ⟨hi, his⟩ := List.forall_mem_cons.1 hn
      rw [toList_text, List.append_assoc]
      exact yields_ident hi (stops_pointed is hr) (yields_pointed his i hr hy)

/-- A word that is written as it stands. -/
theorem yields_word {w : String} (h : IsWord w.toList) (hr : Stops rest)
    (hy : ∀ t, Yields t rest ts) :
    Yields before (w.toList ++ rest) (.word w none :: ts) :=
  yields_ident (i := ⟨w, none⟩) h hr (hy _)

end Lexer

/-- A text is cut into some tokens. -/
theorem exists_tokenize {sql : String} {ts : List Token}
    (h : Lexer.Yields .eof sql.toList ts) :
    ∃ ls, tokenize sql = .ok ls ∧ ls.map Located.token = ts :=
  h _ _ (Nat.le_refl _)

end SqlGate.Sql
