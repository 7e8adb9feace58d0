import SqlGate.Proofs.Sql.Reader
import SqlGate.Sql.Grammar.Names

/-!
# Reading token by token

Where its tokens stand, and what blanks are between them, matters to no reader but for the place of
a fault. So what a reader does is said of the tokens that are no blanks: from some of them it
`Reads` a part of the tree and leaves others, or it `Fails`. Readers are put together, and so are
the lemmas about them.
-/

namespace SqlGate.Sql

/-- A part of a name as a token. -/
def Ident.token (i : Ident) : Token := .word i.value i.quote

namespace Name

/-- Parts of a name with a point before each of them, as tokens. -/
def pointed (is : List Ident) : List Token := is.flatMap fun i => [.symbol ".", i.token]

/-- A name as tokens. -/
def tokens : Name → List Token
  | [] => []
  | i :: is => i.token :: pointed is

theorem length_le_pointed (is : List Ident) : is.length ≤ (pointed is).length := by
  induction is with
  | nil => exact Nat.zero_le _
  | cons i is ih =>
      rw [pointed, List.flatMap_cons, List.length_append, List.length_cons]
      exact Nat.add_comm is.length 1 ▸ Nat.add_le_add (by simp) ih

end Name

/-- What is unread shows some tokens between its blanks, with so many levels left. -/
structure Unread.Shows (u : Unread) (depth : Nat) (ts : List Token) : Prop where
  tokens : (u.rest.map Located.token).filter (!·.isBlank) = ts
  depth : u.depth = depth

namespace Reader

variable {α β : Type} {p : Reader α} {f : α → Reader β} {a : α} {b : β} {d d' : Nat} {t : Token}
  {ts ts' : List Token}

/-- From some tokens a reader gives something and leaves others. -/
def Reads (p : Reader α) (d : Nat) (ts : List Token) (a : α) (ts' : List Token) : Prop :=
  ∀ u : Unread, u.Shows d ts → ∃ u', p.run u = .ok (a, u') ∧ u'.Shows d ts'

/-- At some tokens a reader fails, and not because they nest too deep. -/
def Fails (p : Reader α) (d : Nat) (ts : List Token) : Prop :=
  ∀ u : Unread, u.Shows d ts → ∃ why, p.run u = .error why ∧ why ≠ .tooDeep

/-- What comes of a reader: it gives something and leaves tokens, or it fails. -/
def Comes (p : Reader α) (d : Nat) (ts : List Token) : Option (α × List Token) → Prop
  | some (a, ts') => Reads p d ts a ts'
  | none => Fails p d ts

end Reader

namespace Unread.Shows

open Reader

variable {u : Unread} {d : Nat} {t : Token} {ts : List Token}

theorem filter_eq_skipBlanks (rest : List Located) :
    (rest.map Located.token).filter (!·.isBlank) =
      ((skipBlanks rest).map Located.token).filter (!·.isBlank) := by
  induction rest with
  | nil => rfl
  | cons l rest ih =>
      by_cases hl : l.token.isBlank = true
      · have hskip : skipBlanks (l :: rest) = skipBlanks rest := by simp [skipBlanks, hl]
        rw [hskip, ← ih]
        simp [hl]
      · have hskip : skipBlanks (l :: rest) = l :: rest := by simp [skipBlanks, hl]
        rw [hskip]

/-- The first of the tokens that are shown is the next one. -/
theorem exists_cons (h : u.Shows d (t :: ts)) :
    ∃ l rest, skipBlanks u.rest = l :: rest ∧ l.token = t ∧
      ∀ last, Shows { u with rest, last } d ts := by
  have htokens := h.tokens
  rw [filter_eq_skipBlanks] at htokens
  cases hs : skipBlanks u.rest with
  | nil => simp [hs] at htokens
  | cons l rest =>
      have hl : l.token.isBlank = false := by
        have hd := List.head?_dropWhile_not (fun t : Located => t.token.isBlank) u.rest
        unfold skipBlanks at hs
        rw [hs] at hd
        exact hd
      rw [hs, List.map_cons, List.filter_cons_of_pos (by simp [hl])] at htokens
      obtain ⟨ht, hts⟩ := List.cons.inj htokens
      exact ⟨l, rest, rfl, ht, fun last => ⟨hts, h.depth⟩⟩

theorem skipBlanks_eq_nil (h : u.Shows d []) : skipBlanks u.rest = [] := by
  have htokens := h.tokens
  rw [filter_eq_skipBlanks, List.filter_eq_nil_iff] at htokens
  cases hs : skipBlanks u.rest with
  | nil => rfl
  | cons l rest =>
      have hd := List.head?_dropWhile_not (fun t : Located => t.token.isBlank) u.rest
      have hl := htokens l.token (by rw [hs]; simp)
      unfold skipBlanks at hs
      rw [hs] at hd
      exact absurd hd (by simpa using hl)

theorem nextOf_eq (h : u.Shows d ts) : nextOf u.rest = ts.headD .eof := by
  cases ts with
  | nil => exact nextOf_of_nil h.skipBlanks_eq_nil
  | cons t ts =>
      obtain ⟨l, rest, hs, rfl, -⟩ := h.exists_cons
      exact nextOf_of_cons hs

theorem wordsAhead_eq (h : u.Shows d ts) (ws : List String) :
    wordsAhead.go ws u.rest = ws.isPrefixOf (ts.map Token.keyword) := by
  induction ws generalizing u ts with
  | nil => rfl
  | cons w ws ih =>
      unfold wordsAhead.go
      cases ts with
      | nil =>
          rw [h.skipBlanks_eq_nil]
          rfl
      | cons t ts =>
          obtain ⟨l, rest, hs, rfl, hshows⟩ := h.exists_cons
          rw [hs, List.map_cons, List.isPrefixOf_cons_cons, ← ih (hshows l.token), Bool.eq_iff_iff]
          simp only [Bool.and_eq_true, decide_eq_true_eq, beq_iff_eq, eq_comm (b := w)]

theorem length_le (h : u.Shows d ts) : ts.length ≤ u.rest.length := by
  rw [← h.tokens]
  exact Nat.le_trans (List.length_filter_le _ _) (by simp)

end Unread.Shows

namespace Reader

variable {α β : Type} {p : Reader α} {f : α → Reader β} {a : α} {b : β} {d d' : Nat} {t : Token}
  {ts ts' : List Token}

/-! ## Putting readers together -/

theorem reads_pure (a : α) (d : Nat) (ts : List Token) : Reads (pure a) d ts a ts :=
  fun u h => ⟨u, rfl, h⟩

theorem Reads.bind {m : List Token} (hp : Reads p d ts a m) (hf : Reads (f a) d m b ts') :
    Reads (p >>= f) d ts b ts' := by
  intro u hu
  obtain ⟨u₁, h₁, hu₁⟩ := hp u hu
  obtain ⟨u₂, h₂, hu₂⟩ := hf u₁ hu₁
  exact ⟨u₂, (run_bind_ok f h₁).trans h₂, hu₂⟩

theorem Reads.bind_fails {m : List Token} (hp : Reads p d ts a m) (hf : Fails (f a) d m) :
    Fails (p >>= f) d ts := by
  intro u hu
  obtain ⟨u₁, h₁, hu₁⟩ := hp u hu
  obtain ⟨why, hwhy, hne⟩ := hf u₁ hu₁
  exact ⟨why, (run_bind_ok f h₁).trans hwhy, hne⟩

theorem Fails.bind (hp : Fails p d ts) (f : α → Reader β) : Fails (p >>= f) d ts := by
  intro u hu
  obtain ⟨why, hwhy, hne⟩ := hp u hu
  exact ⟨why, by rw [run_bind, hwhy]; rfl, hne⟩

theorem Reads.comes {o : Option (β × List Token)} (hp : Reads p d ts a ts')
    (hf : Comes (f a) d ts' o) : Comes (p >>= f) d ts o := by
  cases o with
  | none => exact hp.bind_fails hf
  | some r => exact hp.bind hf

/-- What is read may depend on what is unread. -/
theorem reads_bind_read {f : Unread → Reader β}
    (h : ∀ u : Unread, u.Shows d ts → Reads (f u) d ts b ts') :
    Reads (read >>= f) d ts b ts' := by
  intro u hu
  obtain ⟨u', hrun, hu'⟩ := h u hu u hu
  exact ⟨u', (run_bind_ok f (run_read u)).trans hrun, hu'⟩

theorem Reads.attempt (h : Reads p d ts a ts') : Reads (attempt p) d ts (some a) ts' := by
  intro u hu
  obtain ⟨u', hrun, hu'⟩ := h u hu
  obtain ⟨hs, hp⟩ := (run_eq_ok_iff p u a u').1 hrun
  refine ⟨u', ?_, hu'⟩
  simp only [run, Reader.attempt, hp, Except.map]

theorem Fails.attempt (h : Fails p d ts) : Reads (attempt p) d ts none ts := by
  intro u hu
  obtain ⟨why, hrun, hne⟩ := h u hu
  refine ⟨u, ?_, hu⟩
  unfold run at hrun ⊢
  unfold Reader.attempt
  cases hp : p u with
  | ok r =>
      rw [hp] at hrun
      cases hrun
  | error why' =>
      rw [hp] at hrun
      obtain rfl : why' = why := Except.error.inj hrun
      cases why' <;> first | rfl | exact absurd rfl hne

theorem Reads.orElse (h : Reads p d ts a ts') (other : Fault → Reader α) :
    Reads (orElse p other) d ts a ts' := by
  intro u hu
  obtain ⟨u', hrun, hu'⟩ := h u hu
  obtain ⟨hs, hp⟩ := (run_eq_ok_iff p u a u').1 hrun
  refine ⟨u', ?_, hu'⟩
  simp only [run, Reader.orElse, hp, Except.map]

theorem Reads.deeper (h : Reads p d ts a ts') : Reads (deeper p) (d + 1) ts a ts' := by
  intro u hu
  obtain ⟨u', hrun, hu'⟩ := h { u with depth := d } ⟨hu.tokens, rfl⟩
  obtain ⟨hs, hp⟩ := (run_eq_ok_iff p _ a u').1 hrun
  refine ⟨{ u' with depth := d + 1 }, ?_, ⟨hu'.tokens, rfl⟩⟩
  unfold run Reader.deeper
  rw [hu.depth]
  simp only [withSettings, hp, Except.map]

theorem Fails.deeper (h : Fails p d ts) : Fails (deeper p) (d + 1) ts := by
  intro u hu
  obtain ⟨why, hrun, hne⟩ := h { u with depth := d } ⟨hu.tokens, rfl⟩
  refine ⟨why, ?_, hne⟩
  unfold run at hrun ⊢
  unfold Reader.deeper
  rw [hu.depth]
  cases hp : p { u with depth := d } with
  | ok r =>
      rw [hp] at hrun
      cases hrun
  | error why' =>
      rw [hp] at hrun
      simpa [withSettings, hp, Except.map] using hrun

/-! ## Single tokens -/

theorem reads_peek (d : Nat) (ts : List Token) : Reads peek d ts (ts.headD .eof) ts :=
  fun u hu => ⟨u, by rw [run_peek, hu.nextOf_eq], hu⟩

theorem fails_bind_read {f : Unread → Reader β}
    (h : ∀ u : Unread, u.Shows d ts → Fails (f u) d ts) : Fails (read >>= f) d ts := by
  intro u hu
  obtain ⟨why, hrun, hne⟩ := h u hu u hu
  exact ⟨why, (run_bind_ok f (run_read u)).trans hrun, hne⟩

/-- What is read may depend on a token further on. -/
theorem reads_bind_peekAfter {f : Token → Reader β} (n : Nat)
    (h : ∀ t, Reads (f t) d ts b ts') : Reads (peekAfter (n + 1) >>= f) d ts b ts' := by
  intro u hu
  obtain ⟨u', hrun, hu'⟩ := h (peekAfter.go (n + 1) u.rest) u hu
  have hpeek : (peekAfter (n + 1)).run u = .ok (peekAfter.go (n + 1) u.rest, u) := rfl
  exact ⟨u', (run_bind_ok f hpeek).trans hrun, hu'⟩

theorem reads_next (d : Nat) (t : Token) (ts : List Token) : Reads next d (t :: ts) t ts := by
  intro u hu
  obtain ⟨l, rest, hs, rfl, hshows⟩ := hu.exists_cons
  exact ⟨_, run_next_cons hs, hshows _⟩

theorem fails_expected (what : String) (d : Nat) (ts : List Token) :
    Fails (expected what : Reader α) d ts := by
  intro u hu
  have ha : ahead.run u = .ok (skipBlanks u.rest, u) := rfl
  rw [expected, run_bind_ok _ ha]
  cases skipBlanks u.rest with
  | nil => exact ⟨_, rfl, by simp⟩
  | cons t rest => exact ⟨_, rfl, by simp⟩

theorem reads_word {w : String} (ts : List Token) (h : t.keyword = w) :
    Reads (word w) d (t :: ts) true ts := by
  refine (reads_peek d (t :: ts)).bind ?_
  rw [if_pos (by exact h)]
  exact (reads_next d t ts).bind (reads_pure true d ts)

theorem reads_word_of_ne {w : String} (h : (ts.headD .eof).keyword ≠ w) :
    Reads (word w) d ts false ts := by
  refine (reads_peek d ts).bind ?_
  rw [if_neg h]
  exact reads_pure false d ts

theorem reads_word_cons_of_ne {w : String} (ts : List Token) (h : t.keyword ≠ w) :
    Reads (word w) d (t :: ts) false (t :: ts) :=
  reads_word_of_ne h

theorem reads_symbol (s : String) (ts : List Token) :
    Reads (symbol s) d (.symbol s :: ts) true ts := by
  refine Reads.bind (a := true) (m := .symbol s :: ts) ?_ ?_
  · refine (reads_peek d _).bind ?_
    simpa using reads_pure true d (.symbol s :: ts)
  · exact (reads_next d _ ts).bind (reads_pure true d ts)

theorem reads_symbolAhead_of_ne {s : String} (h : ts.headD .eof ≠ .symbol s) :
    Reads (symbolAhead s) d ts false ts := by
  refine (reads_peek d ts).bind ?_
  rw [decide_eq_false h]
  exact reads_pure false d ts

theorem reads_symbol_of_ne {s : String} (h : ts.headD .eof ≠ .symbol s) :
    Reads (symbol s) d ts false ts :=
  (reads_symbolAhead_of_ne h).bind (reads_pure false d ts)

theorem reads_peekWord (d : Nat) (ts : List Token) :
    Reads peekWord d ts (ts.headD .eof).keyword ts :=
  (reads_peek d ts).bind (reads_pure _ d ts)

theorem reads_oneOf {ws : List String} (ts : List Token) (h : ws.contains t.keyword = true) :
    Reads (oneOf ws) d (t :: ts) (some t.keyword) ts := by
  refine (reads_peekWord d _).bind ?_
  rw [if_pos (by exact h)]
  exact (reads_next d t ts).bind (reads_pure _ d ts)

theorem reads_oneOf_of_not {ws : List String}
    (h : ws.contains (ts.headD .eof).keyword = false) : Reads (oneOf ws) d ts none ts := by
  refine (reads_peekWord d ts).bind ?_
  rw [if_neg (by simpa using h)]
  exact reads_pure none d ts

theorem reads_wordsAhead (ws : List String) (d : Nat) (ts : List Token) :
    Reads (wordsAhead ws) d ts (ws.isPrefixOf (ts.map Token.keyword)) ts := by
  refine reads_bind_read fun u hu => ?_
  rw [hu.wordsAhead_eq]
  exact reads_pure _ d ts

theorem reads_words_of_not {ws : List String}
    (h : ws.isPrefixOf (ts.map Token.keyword) = false) : Reads (words ws) d ts false ts := by
  refine (reads_wordsAhead ws d ts).bind ?_
  rw [h]
  exact reads_pure false d ts

theorem fails_expectWord {w : String} (h : (ts.headD .eof).keyword ≠ w) :
    Fails (expectWord w) d ts :=
  (reads_word_of_ne h).bind_fails (fails_expected w d ts)

theorem fails_expectWord_cons {w : String} (ts : List Token) (h : t.keyword ≠ w) :
    Fails (expectWord w) d (t :: ts) :=
  fails_expectWord h

theorem reads_expectWord {w : String} (ts : List Token) (h : t.keyword = w) :
    Reads (expectWord w) d (t :: ts) () ts :=
  (reads_word ts h).bind (reads_pure () d ts)

theorem fails_expectSymbol {s : String} (h : ts.headD .eof ≠ .symbol s) :
    Fails (expectSymbol s) d ts :=
  (reads_symbol_of_ne h).bind_fails (fails_expected s d ts)

theorem reads_ident {i : Ident} (ts : List Token) (h : identOf? t = some i) :
    Reads ident d (t :: ts) i ts := by
  refine (reads_peek d _).bind ?_
  simp only [List.headD_cons, h]
  exact (reads_next d t ts).bind (reads_pure i d ts)

theorem fails_ident (h : identOf? (ts.headD .eof) = none) : Fails ident d ts := by
  refine (reads_peek d ts).bind_fails ?_
  simp only [h]
  exact fails_expected _ d ts

/-! ## Repetition, and names -/

theorem reads_many_of_none {p : Reader (Option α)} (h : Reads p d ts none ts) :
    Reads (many p) d ts [] ts := by
  refine reads_bind_read fun u _ => ?_
  exact h.bind (reads_pure [] d ts)

theorem reads_repeated_pointed (is : List Ident) (h : ts.headD .eof ≠ .symbol ".") {fuel : Nat}
    (hfuel : is.length < fuel) :
    Reads (repeated (do if ← symbol "." then return some (← ident) else return none) fuel) d
      (Name.pointed is ++ ts) is ts := by
  induction is generalizing fuel with
  | nil =>
      obtain ⟨fuel, rfl⟩ := Nat.exists_eq_add_of_lt hfuel
      rw [List.length_nil, Nat.zero_add]
      refine Reads.bind (a := none) ((reads_symbol_of_ne h).bind ?_) (reads_pure [] d ts)
      exact reads_pure none d ts
  | cons i is ih =>
      obtain ⟨fuel, rfl⟩ := Nat.exists_eq_add_of_lt hfuel
      refine Reads.bind (a := some i) (m := Name.pointed is ++ ts) ?_ ?_
      · refine (reads_symbol "." (i.token :: (Name.pointed is ++ ts))).bind ?_
        exact (reads_ident _ rfl).bind (reads_pure (some i) d _)
      · exact (ih (by rw [List.length_cons]; omega)).bind (reads_pure (i :: is) d ts)

/-- A dotted name is read to its end. -/
theorem reads_name {n : Name} {r : List Token} (hn : n ≠ []) (h : r.headD .eof ≠ .symbol ".") :
    Reads name d (n.tokens ++ r) n r := by
  cases n with
  | nil => exact absurd rfl hn
  | cons i is =>
      refine (reads_ident (Name.pointed is ++ r) rfl).bind (Reads.bind ?_ (reads_pure _ d r))
      refine reads_bind_read fun u hu => reads_repeated_pointed is h ?_
      have hlen := hu.length_le
      have hpointed : is.length ≤ (Name.pointed is).length := Name.length_le_pointed is
      rw [List.length_append] at hlen
      omega

end Reader

end SqlGate.Sql
