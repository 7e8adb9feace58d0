import SqlGate.Sql.Grammar.Reading

/-!
# What readers take

A reader is run with `Reader.run`, which forgets the proof that nothing is unread but the end of
what was unread before; `Reader.exists_taken` gives it back. The lemmas say what the few readers
that everything is made of give, and what they take: `peek` nothing, `symbol` at most one token and
the blanks in front of it.
-/

namespace SqlGate.Sql

namespace Reader

variable {α β : Type} {u u' : Unread}

/-- What a reader gives, and what is unread after it. -/
def run (p : Reader α) (u : Unread) : Except Fault (α × Unread) := (p u).map Subtype.val

theorem run_eq_ok_iff (p : Reader α) (u : Unread) (a : α) (u' : Unread) :
    p.run u = .ok (a, u') ↔ ∃ h, p u = .ok ⟨(a, u'), h⟩ := by
  unfold run
  cases p u with
  | error f => simp [Except.map]
  | ok r =>
      obtain ⟨r, hr⟩ := r
      simp only [Except.map, Except.ok.injEq]
      constructor
      · rintro rfl
        exact ⟨hr, rfl⟩
      · rintro ⟨h, hp⟩
        exact congrArg Subtype.val hp

/-- A reader takes tokens from the front. -/
theorem exists_taken {p : Reader α} {a : α} (h : p.run u = .ok (a, u')) :
    ∃ taken, u.rest = taken ++ u'.rest := by
  obtain ⟨⟨taken, hs⟩, -⟩ := (run_eq_ok_iff p u a u').1 h
  exact ⟨taken, hs.symm⟩

@[simp] theorem run_pure (a : α) (u : Unread) : run (pure a) u = .ok (a, u) := rfl

@[simp] theorem run_read (u : Unread) : run read u = .ok (u, u) := rfl

@[simp] theorem run_throw (f : Fault) (u : Unread) : run (throw f : Reader α) u = .error f := rfl

theorem run_bind (p : Reader α) (f : α → Reader β) (u : Unread) :
    (p >>= f).run u = p.run u >>= fun r => (f r.1).run r.2 := by
  change (bind p f u).map _ = (p u).map _ >>= _
  unfold bind
  cases p u with
  | error e => rfl
  | ok r =>
      obtain ⟨⟨a, u'⟩, h⟩ := r
      simp only [Except.map, run]
      change Except.map _ _ = (f a u').map _
      cases f a u' <;> rfl

theorem run_bind_ok {p : Reader α} {a : α} (f : α → Reader β) (h : p.run u = .ok (a, u')) :
    (p >>= f).run u = (f a).run u' := by
  rw [run_bind, h]
  rfl

/-- More is read after a first part that is read. -/
theorem run_bind_eq_ok_iff {p : Reader α} {f : α → Reader β} {b : β} :
    (p >>= f).run u = .ok (b, u') ↔
      ∃ a u₁, p.run u = .ok (a, u₁) ∧ (f a).run u₁ = .ok (b, u') := by
  rw [run_bind]
  cases hp : p.run u with
  | error why =>
      constructor
      · intro h
        cases h
      · rintro ⟨a, u₁, h, -⟩
        cases h
  | ok r =>
      obtain ⟨a, u₁⟩ := r
      constructor
      · exact fun h => ⟨a, u₁, rfl, h⟩
      · rintro ⟨a', u₁', h, hf⟩
        cases h
        exact hf

/-- What is read one level deeper is read on some level. -/
theorem exists_of_run_deeper {p : Reader α} {a : α} (h : (deeper p).run u = .ok (a, u')) :
    ∃ d u₁, p.run { u with depth := d } = .ok (a, u₁) := by
  unfold run deeper at h
  split at h
  · cases h
  · rename_i d hd
    unfold withSettings at h
    split at h
    · rename_i a' u₁ hsuffix hp
      cases h
      exact ⟨d, u₁, (run_eq_ok_iff _ _ _ _).2 ⟨hsuffix, hp⟩⟩
    · cases h

/-! ## Looking at the next token -/

/-- The next token of some unread ones. -/
def nextOf (rest : List Located) : Token := ((skipBlanks rest).head?.map (·.token)).getD .eof

theorem nextOf_of_nil {rest : List Located} (h : skipBlanks rest = []) : nextOf rest = .eof := by
  rw [nextOf, h]
  rfl

theorem nextOf_of_cons {rest after : List Located} {t : Located}
    (h : skipBlanks rest = t :: after) : nextOf rest = t.token := by
  rw [nextOf, h]
  rfl

@[simp] theorem run_peek (u : Unread) : peek.run u = .ok (nextOf u.rest, u) := by
  have hahead : ahead.run u = .ok (skipBlanks u.rest, u) := rfl
  rw [peek, run_bind, hahead]
  cases h : skipBlanks u.rest with
  | nil =>
      rw [nextOf_of_nil h]
      rfl
  | cons t rest =>
      rw [nextOf_of_cons h]
      rfl

theorem run_next_cons {t : Located} {rest : List Located} (h : skipBlanks u.rest = t :: rest) :
    next.run u = .ok (t.token, { u with rest, last := t.token }) := by
  unfold run next
  split
  · simp_all
  · simp_all [advance, Except.map]

theorem exists_run_next (u : Unread) : ∃ u', next.run u = .ok (nextOf u.rest, u') := by
  unfold run next
  split
  · rename_i h
    exact ⟨_, congrArg (fun t => Except.ok (t, _)) (nextOf_of_nil h).symm⟩
  · rename_i t rest h
    exact ⟨_, congrArg (fun t => Except.ok (t, _)) (nextOf_of_cons h).symm⟩

theorem exists_run_expected (what : String) (u : Unread) :
    ∃ f, (expected what : Reader α).run u = .error f := by
  have ha : ahead.run u = .ok (skipBlanks u.rest, u) := rfl
  rw [expected, run_bind_ok _ ha]
  cases skipBlanks u.rest with
  | nil => exact ⟨_, rfl⟩
  | cons t rest => exact ⟨_, rfl⟩

/-! ## Symbols -/

theorem run_symbolAhead (s : String) (u : Unread) :
    (symbolAhead s).run u = .ok (decide (nextOf u.rest = .symbol s), u) := by
  rw [symbolAhead, run_bind_ok _ (run_peek u), run_pure]

theorem run_symbol_of_ne {s : String} (h : nextOf u.rest ≠ .symbol s) :
    (symbol s).run u = .ok (false, u) := by
  rw [symbol, run_bind_ok _ (run_symbolAhead s u), decide_eq_false h]
  rfl

theorem run_symbol_of_cons {s : String} {t : Located} {rest : List Located}
    (h : skipBlanks u.rest = t :: rest) (ht : t.token = .symbol s) :
    (symbol s).run u = .ok (true, { u with rest, last := t.token }) := by
  have hn : nextOf u.rest = .symbol s := (nextOf_of_cons h).trans ht
  rw [symbol, run_bind_ok _ (run_symbolAhead s u), decide_eq_true hn, if_pos rfl,
    run_bind_ok _ (run_next_cons h), run_pure]

/-! ## Words -/

theorem run_peekWord (u : Unread) : peekWord.run u = .ok ((nextOf u.rest).keyword, u) := by
  rw [peekWord, run_bind_ok _ (run_peek u), run_pure]

theorem run_word_of_ne {w : String} (h : (nextOf u.rest).keyword ≠ w) :
    (word w).run u = .ok (false, u) := by
  rw [word, run_bind_ok _ (run_peek u), if_neg h, run_pure]

theorem exists_run_word {w : String} (h : (nextOf u.rest).keyword = w) :
    ∃ u', (word w).run u = .ok (true, u') := by
  obtain ⟨u', hn⟩ := exists_run_next u
  refine ⟨u', ?_⟩
  rw [word, run_bind_ok _ (run_peek u), if_pos h, run_bind_ok _ hn, run_pure]

theorem keyword_of_run_oneOf {ws : List String} {w : String}
    (h : (oneOf ws).run u = .ok (some w, u')) : (nextOf u.rest).keyword = w := by
  rw [oneOf, run_bind_ok _ (run_peekWord u)] at h
  split at h
  · obtain ⟨t, u₁, -, hp⟩ := run_bind_eq_ok_iff.1 h
    cases hp
    rfl
  · cases h

/-! ## Repetition -/

theorem run_repeated_none {p : Reader (Option α)} (fuel : Nat) (h : p.run u = .ok (none, u')) :
    (repeated p (fuel + 1)).run u = .ok ([], u') := by
  rw [repeated, run_bind_ok _ h, run_pure]

theorem run_repeated_some {p : Reader (Option α)} {a : α} (fuel : Nat)
    (h : p.run u = .ok (some a, u')) :
    (repeated p (fuel + 1)).run u = (repeated p fuel).run u' >>= fun r => .ok (a :: r.1, r.2) := by
  rw [repeated, run_bind_ok _ h, run_bind]
  rfl

end Reader

end SqlGate.Sql
