import Mathlib.Data.List.Basic
import Mathlib.Data.List.TakeWhile
import SqlGate.Proofs.Policy.Single
import SqlGate.Proofs.Sql.Setting
import SqlGate.Proofs.Sql.Spelling

/-!
# Two ways to set a variable back

`RESET v` is known by its first two words (`check_reset`), and `SET v TO DEFAULT` is read as a
statement (`check_setDefault`). A read-only policy looks at the first part of the name in the one
and at the last part in the other, so the two can come out differently; `check_reset_alike_iff` says
when they do not.
-/

namespace SqlGate

namespace Policy

open Sql Sql.Grammar

/-! ## The verdicts -/

/-- Two verdicts of one kind: both allow, both block the class of resets, or both keep a policy
read-only. -/
inductive Alike : Verdict → Verdict → Prop
  | allowed : Alike (.ok ()) (.ok ())
  | blocked : Alike (.error (.blocked .reset)) (.error (.blocked .reset))
  | readOnly (e e' : Escape) : Alike (.error (.readOnly e)) (.error (.readOnly e'))

theorem not_alike_unreadable {v : Verdict} {why : String} :
    ¬ Alike v (.error (.unreadable why)) :=
  nofun

/-- What is set back by a name after `RESET`: its first part alone says so. -/
def Utility.ofName : Name → Utility
  | [] => .reset ""
  | i :: _ =>
    if asciiUpper i.value = "ALL" then .resetAll else .reset (asciiLower (asciiUpper i.value))

namespace Utility

variable {ls : List Located} {ts : List Token}

/-- Tokens without semicolons are one group. -/
theorem groups_eq_singleton (h : (ls.map Located.token).filter (!·.isBlank) = ts)
    (hsemi : ∀ t ∈ ts, t ≠ .symbol ";") (hne : ts ≠ []) : groups ls = [ts] := by
  have hcut : Text.cut (· = Token.symbol ";") ts = [ts] :=
    Text.cut_eq_singleton _ fun t ht => by simpa using hsemi t ht
  have hempty : ts.isEmpty = false := by simpa using hne
  simp only [groups, h, hcut]
  simp [hempty]

theorem scan_eq (h : (ls.map Located.token).filter (!·.isBlank) = ts)
    (hsemi : ∀ t ∈ ts, t ≠ .symbol ";") (hne : ts ≠ []) :
    scan ls = (ofGroup? ts).map fun u => (1, u) := by
  rw [scan, groups_eq_singleton h hsemi hne, List.findSome?_singleton]
  rfl

theorem ofGroup?_resetName (i : Ident) (is : List Ident) :
    ofGroup? (.word "RESET" none :: Name.tokens (i :: is)) = some (ofName (i :: is)) := by
  have hword : asciiUpper "RESET" = "RESET" := by decide +kernel
  by_cases hall : asciiUpper i.value = "ALL"
  · simp [ofGroup?, hword, ofName, hall, Name.tokens, word, Ident.token]
  · simp [ofGroup?, hword, ofName, hall, Name.tokens, word, Ident.token]

theorem ofGroup?_set (ts : List Token) : ofGroup? (setWord :: ts) = none := by
  have hword : word setWord = "SET" := by decide +kernel
  simp [ofGroup?, hword]

end Utility

/-- The tokens of a name are its parts and points. -/
theorem mem_tokens {n : Name} {t : Token} (h : t ∈ n.tokens) :
    t = .symbol "." ∨ ∃ i : Ident, t = i.token := by
  cases n with
  | nil => exact absurd h List.not_mem_nil
  | cons i is =>
      rcases List.mem_cons.1 h with rfl | h
      · exact .inr ⟨i, rfl⟩
      · obtain ⟨j, -, hj⟩ := List.mem_flatMap.1 h
        simp only [List.mem_cons, List.not_mem_nil, or_false] at hj
        exact hj.imp_right fun hj => ⟨j, hj⟩

theorem filter_tokens (n : Name) : n.tokens.filter (!·.isBlank) = n.tokens := by
  refine List.filter_eq_self.2 fun t ht => ?_
  rcases mem_tokens ht with rfl | ⟨i, rfl⟩ <;> rfl

theorem ne_semicolon_of_mem_tokens {n : Name} {t : Token} (h : t ∈ n.tokens) :
    t ≠ .symbol ";" := by
  rcases mem_tokens h with rfl | ⟨i, rfl⟩
  · simp
  · exact nofun

/-- A statement that sets a variable back, as tokens. -/
theorem exists_tokens_reset {n : Name} (h : n.Written) :
    ∃ ls, tokenize ("RESET " ++ n.text) = .ok ls ∧
      ls.map Located.token = .word "RESET" none :: .blank .space :: n.tokens := by
  refine exists_tokenize ?_
  have hlist : ("RESET " ++ n.text).toList = "RESET".toList ++ ' ' :: (n.text.toList ++ []) := by
    rw [String.toList_append, List.append_nil]
    rfl
  rw [hlist, ← List.append_nil n.tokens]
  refine Lexer.yields_word (by decide) (by simp [Lexer.Stops]) fun t => ?_
  exact Lexer.yields_space (Lexer.yields_name h (by simp [Lexer.Stops]) Lexer.yields_nil)

theorem exists_tokens_set {n : Name} (h : n.Written) :
    ∃ ls, tokenize ("SET " ++ n.text ++ " TO DEFAULT") = .ok ls ∧
      ls.map Located.token = setWord :: .blank .space :: (n.tokens ++
        [.blank .space, .word "TO" none, .blank .space, defaultWord]) := by
  refine exists_tokenize ?_
  have hlist : ("SET " ++ n.text ++ " TO DEFAULT").toList = "SET".toList ++ ' ' ::
      (n.text.toList ++ ' ' :: ("TO".toList ++ ' ' :: ("DEFAULT".toList ++ []))) := by
    rw [String.toList_append, String.toList_append, List.append_assoc]
    rfl
  have hstops : ∀ cs, Lexer.Stops (' ' :: cs) := fun cs => by simp [Lexer.Stops]
  rw [hlist]
  refine Lexer.yields_word (by decide) (hstops _) fun t => Lexer.yields_space ?_
  refine Lexer.yields_name h (hstops _) fun t => Lexer.yields_space ?_
  refine Lexer.yields_word (by decide) (hstops _) fun t => Lexer.yields_space ?_
  exact Lexer.yields_word (by decide) (by simp [Lexer.Stops]) Lexer.yields_nil

namespace Rules

variable (r : Rules) {n : Name}

theorem check_reset (h : n.Written) :
    r.check ("RESET " ++ n.text) = r.checkUtility (Utility.ofName n) := by
  obtain ⟨ls, hls, htokens⟩ := exists_tokens_reset h
  have hfilter : (ls.map Located.token).filter (!·.isBlank) = .word "RESET" none :: n.tokens := by
    rw [htokens, List.filter_cons_of_pos rfl, List.filter_cons_of_neg (by simp [Token.isBlank]),
      filter_tokens]
  obtain ⟨i, is, rfl⟩ := List.exists_cons_of_ne_nil h.1
  have hscan := Utility.scan_eq hfilter
    (List.forall_mem_cons.2 ⟨nofun, fun t => ne_semicolon_of_mem_tokens⟩) nofun
  rw [Utility.ofGroup?_resetName, Option.map_some] at hscan
  unfold check
  simp only [hls, hscan]
  rfl

/-- The text with a name after `SET` holds the tokens of one statement, and no utility. -/
theorem exists_shows_set (h : n.Written) :
    ∃ ls, tokenize ("SET " ++ n.text ++ " TO DEFAULT") = .ok ls ∧ Utility.scan ls = none ∧
      (Statement.unread ls).Shows 50 (setWord :: (n.tokens ++ toDefault)) := by
  obtain ⟨ls, hls, htokens⟩ := exists_tokens_set h
  have hfilter : (ls.map Located.token).filter (!·.isBlank) =
      setWord :: (n.tokens ++ toDefault) := by
    rw [htokens, List.filter_cons_of_pos rfl, List.filter_cons_of_neg (by simp [Token.isBlank]),
      List.filter_append, filter_tokens]
    rfl
  refine ⟨ls, hls, ?_, ⟨hfilter, rfl⟩⟩
  rw [Utility.scan_eq hfilter ?_ nofun, Utility.ofGroup?_set]
  · rfl
  · refine List.forall_mem_cons.2 ⟨nofun, List.forall_mem_append.2 ⟨fun t => ?_, ?_⟩⟩
    · exact ne_semicolon_of_mem_tokens
    · simp [toDefault, defaultWord]

theorem check_setDefault (h : n.Written) (ha : Assignable n) :
    r.check ("SET " ++ n.text ++ " TO DEFAULT") =
      r.checkSet (target n) [.name [⟨"DEFAULT", none⟩]] := by
  obtain ⟨ls, hls, hscan, hshows⟩ := exists_shows_set h
  have hread : Reader.Reads (Statement.reader ls.length) 50 (setWord :: (n.tokens ++ toDefault))
      (.set (target n) [.name [⟨"DEFAULT", none⟩]]) [] :=
    comes_statement (m := 2 * ls.length + 59) (d := 49) (o := some (_, []))
      (reads_set (reads_any (2 * ls.length + 56) 48) ha)
  have hstatements := Statement.ofTokens?_of_reads hshows nofun nofun hread
  unfold check
  simp only [hls, hscan, hstatements]
  rfl

theorem exists_check_setDefault (h : n.Written) (ha : ¬ Assignable n) :
    ∃ why, r.check ("SET " ++ n.text ++ " TO DEFAULT") = .error (.unreadable why) := by
  obtain ⟨ls, hls, hscan, hshows⟩ := exists_shows_set h
  obtain ⟨i, is, rfl⟩ := List.exists_cons_of_ne_nil h.1
  have hset := stuck_set (d := 49) (fails_any_point (2 * ls.length + 56) 48) ha
  have hstuck : Stuck (Statement.reader ls.length) 50
      (setWord :: (Name.tokens (i :: is) ++ toDefault)) := by
    rcases hset with hfails | ⟨s, ts', hreads, hon⟩
    · exact .inl (comes_statement (m := 2 * ls.length + 59) (o := none) hfails)
    · exact .inr ⟨s, ts',
        comes_statement (m := 2 * ls.length + 59) (o := some (s, ts')) hreads, hon⟩
  obtain ⟨f, hf⟩ := Statement.exists_ofTokens?_error hshows nofun nofun hstuck
  unfold check
  simp only [hls, hscan, hf]
  exact ⟨_, rfl⟩

end Rules

/-! ## The names that a read-only policy looks at -/

theorem toLower_toUpper (c : Char) : c.toUpper.toLower = c.toLower := by
  by_cases hc : 97 ≤ c.toNat ∧ c.toNat ≤ 122
  · obtain ⟨hlow, hhigh⟩ := hc
    rw [← Char.ofNat_toNat c]
    interval_cases c.toNat <;> rfl
  · have hupper : c.toUpper = c := by
      unfold Char.toUpper
      rw [dif_neg]
      rintro ⟨hlow, hhigh⟩
      exact hc ⟨UInt32.le_iff_toNat_le.1 hlow, UInt32.le_iff_toNat_le.1 hhigh⟩
    rw [hupper]

theorem asciiLower_asciiUpper (s : String) : asciiLower (asciiUpper s) = asciiLower s := by
  refine String.toList_injective ?_
  simp only [asciiLower, asciiUpper, String.toList_map, List.map_map]
  exact List.map_congr_left fun c _ => toLower_toUpper c

/-- Whether the first part of a name is what a read-only policy does not set back. -/
def ResetsAccess : Name → Prop
  | [] => False
  | i :: _ => asciiUpper i.value = "ALL" ∨ asciiLower i.value ∈ accessVariables

instance : DecidablePred ResetsAccess
  | [] => inferInstanceAs (Decidable False)
  | _ :: _ => inferInstanceAs (Decidable (_ ∨ _))

/-- Quotes around a text without quotes are dropped. -/
theorem trim_quotes {q v : List Char} (hq : ∀ c ∈ q, c = '"') (hv : ∀ c ∈ v, c ≠ '"') :
    (((q ++ v ++ q).dropWhile (· = '"')).reverse.dropWhile (· = '"')).reverse = v := by
  have hall : ∀ c ∈ q, decide (c = '"') = true := fun c hc => by simpa using hq c hc
  cases v with
  | nil =>
      have hdrop : (q ++ [] ++ q).dropWhile (· = '"') = [] := by
        rw [List.dropWhile_eq_nil_iff]
        simpa using hq
      rw [hdrop]
      rfl
  | cons c v =>
      obtain ⟨hc, hv'⟩ := List.forall_mem_cons.1 hv
      have hlast : (c :: v).reverse.dropWhile (· = '"') = (c :: v).reverse := by
        rw [List.dropWhile_eq_self_iff]
        intro hpos
        have hmem : (c :: v).reverse[0] ∈ c :: v := List.mem_reverse.1 (List.getElem_mem hpos)
        simpa using hv _ hmem
      rw [List.append_assoc, List.dropWhile_append_of_pos hall, List.cons_append,
        List.dropWhile_cons_of_neg (by simpa using hc), ← List.cons_append, List.reverse_append,
        List.dropWhile_append_of_pos (by simpa using hq), hlast, List.reverse_reverse]

/-- Without points and quotes in it, the one part of a name is what the variable is called. -/
theorem variableName_singleton {i : Ident} (h : i.Written)
    (hv : ∀ c ∈ i.value.toList, c ≠ '.' ∧ c ≠ '"') : variableName [i] = asciiLower i.value := by
  obtain ⟨q, hq, htext⟩ : ∃ q : List Char, (∀ c ∈ q, c = '"') ∧
      (Name.text [i]).toList = q ++ i.value.toList ++ q := by
    obtain ⟨value, quote⟩ := i
    cases quote with
    | none => exact ⟨[], nofun, by simp [Name.text, Ident.text]⟩
    | some q =>
        obtain rfl : q = '"' := h
        refine ⟨['"'], by simp, ?_⟩
        have hdoubled : value.toList.flatMap (fun c => if c = '"' then [c, c] else [c]) =
            value.toList := by
          rw [List.flatMap_congr fun c hc => if_neg (hv c hc).2]
          exact List.flatMap_singleton' _
        simp [Name.text, Ident.text, hdoubled]
  have hcut : Text.cut (· = '.') (q ++ i.value.toList ++ q) = [q ++ i.value.toList ++ q] := by
    refine Text.cut_eq_singleton _ fun c hc => decide_eq_false ?_
    rcases List.mem_append.1 hc with hc | hc
    · rcases List.mem_append.1 hc with hc | hc
      · simp [hq c hc]
      · exact (hv c hc).1
    · simp [hq c hc]
  unfold variableName
  rw [htext, hcut, List.getLast?_singleton, Option.getD_some]
  dsimp only
  rw [trim_quotes hq fun c hc => (hv c hc).2, String.ofList_toList]

/-- A name of one part, without points and quotes in it, is looked at in the same way twice. -/
theorem resetsAccess_singleton_iff {i : Ident} (h : i.Written)
    (hv : ∀ c ∈ i.value.toList, c ≠ '.' ∧ c ≠ '"') (hall : asciiUpper i.value ≠ "ALL") :
    ResetsAccess [i] ↔ variableName [i] ∈ accessVariables := by
  rw [variableName_singleton h hv]
  exact or_iff_right hall

/-- A word has neither points nor quotes in it. -/
theorem ne_of_isWord {cs : List Char} (h : IsWord cs) : ∀ c ∈ cs, c ≠ '.' ∧ c ≠ '"' := by
  cases cs with
  | nil => exact nofun
  | cons c cs =>
      have hne : ∀ x, Lexer.continuesWord x = true → x ≠ '.' ∧ x ≠ '"' := by
        intro x hx
        constructor <;> rintro rfl <;> revert hx <;> decide
      refine List.forall_mem_cons.2 ⟨hne c ?_, fun x hx => hne x (h.2 x hx)⟩
      simp [Lexer.continuesWord, h.1]

/-- A word that reads as `TIMEZONE` is too short for a variable of access. -/
theorem variableName_of_timeZone {i : Ident} (h : i.Written) (hi : i.token.keyword = "TIMEZONE") :
    variableName [i] ∉ accessVariables := by
  obtain ⟨value, quote⟩ := i
  cases quote with
  | some q => exact absurd hi (by simp [Ident.token, Token.keyword])
  | none =>
      rw [variableName_singleton h (ne_of_isWord h)]
      have hlength : value.toList.length = 8 := by
        have := congrArg (fun s : String => s.toList.length) hi
        simpa [Ident.token, Token.keyword, upper] using this
      intro hmem
      have hlower : (asciiLower value).toList.length = 8 := by simpa [asciiLower] using hlength
      simp only [accessVariables, List.mem_cons, List.not_mem_nil, or_false] at hmem
      rcases hmem with hmem | hmem <;> rw [hmem] at hlower <;> revert hlower <;> decide

theorem variableName_target {n : Name} (h : n.Written) :
    variableName (target n) ∈ accessVariables ↔ variableName n ∈ accessVariables := by
  obtain ⟨i, is, rfl⟩ := List.exists_cons_of_ne_nil h.1
  cases is with
  | cons j is => rfl
  | nil =>
      by_cases hzone : i.token.keyword = "TIMEZONE"
      · have hword : variableName [⟨"TIMEZONE", none⟩] ∉ accessVariables := by decide +kernel
        rw [target, if_pos hzone]
        have hi := variableName_of_timeZone (h.2 i List.mem_cons_self) hzone
        exact ⟨fun hc => absurd hc hword, fun hc => absurd hc hi⟩
      · rw [target, if_neg hzone]

namespace Rules

variable (r : Rules) {n : Name}

/-- The rule on setting something back that a read-only policy may not let go. -/
def guard (p : Prop) [Decidable p] (e : Escape) : Verdict := do
  if p then r.refuseEscape e
  r.require .reset

theorem exists_guard_eq_checkUtility (hn : n ≠ []) :
    ∃ e, r.checkUtility (Utility.ofName n) = r.guard (ResetsAccess n) e := by
  obtain ⟨i, is, rfl⟩ := List.exists_cons_of_ne_nil hn
  by_cases hall : asciiUpper i.value = "ALL"
  · refine ⟨.resetAll, ?_⟩
    simp [Utility.ofName, hall, checkUtility, guard, ResetsAccess]
  · refine ⟨.reset (asciiLower i.value), ?_⟩
    simp [Utility.ofName, hall, checkUtility, guard, ResetsAccess, asciiLower_asciiUpper]

theorem exists_guard_eq_checkSet (h : n.Written) :
    ∃ e, r.checkSet (target n) [.name [⟨"DEFAULT", none⟩]] =
      r.guard (variableName n ∈ accessVariables) e := by
  have hdefault : Expr.isDefault (.name [⟨"DEFAULT", none⟩]) = true := by decide +kernel
  refine ⟨.set (variableName (target n)), ?_⟩
  simp [checkSet, guard, hdefault, variableName_target h]

theorem guard_eq (p : Prop) [Decidable p] (e : Escape) :
    r.guard p e = if r.readOnly = true ∧ p then .error (.readOnly e) else r.require .reset := by
  by_cases hp : p <;> cases hr : r.readOnly <;>
    simp [guard, refuseEscape, hp, hr, Bind.bind, Except.bind]

theorem require_eq (c : StatementClass) :
    r.require c = .ok () ∨ r.require c = .error (.blocked c) := by
  unfold require
  split
  · exact .inl rfl
  · exact .inr rfl

theorem alike_require : Alike (r.require .reset) (r.require .reset) := by
  rcases r.require_eq .reset with h | h
  · exact h ▸ .allowed
  · exact h ▸ .blocked

theorem not_alike_require (e : Escape) :
    ¬ Alike (.error (.readOnly e)) (r.require .reset) := by
  rcases r.require_eq .reset with h | h
  · exact h ▸ nofun
  · exact h ▸ nofun

theorem not_require_alike (e : Escape) :
    ¬ Alike (r.require .reset) (.error (.readOnly e)) := by
  rcases r.require_eq .reset with h | h
  · exact h ▸ nofun
  · exact h ▸ nofun

/-- Two rules of this kind agree unless only one of them looks at what it is about. -/
theorem alike_guard_iff {p q : Prop} [Decidable p] [Decidable q] (e e' : Escape) :
    Alike (r.guard p e) (r.guard q e') ↔ (r.readOnly = true → (p ↔ q)) := by
  rw [guard_eq, guard_eq]
  by_cases hr : r.readOnly = true
  · by_cases hp : p <;> by_cases hq : q <;> simp [hr, hp, hq, alike_require, Alike.readOnly]
    · exact r.not_alike_require e
    · exact r.not_require_alike e'
  · simp [hr, alike_require]

/-- **The two ways to set a variable back.** They get the same verdict if `SET` reads the name as
that of a variable and, in a read-only policy, both look at the same: `RESET` at the first part of
the name, `SET` at the last. -/
theorem check_reset_alike_iff (h : n.Written) :
    Alike (r.check ("RESET " ++ n.text)) (r.check ("SET " ++ n.text ++ " TO DEFAULT")) ↔
      Assignable n ∧
        (r.readOnly = true → (ResetsAccess n ↔ variableName n ∈ accessVariables)) := by
  obtain ⟨e, he⟩ := r.exists_guard_eq_checkUtility h.1
  rw [r.check_reset h, he]
  by_cases ha : Assignable n
  · obtain ⟨e', he'⟩ := r.exists_guard_eq_checkSet h
    rw [r.check_setDefault h ha, he', r.alike_guard_iff]
    exact (and_iff_right ha).symm
  · obtain ⟨why, hwhy⟩ := r.exists_check_setDefault h ha
    rw [hwhy]
    exact ⟨fun hc => absurd hc not_alike_unreadable, fun hc => absurd hc.1 ha⟩

/-- A policy that keeps to reading but lets variables be set back. -/
def readingWithReset : Rules := ⟨true, fun c => c = .reset⟩

/-- A variable of access is known by its own name, in whatever case and quotes it is written. -/
theorem check_reset_alike_iff_quoted :
    Name.Written [⟨"Transaction_Read_Only", some '"'⟩] ∧
      (Alike
          (readingWithReset.check ("RESET " ++ Name.text [⟨"Transaction_Read_Only", some '"'⟩]))
          (readingWithReset.check
            ("SET " ++ Name.text [⟨"Transaction_Read_Only", some '"'⟩] ++ " TO DEFAULT")) ↔
        Assignable [⟨"Transaction_Read_Only", some '"'⟩] ∧
          (readingWithReset.readOnly = true →
            (ResetsAccess [⟨"Transaction_Read_Only", some '"'⟩] ↔
              variableName [⟨"Transaction_Read_Only", some '"'⟩] ∈ accessVariables))) :=
  have h : Name.Written [⟨"Transaction_Read_Only", some '"'⟩] := by decide
  ⟨h, readingWithReset.check_reset_alike_iff h⟩

/-- With a part before its name a variable of access is set back by `RESET`, but not by `SET`. -/
theorem check_reset_unlike :
    readingWithReset.check "RESET app.transaction_read_only" = .ok () ∧
      readingWithReset.check "SET app.transaction_read_only TO DEFAULT" =
        .error (.readOnly (.set "transaction_read_only")) := by
  constructor <;> decide +kernel

end Rules

end Policy

end SqlGate
