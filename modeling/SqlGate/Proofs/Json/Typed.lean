import Mathlib.Data.List.Nodup
import SqlGate.Proofs.Json.RoundTrip

/-!
# Records are read back

A record is written as an object, one member for each of its fields. Reading goes from field to
field (`gives_field`), so the record is read back if each field is, and the first field that is not
gives the fault.
-/

namespace SqlGate.Json.Typed

variable {α β σ : Type}

theorem starting_cons {start : Char → Bool} {expected : String} {read : Read α} {c : Char}
    (rest : List Char) (place : Place) (hblank : Cursor.isBlank c = false) (hc : start c = true) :
    starting start expected read ⟨c :: rest, place⟩ = read ⟨c :: rest, place⟩ := by
  unfold starting
  rw [Cursor.skipBlanks_cons hblank]
  dsimp only [Cursor.peek?_cons]
  rw [if_pos hc]

theorem reads_string (s : String) : Reads string (quote s).toList (some s) := by
  intro rest place _
  obtain ⟨place', hread⟩ := exists_stringRest s rest (Cursor.after place '"')
  rw [toList_quote, List.cons_append, List.append_assoc, List.singleton_append, string,
    starting_cons _ place rfl rfl, Cursor.advance_cons, hread]
  exact gives_ok s rest place'

theorem reads_unsigned {n : Nat} (h : n < 18446744073709551616) :
    Reads unsigned (chars (.nat n)) (some n) := by
  intro rest place hr
  have hchars : chars (.nat n) = (Numeral.Written.ofNat n).chars := toList_text_natCast n
  have hread := reads_numeral_ofNat (Nat.le_of_lt_succ h) rest place hr
  obtain ⟨c, cs, hcs⟩ := List.exists_cons_of_ne_nil (isRun_digits n).1
  have hc : c.isDigit := (isRun_digits n).2 c (by simp [hcs])
  have hsome : (digitValue? c).isSome := by
    rw [digitValue?_of_isDigit hc]
    rfl
  have hminus : ¬some c = some '-' := fun heq => ne_of_isDigit hc rfl (Option.some.inj heq)
  rw [hchars, chars_ofNat, hcs, List.cons_append, unsigned,
    starting_cons _ place (isBlank_of_isDigit hc) (by simp [hsome]), Cursor.peek?_cons,
    if_neg hminus]
  rw [chars_ofNat, hcs, List.cons_append] at hread
  obtain ⟨place', hread⟩ := hread
  rw [hread]
  exact gives_ok n rest place'

theorem reads_optional_string (s : Option String) :
    Reads (optional string) (chars (.ofText? s)) (some s) := by
  intro rest place hr
  cases s with
  | none =>
      obtain ⟨place', hword⟩ := Cursor.exists_word "ull".toList rest (Cursor.after place 'n')
      change Gives (optional string ⟨'n' :: ("ull".toList ++ rest), place⟩) _ rest
      rw [optional, Cursor.skipBlanks_cons rfl]
      dsimp only
      rw [if_pos Cursor.peek?_cons, Cursor.advance_cons, hword]
      exact gives_ok none rest place'
  | some s =>
      have hread := reads_string s rest place hr
      change Gives (optional string ⟨(quote s).toList ++ rest, place⟩) _ rest
      rw [toList_quote, List.cons_append] at hread ⊢
      rw [optional, Cursor.skipBlanks_cons rfl]
      dsimp only
      rw [if_neg (by simp)]
      exact hread.map some

theorem readsItems_itemsOf (read : Read α) :
    ReadsItems (fun fuel => itemsOf read fuel) (fun _ => read) := fun _ _ _ => rfl

theorem length_lt_fuelFor (c : Char) (cs rest : List Char) (place : Place) :
    cs.length < fuelFor ⟨c :: (cs ++ rest), place⟩ := by
  rw [fuelFor, List.length_cons, List.length_append]
  omega

/-- An array of one kind is read item by item. -/
theorem reads_list {read : Read α} {text : β → List Char} {found : β → Option α} {ys : List β}
    (hbegins : ∀ y ∈ ys, Begins (text y)) (hread : ∀ y ∈ ys, Reads read (text y) (found y)) :
    Reads (list read) ('[' :: (separated text ys ++ [']'])) (ys.mapM found) := by
  intro rest place _
  rw [List.cons_append, List.append_assoc, List.singleton_append, list, starting_cons _ place rfl rfl,
    Cursor.advance_cons]
  have hitems := gives_separated (readsItems_itemsOf read) hbegins (fun y hy _ _ => hread y hy)
    (length_lt_fuelFor '[' _ (']' :: rest) place) rest (Cursor.after place '[')
  rw [← Option.bind_fun_some (ys.mapM found)]
  refine hitems.bind fun xs place _ => ?_
  dsimp only
  rw [endList_bracket]
  exact gives_ok xs rest _

/-- An object is read with all that its members hold. -/
theorem reads_anyObject {ms : List (String × Json)} (h : Proper (.obj ms)) (depth : Nat) :
    Reads (anyObject depth) (chars (.obj ms)) (rereadMembers depth ms) := by
  intro rest place _
  cases h with
  | obj hkeys h =>
      rw [chars_obj, List.cons_append, List.append_assoc, List.singleton_append, anyObject,
        starting_cons _ place rfl rfl, Cursor.advance_cons]
      have hmembers := gives_members (fun m hm fuel hle => reads_value (h m hm) depth hle) hkeys
        (length_lt_fuelFor '\x7b' _ ('\x7d' :: rest) place) rest (Cursor.after place '\x7b')
      rw [← Option.bind_fun_some (rereadMembers depth ms)]
      refine hmembers.bind fun ms' place _ => ?_
      dsimp only
      rw [endObject_brace]
      exact gives_ok ms' rest _

/-! ## Records -/

/-- Where no letters are missing, none are looked for. -/
theorem solid_of_not_mem {ls : Letters} (h : none ∉ ls) (read : Read α) : solid ls read = read := by
  have hbetween (c c' : Cursor) : (between ls c c').contains none = false := by
    rw [List.contains_eq_mem, decide_eq_false_iff_not]
    exact fun hmem => h (List.mem_of_mem_drop (List.mem_of_mem_take hmem))
  funext c
  simp only [solid, hbetween]
  split
  · split <;> rfl
  · rfl

theorem record_brace (name : String) (fields : List (Field σ)) (empty : σ) (cs : List Char)
    (place : Place) : record [] name fields empty ⟨'\x7b' :: cs, place⟩ =
      closing endObject (fieldMembers [] fields (fuelFor ⟨'\x7b' :: cs, place⟩) true empty
        ⟨cs, Cursor.after place '\x7b'⟩) := by
  unfold record
  rw [Cursor.skipBlanks_cons rfl]
  rfl

section Record

variable {fields : List (Field σ)} {record : σ} {fuel : Nat} {rest tail : List Char}

theorem find?_get (hnames : (fields.map Field.name).Nodup) (i : Fin fields.length) :
    fields.find? (·.name = (fields.get i).name) = some (fields.get i) := by
  obtain ⟨f, hf⟩ : ∃ f, fields.find? (·.name = (fields.get i).name) = some f := by
    rw [← Option.isSome_iff_exists, List.find?_isSome]
    exact ⟨fields.get i, List.get_mem fields i, by simp⟩
  have hname : f.name = (fields.get i).name := by simpa using List.find?_some hf
  rw [hf, List.inj_on_of_nodup_map hnames (List.mem_of_find?_eq_some hf) (List.get_mem fields i)
    hname]

/-- After a field the others follow. -/
theorem gives_field (hnames : (fields.map Field.name).Nodup) (i : Fin fields.length)
    {outcome : Option σ} {v : Json} (hread : Reads ((fields.get i).read record) (chars v) outcome)
    (hset : (fields.get i).isSet record = false) {first : Bool} {c : Cursor} {place : Place}
    (hmore : moreMembers first c =
      .ok (true, ⟨memberText ((fields.get i).name, v) ++ rest, place⟩))
    (hends : Ends rest) {next : σ → Option σ}
    (hrest : ∀ record' place, outcome = some record' →
      Gives (closing endObject (fieldMembers [] fields fuel false record' ⟨rest, place⟩))
        (next record') tail) :
    Gives (closing endObject (fieldMembers [] fields (fuel + 1) first record c))
      (outcome.bind next) tail := by
  have hfind := find?_get hnames i
  generalize fields.get i = f at hread hset hmore hfind
  obtain ⟨place₁, hkey⟩ :=
    exists_stringRest f.name (':' :: (chars v ++ rest)) (Cursor.after place '"')
  have htext : memberText (f.name, v) ++ rest =
      '"' :: (f.name.toList.flatMap escape ++ '"' :: ':' :: (chars v ++ rest)) := by
    simp [memberText, toList_quote, chars]
  have hsolid {β : Type} (read : Read β) : solid [] read = read :=
    solid_of_not_mem List.not_mem_nil read
  have hstep : fieldMembers [] fields (fuel + 1) first record c =
      Trouble.lift (f.read record ⟨chars v ++ rest, Cursor.after place₁ ':'⟩) >>= fun x =>
        fieldMembers [] fields fuel false x.1 x.2 := by
    simp only [fieldMembers, hsolid, hmore, htext, Trouble.lift, ok_bind, Cursor.advance_cons,
      hkey, hfind, hset, colon_colon, if_pos, Bool.false_eq_true, if_false]
  rw [hstep]
  have hvalue := hread rest (Cursor.after place₁ ':') hends
  cases outcome with
  | none =>
      obtain ⟨why, hwhy⟩ := hvalue
      rw [hwhy]
      exact ⟨why, rfl⟩
  | some record' =>
      obtain ⟨place₂, hok⟩ := hvalue
      rw [hok]
      exact hrest record' place₂ rfl

/-- After a field that is always read. -/
theorem gives_field_some (hnames : (fields.map Field.name).Nodup) (i : Fin fields.length)
    {record' : σ} {v : Json} (hread : Reads ((fields.get i).read record) (chars v) (some record'))
    (hset : (fields.get i).isSet record = false) {first : Bool} {c : Cursor} {place : Place}
    (hmore : moreMembers first c =
      .ok (true, ⟨memberText ((fields.get i).name, v) ++ rest, place⟩))
    (hends : Ends rest) {outcome : Option σ}
    (hrest : ∀ place,
      Gives (closing endObject (fieldMembers [] fields fuel false record' ⟨rest, place⟩))
        outcome tail) :
    Gives (closing endObject (fieldMembers [] fields (fuel + 1) first record c)) outcome tail := by
  change Gives _ ((some record').bind fun _ => outcome) tail
  refine gives_field hnames i hread hset hmore hends fun r place hr => ?_
  obtain rfl := Option.some.inj hr
  exact hrest place

theorem gives_end (hmissing : missing? fields record = none) (rest : List Char) (place : Place) :
    Gives (closing endObject
      (fieldMembers [] fields (fuel + 1) false record ⟨'\x7d' :: rest, place⟩)) (some record) rest := by
  simp only [fieldMembers, moreMembers_end, Trouble.lift, ok_bind, Bool.false_eq_true, if_false,
    hmissing]
  exact gives_ok record rest _

end Record

end SqlGate.Json.Typed
