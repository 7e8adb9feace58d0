import SqlGate.Json.Printer
import SqlGate.Json.Reader
import SqlGate.Proofs.Json.Scalars

/-!
# Values are read back

A value is `Proper` if its integers fit 64 bits and the keys of its objects ascend, and `Readable`,
which is what reading can give, if also its doubles are finite. Two measures of it matter when it is
written and read again: how deep it nests, and the doubles in it. `reread` says what becomes of it
then, part by part.

Reading the written form of a value gives what `reread` says (`reads_value`): nothing but its numbers
and its nesting counts. So a value is read back as it was if it does not nest too deep and each
double in it is `Kept`, and only then (`reread_eq_some_iff`).
-/

/-! ## What a value is made of -/

namespace SqlGate

/-- A double that is a number. -/
def Number.Double.IsFinite (x : Number.Double) : Prop :=
  ∃ negative m e, x.value = .finite negative m e

namespace Json

/-- A value whose integers fit 64 bits and whose objects have their keys in order. -/
inductive Proper : Json → Prop where
  | null : Proper .null
  | bool (b : Bool) : Proper (.bool b)
  | int {i : Int} (hlow : -9223372036854775808 ≤ i) (hhigh : i < 18446744073709551616) :
    Proper (.num (.int i))
  | real (x : Number.Double) : Proper (.num (.real x))
  | str (s : String) : Proper (.str s)
  | arr {xs : List Json} (h : ∀ x ∈ xs, Proper x) : Proper (.arr xs)
  | obj {ms : List (String × Json)} (hkeys : ms.Pairwise fun m m' => m.1 < m'.1)
    (h : ∀ m ∈ ms, Proper m.2) : Proper (.obj ms)

/-- A value that a text can have. -/
inductive Readable : Json → Prop where
  | null : Readable .null
  | bool (b : Bool) : Readable (.bool b)
  | int {i : Int} (hlow : -9223372036854775808 ≤ i) (hhigh : i < 18446744073709551616) :
    Readable (.num (.int i))
  | real {x : Number.Double} (h : x.IsFinite) : Readable (.num (.real x))
  | str (s : String) : Readable (.str s)
  | arr {xs : List Json} (h : ∀ x ∈ xs, Readable x) : Readable (.arr xs)
  | obj {ms : List (String × Json)} (hkeys : ms.Pairwise fun m m' => m.1 < m'.1)
    (h : ∀ m ∈ ms, Readable m.2) : Readable (.obj ms)

theorem Readable.proper {v : Json} (h : Readable v) : Proper v := by
  induction h with
  | null => exact .null
  | bool b => exact .bool b
  | int hlow hhigh => exact .int hlow hhigh
  | @real x h => exact .real x
  | str s => exact .str s
  | arr h ih => exact .arr ih
  | obj hkeys h ih => exact .obj hkeys ih

mutual

/-- How many arrays and objects stand inside each other at most. -/
def nesting : Json → Nat
  | .arr xs => nestingAll xs + 1
  | .obj ms => nestingMembers ms + 1
  | _ => 0

/-- The greatest nesting of some values. -/
def nestingAll : List Json → Nat
  | [] => 0
  | x :: xs => max (nesting x) (nestingAll xs)

/-- The greatest nesting of the values of some members. -/
def nestingMembers : List (String × Json) → Nat
  | [] => 0
  | (_, v) :: ms => max (nesting v) (nestingMembers ms)

end

mutual

/-- The doubles in a value. -/
def doubles : Json → List Number.Double
  | .num (.real x) => [x]
  | .arr xs => doublesAll xs
  | .obj ms => doublesMembers ms
  | _ => []

/-- The doubles in some values. -/
def doublesAll : List Json → List Number.Double
  | [] => []
  | x :: xs => doubles x ++ doublesAll xs

/-- The doubles in the values of some members. -/
def doublesMembers : List (String × Json) → List Number.Double
  | [] => []
  | (_, v) :: ms => doubles v ++ doublesMembers ms

end

mutual

/-- What reading makes of the written form of a value, `depth` counting the nesting that is left. -/
def reread : Nat → Json → Option Json
  | _, .num n => ofString? n.text
  | depth, .arr xs => if depth ≤ 1 then none else (rereadAll (depth - 1) xs).map .arr
  | depth, .obj ms => if depth ≤ 1 then none else (rereadMembers (depth - 1) ms).map .obj
  | _, v => some v

/-- What it makes of some values. -/
def rereadAll : Nat → List Json → Option (List Json)
  | _, [] => some []
  | depth, x :: xs => do return (← reread depth x) :: (← rereadAll depth xs)

/-- What it makes of the values of some members. -/
def rereadMembers : Nat → List (String × Json) → Option (List (String × Json))
  | _, [] => some []
  | depth, (k, v) :: ms => do return (k, ← reread depth v) :: (← rereadMembers depth ms)

end

end Json

end SqlGate

namespace SqlGate.Json

variable {α β : Type}

/-! ## Arrays -/

/-- Texts, each with a comma in front. -/
def trailing (text : β → List Char) (ys : List β) : List Char := ys.flatMap fun y => ',' :: text y

/-- Texts with commas between them. -/
def separated (text : β → List Char) : List β → List Char
  | [] => []
  | y :: ys => text y ++ trailing text ys

theorem ends_trailing (text : β → List Char) (ys : List β) {c : Char} (rest : List Char)
    (hc : continuesNumeral c = false) : Ends (trailing text ys ++ c :: rest) := by
  cases ys with
  | nil => exact ends_cons rest hc
  | cons y ys => exact ends_cons _ rfl

theorem separated_map {γ : Type} (text : β → List Char) (f : γ → β) (xs : List γ) :
    separated text (xs.map f) = separated (fun x => text (f x)) xs := by
  cases xs with
  | nil => rfl
  | cons x xs => simp [separated, trailing, List.flatMap_map]

/-- A reader of arrays that reads each item with a reader of its own, which may depend on the fuel
that is left. -/
def ReadsItems (go : Nat → Bool → Typed.Read (List α)) (read : Nat → Typed.Read α) : Prop :=
  ∀ fuel first c, go (fuel + 1) first c = (do
    let (more, c) ← moreItems first c
    if more then
      let (x, c) ← read fuel c
      let (xs, c) ← go fuel false c
      return (x :: xs, c)
    else return ([], c))

section Items

variable {go : Nat → Bool → Typed.Read (List α)} {read : Nat → Typed.Read α}
  {text : β → List Char} {found : β → Option α} {ys : List β}

/-- After an item the others follow, each with a comma in front. -/
theorem gives_item (hgo : ReadsItems go read) {fuel : Nat} {first : Bool} {y : β} {ys : List β}
    {c : Cursor} {rest : List Char} {place : Place}
    (hmore : moreItems first c = .ok (true, ⟨text y ++ (trailing text ys ++ ']' :: rest), place⟩))
    (hread : Reads (read fuel) (text y) (found y))
    (hrest : ∀ place, Gives (go fuel false ⟨trailing text ys ++ ']' :: rest, place⟩)
      (ys.mapM found) (']' :: rest)) :
    Gives (go (fuel + 1) first c) ((y :: ys).mapM found) (']' :: rest) := by
  rw [hgo, hmore, List.mapM_cons]
  refine (hread _ place (ends_trailing text ys rest rfl)).bind fun x place _ => ?_
  exact (hrest place).bind fun xs place _ => gives_ok (x :: xs) _ place

theorem gives_trailing (hgo : ReadsItems go read) (hbegins : ∀ y ∈ ys, Begins (text y))
    (hread : ∀ y ∈ ys, ∀ fuel, (text y).length ≤ fuel → Reads (read fuel) (text y) (found y))
    {fuel : Nat} (hfuel : (trailing text ys).length < fuel) (rest : List Char) (place : Place) :
    Gives (go fuel false ⟨trailing text ys ++ ']' :: rest, place⟩) (ys.mapM found)
      (']' :: rest) := by
  induction ys generalizing fuel place with
  | nil =>
      obtain ⟨fuel, rfl⟩ := Nat.exists_eq_add_one_of_ne_zero (Nat.ne_zero_of_lt hfuel)
      rw [hgo, List.mapM_nil]
      exact gives_ok _ _ place
  | cons y ys ih =>
      obtain ⟨fuel, rfl⟩ := Nat.exists_eq_add_one_of_ne_zero (Nat.ne_zero_of_lt hfuel)
      obtain ⟨c, r, hy, hblank, hbracket⟩ := hbegins y List.mem_cons_self
      have hlength : (trailing text (y :: ys)).length =
          (text y).length + 1 + (trailing text ys).length := by
        rw [trailing, List.flatMap_cons, List.length_append, List.length_cons]
        rfl
      have hmore : moreItems false ⟨trailing text (y :: ys) ++ ']' :: rest, place⟩ =
          .ok (true, ⟨text y ++ (trailing text ys ++ ']' :: rest), Cursor.after place ','⟩) := by
        rw [trailing, List.flatMap_cons, List.cons_append, List.cons_append, List.append_assoc, hy,
          List.cons_append]
        exact moreItems_comma _ place hblank hbracket
      refine gives_item hgo hmore (hread y List.mem_cons_self fuel (by omega)) fun place => ?_
      exact ih (fun z hz => hbegins z (List.mem_cons_of_mem y hz))
        (fun z hz => hread z (List.mem_cons_of_mem y hz)) (by omega) place

/-- All items of an array are read. -/
theorem gives_separated (hgo : ReadsItems go read) (hbegins : ∀ y ∈ ys, Begins (text y))
    (hread : ∀ y ∈ ys, ∀ fuel, (text y).length ≤ fuel → Reads (read fuel) (text y) (found y))
    {fuel : Nat} (hfuel : (separated text ys).length < fuel) (rest : List Char) (place : Place) :
    Gives (go fuel true ⟨separated text ys ++ ']' :: rest, place⟩) (ys.mapM found)
      (']' :: rest) := by
  obtain ⟨fuel, rfl⟩ := Nat.exists_eq_add_one_of_ne_zero (Nat.ne_zero_of_lt hfuel)
  cases ys with
  | nil =>
      rw [hgo, List.mapM_nil]
      exact gives_ok _ _ place
  | cons y ys =>
      obtain ⟨c, r, hy, hblank, hbracket⟩ := hbegins y List.mem_cons_self
      have hlength : (separated text (y :: ys)).length =
          (text y).length + (trailing text ys).length := List.length_append
      have hpos : 0 < (text y).length := by simp [hy]
      have hmore : moreItems true ⟨separated text (y :: ys) ++ ']' :: rest, place⟩ =
          .ok (true, ⟨text y ++ (trailing text ys ++ ']' :: rest), place⟩) := by
        rw [separated, List.append_assoc, hy, List.cons_append]
        exact moreItems_first _ place hblank hbracket
      refine gives_item hgo hmore (hread y List.mem_cons_self fuel (by omega)) fun place => ?_
      exact gives_trailing hgo (fun z hz => hbegins z (List.mem_cons_of_mem y hz))
        (fun z hz => hread z (List.mem_cons_of_mem y hz)) (by omega) rest place

end Items

/-! ## Objects -/

/-- A member as it is written. -/
def memberText (m : String × Json) : List Char := (quote m.1).toList ++ ':' :: m.2.text.toList

theorem ends_members (ms : List (String × Json)) (rest : List Char) :
    Ends (trailing memberText ms ++ '\x7d' :: rest) := ends_trailing memberText ms rest rfl

theorem moreMembers_member (m : String × Json) (rest : List Char) (place : Place) :
    moreMembers true ⟨memberText m ++ rest, place⟩ = .ok (true, ⟨memberText m ++ rest, place⟩) := by
  rw [memberText, toList_quote]
  exact moreMembers_first _ place

theorem moreMembers_trailing (m : String × Json) (ms : List (String × Json)) (rest : List Char)
    (place : Place) : moreMembers false ⟨trailing memberText (m :: ms) ++ rest, place⟩ =
      .ok (true, ⟨memberText m ++ (trailing memberText ms ++ rest), Cursor.after place ','⟩) := by
  rw [trailing, List.flatMap_cons, List.append_assoc, memberText, toList_quote]
  exact moreMembers_comma _ place

theorem insert_of_lt {k : String} (v : Json) {acc : List (String × Json)}
    (h : ∀ m ∈ acc, m.1 < k) : insert k v acc = acc ++ [(k, v)] := by
  induction acc with
  | nil => rfl
  | cons m acc ih =>
      have hlt : m.1 < k := h m List.mem_cons_self
      rw [insert, if_neg (String.lt_asymm hlt), if_neg (String.ne_of_lt hlt).symm,
        ih fun x hx => h x (List.mem_cons_of_mem m hx)]
      rfl

theorem map_append_rereadMembers (depth : Nat) (k : String) (v : Json)
    (ms acc : List (String × Json)) :
    (rereadMembers depth ((k, v) :: ms)).map (acc ++ ·) = (reread depth v).bind fun v' =>
      (rereadMembers depth ms).map (acc ++ [(k, v')] ++ ·) := by
  rw [rereadMembers]
  cases reread depth v with
  | none => rfl
  | some v' => cases rereadMembers depth ms <;> simp

section Members

variable {depth fuel : Nat} {m : String × Json} {ms acc : List (String × Json)}

/-- After a member the others follow, each with a comma in front. A member whose key is greater than
those of all before it comes last. -/
theorem gives_member {first : Bool} {c : Cursor} {rest : List Char} {place : Place}
    (hmore : moreMembers first c =
      .ok (true, ⟨memberText m ++ (trailing memberText ms ++ '\x7d' :: rest), place⟩))
    (hread : Reads (value fuel depth) m.2.text.toList (reread depth m.2))
    (hacc : ∀ a ∈ acc, a.1 < m.1)
    (hrest : ∀ v place, Gives
      (members fuel depth false (acc ++ [(m.1, v)]) ⟨trailing memberText ms ++ '\x7d' :: rest, place⟩)
      ((rereadMembers depth ms).map (acc ++ [(m.1, v)] ++ ·)) ('\x7d' :: rest)) :
    Gives (members (fuel + 1) depth first acc c) ((rereadMembers depth (m :: ms)).map (acc ++ ·))
      ('\x7d' :: rest) := by
  obtain ⟨k, v⟩ := m
  obtain ⟨place₁, hkey⟩ := exists_stringRest k
    (':' :: (v.text.toList ++ (trailing memberText ms ++ '\x7d' :: rest))) (Cursor.after place '"')
  have htext : memberText (k, v) ++ (trailing memberText ms ++ '\x7d' :: rest) =
      '"' :: (k.toList.flatMap escape ++
        '"' :: ':' :: (v.text.toList ++ (trailing memberText ms ++ '\x7d' :: rest))) := by
    simp [memberText, toList_quote]
  rw [members, hmore, htext, ok_bind]
  dsimp only
  rw [if_pos rfl, Cursor.advance_cons, hkey, ok_bind]
  dsimp only
  rw [colon_colon, ok_bind, map_append_rereadMembers]
  refine (hread _ _ (ends_members ms rest)).bind fun v' place _ => ?_
  dsimp only
  rw [insert_of_lt v' hacc]
  exact hrest v' place

theorem gives_trailingMembers
    (hread : ∀ m ∈ ms, ∀ fuel, m.2.text.toList.length ≤ fuel →
      Reads (value fuel depth) m.2.text.toList (reread depth m.2))
    (hkeys : ms.Pairwise fun m m' => m.1 < m'.1) (hacc : ∀ a ∈ acc, ∀ m ∈ ms, a.1 < m.1)
    (hfuel : (trailing memberText ms).length < fuel) (rest : List Char) (place : Place) :
    Gives (members fuel depth false acc ⟨trailing memberText ms ++ '\x7d' :: rest, place⟩)
      ((rereadMembers depth ms).map (acc ++ ·)) ('\x7d' :: rest) := by
  induction ms generalizing fuel acc place with
  | nil =>
      obtain ⟨fuel, rfl⟩ := Nat.exists_eq_add_one_of_ne_zero (Nat.ne_zero_of_lt hfuel)
      rw [members, rereadMembers, Option.map_some, List.append_nil]
      exact gives_ok acc _ place
  | cons m ms ih =>
      obtain ⟨fuel, rfl⟩ := Nat.exists_eq_add_one_of_ne_zero (Nat.ne_zero_of_lt hfuel)
      have hlength : (trailing memberText (m :: ms)).length =
          (memberText m).length + 1 + (trailing memberText ms).length := by
        rw [trailing, List.flatMap_cons, List.length_append, List.length_cons]
        rfl
      have hvalue : m.2.text.toList.length ≤ (memberText m).length := by
        rw [memberText, List.length_append, List.length_cons]
        omega
      obtain ⟨hm, hms⟩ := List.pairwise_cons.1 hkeys
      refine gives_member (moreMembers_trailing m ms _ place) (hread m List.mem_cons_self fuel (by omega))
        (fun a ha => hacc a ha m List.mem_cons_self) fun v place => ?_
      refine ih (fun x hx => hread x (List.mem_cons_of_mem m hx)) hms ?_ (by omega) place
      intro a ha x hx
      rcases List.mem_append.1 ha with ha | ha
      · exact hacc a ha x (List.mem_cons_of_mem m hx)
      · obtain rfl := List.mem_singleton.1 ha
        exact hm x hx

/-- All members of an object are read, in their order. -/
theorem gives_members
    (hread : ∀ m ∈ ms, ∀ fuel, m.2.text.toList.length ≤ fuel →
      Reads (value fuel depth) m.2.text.toList (reread depth m.2))
    (hkeys : ms.Pairwise fun m m' => m.1 < m'.1)
    (hfuel : (separated memberText ms).length < fuel) (rest : List Char) (place : Place) :
    Gives (members fuel depth true [] ⟨separated memberText ms ++ '\x7d' :: rest, place⟩)
      (rereadMembers depth ms) ('\x7d' :: rest) := by
  obtain ⟨fuel, rfl⟩ := Nat.exists_eq_add_one_of_ne_zero (Nat.ne_zero_of_lt hfuel)
  cases ms with
  | nil =>
      rw [members, rereadMembers]
      exact gives_ok [] _ place
  | cons m ms =>
      have hlength : (separated memberText (m :: ms)).length =
          (memberText m).length + (trailing memberText ms).length := List.length_append
      have hvalue : m.2.text.toList.length < (memberText m).length := by
        rw [memberText, List.length_append, List.length_cons]
        omega
      obtain ⟨hm, hms⟩ := List.pairwise_cons.1 hkeys
      rw [separated, List.append_assoc]
      have hgives := gives_member (moreMembers_member m _ place) (hread m List.mem_cons_self fuel (by omega))
        (fun a ha => absurd ha List.not_mem_nil) fun v place =>
          gives_trailingMembers (fun x hx => hread x (List.mem_cons_of_mem m hx)) hms (by
            intro a ha x hx
            obtain rfl := List.mem_singleton.1 ha
            exact hm x hx) (by omega) rest place
      simpa using hgives

end Members

/-! ## All values -/

/-- The characters of a value. -/
def chars (v : Json) : List Char := v.text.toList

theorem toList_tailText (xs : List Json) : (tailText xs).toList = trailing chars xs := by
  induction xs with
  | nil => simp [tailText, trailing]
  | cons x xs ih => simp [tailText, trailing, ih, chars]

theorem toList_membersText (ms : List (String × Json)) :
    (membersText ms).toList = trailing memberText ms := by
  induction ms with
  | nil => simp [membersText, trailing]
  | cons m ms ih => simp [membersText, trailing, ih, memberText, toList_quote]

theorem chars_arr (xs : List Json) : chars (.arr xs) = '[' :: (separated chars xs ++ [']']) := by
  cases xs with
  | nil => simp [chars, text, separated]
  | cons x xs => simp [chars, text, separated, toList_tailText]

theorem chars_obj (ms : List (String × Json)) :
    chars (.obj ms) = '\x7b' :: (separated memberText ms ++ ['\x7d']) := by
  cases ms with
  | nil => simp [chars, text, separated]
  | cons m ms => simp [chars, text, separated, toList_membersText, memberText, toList_quote]

theorem begins_chars (v : Json) : Begins (chars v) := by
  cases v with
  | null => exact ⟨'n', "ull".toList, by simp [chars, text], rfl, by decide⟩
  | bool b =>
      cases b with
      | true => exact ⟨'t', "rue".toList, by simp [chars, text], rfl, by decide⟩
      | false => exact ⟨'f', "alse".toList, by simp [chars, text], rfl, by decide⟩
  | num n =>
      rcases text_num n with ⟨negative, w, hw, hn⟩ | hn
      · rw [chars, text, hn]
        exact begins_numeral hw negative
      · exact ⟨'n', "ull".toList, by simp [chars, text, hn], rfl, by decide⟩
  | str s => exact ⟨'"', _, toList_quote s, rfl, by decide⟩
  | arr xs => exact ⟨'[', _, chars_arr xs, rfl, by decide⟩
  | obj ms => exact ⟨'\x7b', _, chars_obj ms, rfl, by decide⟩

theorem exists_fuel {v : Json} {fuel : Nat} (h : (chars v).length ≤ fuel) :
    ∃ fuel', fuel = fuel' + 1 := by
  obtain ⟨c, r, hv, -, -⟩ := begins_chars v
  rw [hv, List.length_cons] at h
  exact Nat.exists_eq_add_one_of_ne_zero (Nat.ne_zero_of_lt h)

theorem readsItems_items (depth : Nat) :
    ReadsItems (fun fuel => items fuel depth) (fun fuel => value fuel depth) :=
  fun _ _ _ => rfl

theorem rereadAll_eq (depth : Nat) (xs : List Json) :
    rereadAll depth xs = xs.mapM (reread depth) := by
  induction xs with
  | nil => rfl
  | cons x xs ih => rw [rereadAll, ih, List.mapM_cons]

/-- What is read of the written form of a value. -/
theorem reads_value {v : Json} (h : Proper v) {fuel : Nat} (depth : Nat)
    (hfuel : (chars v).length ≤ fuel) : Reads (value fuel depth) (chars v) (reread depth v) := by
  induction h generalizing fuel depth with
  | null =>
      obtain ⟨fuel, rfl⟩ := exists_fuel hfuel
      exact reads_value_null fuel depth
  | bool b =>
      obtain ⟨fuel, rfl⟩ := exists_fuel hfuel
      exact reads_value_bool b fuel depth
  | int hlow hhigh =>
      obtain ⟨fuel, rfl⟩ := exists_fuel hfuel
      exact reads_value_num _ fuel depth
  | real x =>
      obtain ⟨fuel, rfl⟩ := exists_fuel hfuel
      exact reads_value_num _ fuel depth
  | str s =>
      obtain ⟨fuel, rfl⟩ := exists_fuel hfuel
      exact reads_value_str s fuel depth
  | @arr xs h ih =>
      obtain ⟨fuel, rfl⟩ := exists_fuel hfuel
      intro rest place hr
      rw [chars_arr, List.length_cons, List.length_append] at hfuel
      rw [chars_arr, List.cons_append, List.append_assoc, List.singleton_append, value,
        Cursor.skipBlanks_cons rfl, Cursor.peek?_cons, reread]
      dsimp only
      rw [if_pos rfl]
      split_ifs with hdepth
      · exact gives_error _ rest
      · rw [Cursor.advance_cons, rereadAll_eq, Option.map_eq_bind]
        refine (gives_separated (readsItems_items (depth - 1)) (fun x _ => begins_chars x)
          (fun x hx fuel hle => ih x hx (depth - 1) hle) (Nat.le_of_succ_le_succ hfuel) rest _).bind
            fun xs' place _ => ?_
        dsimp only
        rw [endList_bracket]
        exact gives_ok _ rest _
  | @obj ms hkeys h ih =>
      obtain ⟨fuel, rfl⟩ := exists_fuel hfuel
      intro rest place hr
      rw [chars_obj, List.length_cons, List.length_append] at hfuel
      rw [chars_obj, List.cons_append, List.append_assoc, List.singleton_append, value,
        Cursor.skipBlanks_cons rfl, Cursor.peek?_cons, reread]
      dsimp only
      rw [if_neg (by decide), if_pos rfl]
      split_ifs with hdepth
      · exact gives_error _ rest
      · rw [Cursor.advance_cons, Option.map_eq_bind]
        refine (gives_members (fun m hm fuel hle => ih m hm (depth - 1) hle) hkeys
          (Nat.le_of_succ_le_succ hfuel) rest _).bind fun ms' place _ => ?_
        dsimp only
        rw [endObject_brace]
        exact gives_ok _ rest _

/-! ## What is read back -/

/-- A double that is read back from its own text. -/
def Kept (x : Number.Double) : Prop := ofString? x.json = some (.num (.real x))

theorem rereadAll_eq_some_iff {depth : Nat} {xs : List Json} :
    rereadAll depth xs = some xs ↔ ∀ x ∈ xs, reread depth x = some x := by
  induction xs with
  | nil => simp [rereadAll]
  | cons x xs ih =>
      rw [rereadAll, List.forall_mem_cons, ← ih]
      cases reread depth x with
      | none => simp
      | some y => cases rereadAll depth xs <;> simp

theorem rereadMembers_eq_some_iff {depth : Nat} {ms : List (String × Json)} :
    rereadMembers depth ms = some ms ↔ ∀ m ∈ ms, reread depth m.2 = some m.2 := by
  induction ms with
  | nil => simp [rereadMembers]
  | cons m ms ih =>
      obtain ⟨k, v⟩ := m
      rw [rereadMembers, List.forall_mem_cons, ← ih]
      cases reread depth v with
      | none => simp
      | some y => cases rereadMembers depth ms <;> simp

theorem nestingAll_lt_iff {n : Nat} {xs : List Json} (h : 0 < n) :
    nestingAll xs < n ↔ ∀ x ∈ xs, nesting x < n := by
  induction xs with
  | nil => simpa [nestingAll] using h
  | cons x xs ih => rw [nestingAll, List.forall_mem_cons, Nat.max_lt, ih]

theorem nestingMembers_lt_iff {n : Nat} {ms : List (String × Json)} (h : 0 < n) :
    nestingMembers ms < n ↔ ∀ m ∈ ms, nesting m.2 < n := by
  induction ms with
  | nil => simpa [nestingMembers] using h
  | cons m ms ih => rw [nestingMembers, List.forall_mem_cons, Nat.max_lt, ih]

theorem mem_doublesAll_iff {d : Number.Double} {xs : List Json} :
    d ∈ doublesAll xs ↔ ∃ x ∈ xs, d ∈ doubles x := by
  induction xs with
  | nil => simp [doublesAll]
  | cons x xs ih => simp [doublesAll, ih]

theorem mem_doublesMembers_iff {d : Number.Double} {ms : List (String × Json)} :
    d ∈ doublesMembers ms ↔ ∃ m ∈ ms, d ∈ doubles m.2 := by
  induction ms with
  | nil => simp [doublesMembers]
  | cons m ms ih => simp [doublesMembers, ih]

/-- What depends on the nesting and the doubles of a value holds of some values if it does of the
nesting and the doubles of all of them. -/
theorem forall_parts_iff {γ : Type} (part : γ → Json) {P : γ → Prop} {Q : Number.Double → Prop}
    {ps : List γ} {depth : Nat}
    (h : ∀ p ∈ ps, P p ↔ nesting (part p) < depth ∧ ∀ x ∈ doubles (part p), Q x) :
    (∀ p ∈ ps, P p) ↔
      (∀ p ∈ ps, nesting (part p) < depth) ∧ ∀ x, (∃ p ∈ ps, x ∈ doubles (part p)) → Q x := by
  constructor
  · intro hall
    refine ⟨fun p hp => ((h p hp).1 (hall p hp)).1, ?_⟩
    rintro x ⟨p, hp, hx⟩
    exact ((h p hp).1 (hall p hp)).2 x hx
  · rintro ⟨hnesting, hdoubles⟩ p hp
    exact (h p hp).2 ⟨hnesting p hp, fun x hx => hdoubles x ⟨p, hp, hx⟩⟩

/-- A relation between a value and what reading makes of its written form, which fails where nothing
is read and holds of the value itself, passes from the doubles to every value that does not nest too
deep. -/
theorem reread_iff {P : Json → Option Json → Prop} {Q : Number.Double → Prop}
    (hnone : ∀ v, ¬P v none) (hsome : ∀ v, P v (some v))
    (hreal : ∀ x : Number.Double, P (.num (.real x)) (ofString? x.json) ↔ Q x)
    (harr : ∀ depth xs,
      P (.arr xs) ((rereadAll depth xs).map .arr) ↔ ∀ x ∈ xs, P x (reread depth x))
    (hobj : ∀ depth ms,
      P (.obj ms) ((rereadMembers depth ms).map .obj) ↔ ∀ m ∈ ms, P m.2 (reread depth m.2))
    {v : Json} (h : Proper v) {depth : Nat} (hdepth : 0 < depth) :
    P v (reread depth v) ↔ nesting v < depth ∧ ∀ x ∈ doubles v, Q x := by
  induction h generalizing depth with
  | null => simp [reread, nesting, doubles, hdepth, hsome]
  | bool b => simp [reread, nesting, doubles, hdepth, hsome]
  | int hlow hhigh => simp [reread, ofString?_int hlow hhigh, nesting, doubles, hdepth, hsome]
  | real x => simp [reread, nesting, doubles, hdepth, Num.text, hreal]
  | str s => simp [reread, nesting, doubles, hdepth, hsome]
  | @arr xs h ih =>
      rw [reread, nesting, doubles]
      split_ifs with hlimit
      · simpa [hnone] using fun hnest => absurd hnest (by omega)
      · have hpos : 0 < depth - 1 := by omega
        have hnest : nestingAll xs + 1 < depth ↔ nestingAll xs < depth - 1 := by omega
        rw [harr, hnest, nestingAll_lt_iff hpos,
          forall_parts_iff (fun x => x) fun x hx => ih x hx hpos]
        simp only [mem_doublesAll_iff]
  | @obj ms hkeys h ih =>
      rw [reread, nesting, doubles]
      split_ifs with hlimit
      · simpa [hnone] using fun hnest => absurd hnest (by omega)
      · have hpos : 0 < depth - 1 := by omega
        have hnest : nestingMembers ms + 1 < depth ↔ nestingMembers ms < depth - 1 := by omega
        rw [hobj, hnest, nestingMembers_lt_iff hpos,
          forall_parts_iff Prod.snd fun m hm => ih m hm hpos]
        simp only [mem_doublesMembers_iff]

/-- A value is read back if it does not nest too deep and all its doubles are, and only then. -/
theorem reread_eq_some_iff {v : Json} (h : Proper v) {depth : Nat} (hdepth : 0 < depth) :
    reread depth v = some v ↔ nesting v < depth ∧ ∀ x ∈ doubles v, Kept x := by
  refine reread_iff (P := fun v read => read = some v) (by simp) (by simp) (fun _ => Iff.rfl)
    (fun depth xs => ?_) (fun depth ms => ?_) h hdepth
  · rw [← rereadAll_eq_some_iff]
    cases rereadAll depth xs <;> simp
  · rw [← rereadMembers_eq_some_iff]
    cases rereadMembers depth ms <;> simp

end SqlGate.Json
