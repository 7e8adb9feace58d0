import Mathlib.Data.List.Nodup
import SqlGate.Document
import SqlGate.Proofs.Except
import SqlGate.Proofs.QueryResult.Columns

/-!
# Records, their schemas and their fields

## What a schema says of a value

A schema is itself an object. It can name the type of a value, list the members that an object must
have, give the values of members schemas of their own, and close the object to others. `Json.Valid`
says when a value keeps to it.
-/

namespace SqlGate

namespace Json

/-- The type of a value as schemas name it, integers not being told from other numbers. -/
def typeName : Json → String
  | .null => "null"
  | .bool _ => "boolean"
  | .num _ => "number"
  | .str _ => "string"
  | .arr _ => "array"
  | .obj _ => "object"

/-- The text that a value is. -/
def text? : Json → Option String
  | .str s => some s
  | _ => none

/-- The members that a schema describes, each with its own schema. -/
def properties (schema : Json) : List (String × Json) :=
  match schema.get? "properties" with
  | some (.obj ps) => ps
  | _ => []

/-- What a schema says of a value: its type, which members an object must have, what the values of
members are, and whether there are no others. -/
inductive Valid : Json → Json → Prop where
  | mk {schema v : Json}
    (type : ∀ name, schema.get? "type" = some (.str name) → v.typeName = name)
    (required : ∀ names ms, schema.get? "required" = some (.arr names) → v = .obj ms →
      ∀ k, .str k ∈ names → (ms.lookup k).isSome)
    (described : ∀ ms k s x, v = .obj ms → schema.properties.lookup k = some s →
      ms.lookup k = some x → Valid s x)
    (closed : ∀ ms, schema.get? "additionalProperties" = some (.bool false) → v = .obj ms →
      ∀ m ∈ ms, (schema.properties.lookup m.1).isSome) : Valid schema v

variable {k : String} {v : Json} {ms : List (String × Json)}

theorem typeName_eq_object_iff : v.typeName = "object" ↔ ∃ ms, v = .obj ms := by
  cases v <;> simp [typeName]

theorem typeName_eq_string_iff : v.typeName = "string" ↔ ∃ s, v = .str s := by
  cases v <;> simp [typeName]

theorem nodup_keys (h : ms.Pairwise fun m m' => m.1 < m'.1) : (ms.map Prod.fst).Nodup :=
  List.pairwise_map.2 (h.imp fun hlt => String.ne_of_lt hlt)

theorem isSome_lookup_iff : (ms.lookup k).isSome ↔ k ∈ ms.map Prod.fst := by
  induction ms with
  | nil => simp
  | cons m ms ih =>
      rw [lookup_cons_eq_ite, List.map_cons, List.mem_cons, ← ih]
      split_ifs with hk <;> simp [hk]

/-- What is found under a key of which there is one is the member with it. -/
theorem lookup_eq_some_iff_mem (h : (ms.map Prod.fst).Nodup) :
    ms.lookup k = some v ↔ (k, v) ∈ ms := by
  induction ms with
  | nil => simp
  | cons m ms ih =>
      obtain ⟨k', v'⟩ := m
      obtain ⟨hnot, hnodup⟩ := List.nodup_cons.1 h
      rw [lookup_cons_eq_ite, List.mem_cons, ← ih hnodup, Prod.mk.injEq]
      by_cases hk : k = k'
      · have hne : ms.lookup k ≠ some v := fun hv =>
          hnot (hk ▸ isSome_lookup_iff.1 (Option.isSome_of_eq_some hv))
        rw [if_pos hk, Option.some.injEq, or_iff_left hne, and_iff_right hk, eq_comm]
      · rw [if_neg hk, or_iff_right fun hboth => hk hboth.1]

/-- An object has the members that it was made of. -/
theorem get?_object (k : String) (h : (ms.map Prod.fst).Nodup) :
    (object ms).get? k = ms.lookup k := by
  have hfold := @QueryResult.lookup_foldl_insert k ms []
  rw [List.lookup_nil, Option.or_none] at hfold
  refine hfold.trans (Option.ext fun v => ?_)
  have hreverse : (ms.reverse.map Prod.fst).Nodup := by
    rw [List.map_reverse]
    exact List.nodup_reverse.2 h
  rw [lookup_eq_some_iff_mem hreverse, lookup_eq_some_iff_mem h, List.mem_reverse]

end Json

end SqlGate

/-!
## Reading the fields of a record

A field is `Sound` if it takes a text, or null where it may be left out, and sets its own part of
the record to that. What a closed record with sound fields is read from can be said of its members
one by one (`exists_readMembers_iff`), and so can what it then holds (`value?_readMembers`). The
items of a list are read as members with the names of the fields in their order
(`readItems_eq_ok_iff`).
-/

namespace SqlGate.Document

open Json

variable {σ : Type} {value? : σ → String → Option String} {fields : List (Field σ)} {r r' : σ}
  {k : String} {ms : List (String × Json)}

/-- What a field takes: a text, or null where it may be left out. -/
def Suits (isRequired : Bool) (v : Json) : Prop :=
  (∃ s, v = .str s) ∨ isRequired = false ∧ v = .null

/-- A field that takes what suits it and sets its own part of the record to it. -/
structure Sound (value? : σ → String → Option String) (f : Field σ) : Prop where
  takes : ∀ v r, (∃ r', f.read (.ofJson v) r = .ok r') ↔ Suits f.isRequired v
  sets : ∀ v r r', f.read (.ofJson v) r = .ok r' →
    ∀ k, value? r' k = if k = f.name then v.text? else value? r k

/-- The values of a record over which some members were read. -/
def overlaid (ms : List (String × Json)) (value? : String → Option String) (k : String) :
    Option String :=
  (ms.lookup k).elim (value? k) text?

theorem readMembers_nil_eq_ok_iff {seen : List String} :
    readMembers true fields seen [] r = .ok r' ↔
      (∀ f ∈ fields, f.isRequired → f.name ∈ seen) ∧ r' = r := by
  rw [readMembers]
  cases hfind : fields.find? fun f => f.isRequired && !seen.contains f.name with
  | none =>
      rw [List.find?_eq_none] at hfind
      rw [and_iff_right (by simpa using hfind), Except.ok.injEq, eq_comm]
  | some f =>
      have hf := List.find?_some hfind
      simp only [Bool.and_eq_true, Bool.not_eq_true', List.contains_eq_mem,
        decide_eq_false_iff_not] at hf
      exact ⟨nofun, fun h => absurd (h.1 f (List.mem_of_find?_eq_some hfind) hf.1) hf.2⟩

theorem readMembers_cons_eq_ok_iff {seen : List String} {d : Document}
    {ds : List (String × Document)} :
    readMembers true fields seen ((k, d) :: ds) r = .ok r' ↔
      k ∉ seen ∧ ∃ f, fields.find? (·.name = k) = some f ∧ ∃ r₁, f.read d r = .ok r₁ ∧
        readMembers true fields (k :: seen) ds r₁ = .ok r' := by
  rw [readMembers]
  cases hfind : fields.find? (·.name = k) with
  | none => simp
  | some f =>
      by_cases hk : k ∈ seen
      · simp [hk]
      · simp [hk, bind_eq_ok_iff]

/-- Of things with different names, the one found by its name is the one that has it. -/
theorem find?_eq_some_iff_of_nodup {α : Type} {name : α → String} {as : List α} {a : α}
    (h : (as.map name).Nodup) : as.find? (name · = k) = some a ↔ a ∈ as ∧ name a = k := by
  constructor
  · intro hfind
    exact ⟨List.mem_of_find?_eq_some hfind, by simpa using List.find?_some hfind⟩
  · rintro ⟨ha, rfl⟩
    obtain ⟨b, hb⟩ := Option.isSome_iff_exists.1
      (List.find?_isSome.2 ⟨a, ha, decide_eq_true rfl⟩ : (as.find? (name · = name a)).isSome)
    have hname : name b = name a := by simpa using List.find?_some hb
    rw [hb, List.inj_on_of_nodup_map h (List.mem_of_find?_eq_some hb) ha hname]

/-- The members of a record can be read if no two of them have one name, each is for a field that it
suits, and no field that must be given is left out. -/
theorem exists_readMembers_iff (hsound : ∀ f ∈ fields, Sound value? f) (seen : List String) :
    (∃ r', readMembers true fields seen (ofJson.ofMembers ms) r = .ok r') ↔
      (∀ m ∈ ms, m.1 ∉ seen ∧ ∃ f, fields.find? (·.name = m.1) = some f ∧ Suits f.isRequired m.2) ∧
      (ms.map Prod.fst).Nodup ∧
      ∀ f ∈ fields, f.isRequired → f.name ∈ seen ∨ f.name ∈ ms.map Prod.fst := by
  induction ms generalizing seen r with
  | nil => simp [ofJson.ofMembers, readMembers_nil_eq_ok_iff]
  | cons m ms ih =>
      obtain ⟨k, v⟩ := m
      have hneeded_iff (f : Field σ) :
          (f.name ∈ seen ∨ f.name ∈ k :: ms.map Prod.fst) ↔
            (f.name ∈ k :: seen ∨ f.name ∈ ms.map Prod.fst) := by
        rw [List.mem_cons, List.mem_cons, or_left_comm, or_assoc]
      rw [List.forall_mem_cons, List.map_cons, List.nodup_cons]
      simp only [ofJson.ofMembers, readMembers_cons_eq_ok_iff, hneeded_iff]
      constructor
      · rintro ⟨r', hk, f, hfind, r₁, hread, hrest⟩
        have hf := hsound f (List.mem_of_find?_eq_some hfind)
        obtain ⟨hms, hnodup, hneeded⟩ := (ih (k :: seen)).1 ⟨r', hrest⟩
        refine ⟨⟨⟨hk, f, hfind, (hf.takes v r).1 ⟨r₁, hread⟩⟩, fun m hm => ?_⟩,
          ⟨fun hkms => ?_, hnodup⟩, hneeded⟩
        · exact ⟨fun hseen => (hms m hm).1 (List.mem_cons_of_mem k hseen), (hms m hm).2⟩
        · obtain ⟨m, hm, rfl⟩ := List.mem_map.1 hkms
          exact (hms m hm).1 List.mem_cons_self
      · rintro ⟨⟨⟨hk, f, hfind, hsuits⟩, hms⟩, ⟨hkms, hnodup⟩, hneeded⟩
        have hf := hsound f (List.mem_of_find?_eq_some hfind)
        obtain ⟨r₁, hread⟩ := (hf.takes v r).2 hsuits
        have hnew (m) (hm : m ∈ ms) : m.1 ∉ k :: seen := by
          rw [List.mem_cons, not_or]
          exact ⟨fun heq => hkms (heq ▸ List.mem_map_of_mem hm), (hms m hm).1⟩
        obtain ⟨r', hrest⟩ := (ih (k :: seen)).2
          ⟨fun m hm => ⟨hnew m hm, (hms m hm).2⟩, hnodup, hneeded⟩
        exact ⟨r', hk, f, hfind, r₁, hread, hrest⟩

theorem value?_readMembers (hsound : ∀ f ∈ fields, Sound value? f) {seen : List String}
    (h : readMembers true fields seen (ofJson.ofMembers ms) r = .ok r') :
    value? r' = overlaid ms (value? r) := by
  induction ms generalizing seen r with
  | nil =>
      obtain ⟨-, rfl⟩ := readMembers_nil_eq_ok_iff.1 h
      rfl
  | cons m ms ih =>
      obtain ⟨k, v⟩ := m
      have hnew := ((exists_readMembers_iff hsound seen).1 ⟨r', h⟩).2.1
      obtain ⟨-, f, hfind, r₁, hread, hrest⟩ := readMembers_cons_eq_ok_iff.1 h
      have hname : f.name = k := by simpa using List.find?_some hfind
      have hsets := (hsound f (List.mem_of_find?_eq_some hfind)).sets v r r₁ hread
      funext k'
      rw [ih hrest, overlaid, overlaid, lookup_cons_eq_ite]
      by_cases hk' : k' = k
      · have hnone : ms.lookup k' = none :=
          Option.not_isSome_iff_eq_none.1 fun hsome =>
            (List.nodup_cons.1 hnew).1 (hk' ▸ isSome_lookup_iff.1 hsome)
        rw [if_pos hk', hnone, Option.elim_none, hsets, hname, if_pos hk', Option.elim_some]
      · rw [if_neg hk', hsets, hname, if_neg hk']

theorem readItems_nil_eq_ok_iff {what : String} {n : Nat} :
    readItems what n fields [] r = .ok r' ↔
      (∀ f ∈ fields, f.isRequired = false) ∧ r' = r := by
  induction fields generalizing n with
  | nil =>
      rw [readItems, and_iff_right (List.forall_mem_nil _), Except.ok.injEq, eq_comm]
  | cons f fields ih =>
      rw [readItems, List.forall_mem_cons]
      cases f.isRequired with
      | true => simp
      | false => simp [ih]

/-- Items are read as members with the names of the fields in their order, `done` being the fields
that are read already. -/
theorem readItems_eq_ok_iff {what : String} {n : Nat} {xs : List Json}
    {done : List (Field σ)} {seen : List String}
    (hnodup : ((done ++ fields).map Field.name).Nodup)
    (hseen : ∀ k, k ∈ seen ↔ k ∈ done.map Field.name) :
    readItems what n fields (ofJson.ofItems xs) r = .ok r' ↔
      xs.length ≤ fields.length ∧ readMembers true (done ++ fields) seen
        (ofJson.ofMembers ((fields.map Field.name).zip xs)) r = .ok r' := by
  induction xs generalizing fields done seen r n with
  | nil =>
      rw [List.map_append, List.nodup_append] at hnodup
      rw [List.zip_nil_right, ofJson.ofItems, ofJson.ofMembers,
        readItems_nil_eq_ok_iff, readMembers_nil_eq_ok_iff, List.length_nil,
        and_iff_right (Nat.zero_le _)]
      refine and_congr_left fun _ => ⟨fun h f hf hneeded => ?_, fun h f hf => ?_⟩
      · rcases List.mem_append.1 hf with hf | hf
        · exact (hseen _).2 (List.mem_map_of_mem hf)
        · cases (h f hf).symm.trans hneeded
      · by_contra hneeded
        have hdone := (hseen _).1 (h f (List.mem_append_right _ hf) (by simpa using hneeded))
        exact hnodup.2.2 f.name hdone f.name (List.mem_map_of_mem hf) rfl
  | cons x xs ih =>
      cases fields with
      | nil => simp [ofJson.ofItems, readItems]
      | cons f fields =>
          have hmem : f ∈ done ++ f :: fields :=
            List.mem_append_right _ List.mem_cons_self
          have hnew : f.name ∉ seen := fun hf =>
            (List.nodup_append.1 (List.map_append ▸ hnodup)).2.2 f.name ((hseen _).1 hf) f.name
              List.mem_cons_self rfl
          have hsplit : done ++ f :: fields = (done ++ [f]) ++ fields := by
            rw [List.append_assoc, List.singleton_append]
          have hrest (r₁ : σ) := @ih fields r₁ (n + 1) (done ++ [f]) (f.name :: seen)
            (hsplit ▸ hnodup) (fun k => by simp [hseen, or_comm])
          simp only [ofJson.ofItems, readItems, bind_eq_ok_iff, List.map_cons,
            List.zip_cons_cons, ofJson.ofMembers, readMembers_cons_eq_ok_iff,
            find?_eq_some_iff_of_nodup hnodup, hrest, List.length_cons, Nat.add_le_add_iff_right,
            ← hsplit]
          constructor
          · rintro ⟨r₁, hread, hlen, hmembers⟩
            exact ⟨hlen, hnew, f, ⟨hmem, rfl⟩, r₁, hread, hmembers⟩
          · rintro ⟨hlen, -, g, ⟨hg, hname⟩, r₁, hread, hmembers⟩
            obtain rfl := List.inj_on_of_nodup_map hnodup hg hmem hname
            exact ⟨r₁, hread, hlen, hmembers⟩

/-- A field that must be given, and takes a text. -/
theorem sound_string {name : String} {set : String → σ → σ}
    (h : ∀ s r k, value? (set s r) k = if k = name then some s else value? r k) :
    Sound value? (.of name true string set) where
  takes v r := by
    cases v <;> simp [Suits, Field.of, ofJson, string,
      mismatch]
  sets v r r' hread k := by
    cases v with
    | str s =>
        cases hread
        exact h s r k
    | _ => cases hread

/-- A field that may be left out, and takes a text or null. -/
theorem sound_optional {name : String} {set : Option String → σ → σ}
    (h : ∀ s r k, value? (set s r) k = if k = name then s else value? r k) :
    Sound value? (.of name false (optional string) set) where
  takes v r := by
    cases v <;> simp [Suits, Field.of, ofJson, string,
      mismatch, optional, isNothing]
  sets v r r' hread k := by
    cases v with
    | null =>
        cases hread
        exact h none r k
    | str s =>
        cases hread
        exact h (some s) r k
    | _ => cases hread

end SqlGate.Document
