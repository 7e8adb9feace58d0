import SqlGate.Proofs.Document.Fields
import SqlGate.Tool.Definition

/-!
# Arguments and their schemas

Every tool is published with a schema of its arguments (`Published`). Arguments that are valid make
a call of the tool which has just their values. The reading of them is more lenient than the
schemas: the items of an array stand for the arguments in their order, and null stands for an
argument that may be left out. With these two put right (`StandsFor`, `Name.present`), what makes a
call is valid, and all else is refused (`ofParams_valid`).
-/

namespace SqlGate.Tool

open Json

variable {t : Name} {k : String} {v : Json} {ms : List (String × Json)}

/-! ## The published schemas -/

/-- The name and the schema of a tool that is published. -/
def Published (name : String) (schema : Json) : Prop :=
  ∃ ds, definitions = .arr ds ∧
    ∃ d ∈ ds, d.get? "name" = some (.str name) ∧ d.get? "inputSchema" = some schema

theorem get?_definition (t : Name) (k : String) : t.definition.get? k =
    List.lookup k [("name", .str t.text), ("description", .str t.description),
      ("inputSchema", t.inputSchema)] :=
  get?_object k (by decide : ["name", "description", "inputSchema"].Nodup)

theorem mem_all (t : Name) : t ∈ Name.all := by
  cases t <;> decide

theorem published_iff {name : String} {schema : Json} :
    Published name schema ↔ ∃ t : Name, name = t.text ∧ schema = t.inputSchema := by
  constructor
  · rintro ⟨ds, hds, d, hd, hname, hschema⟩
    obtain rfl := Json.arr.inj hds
    obtain ⟨t, -, rfl⟩ := List.mem_map.1 hd
    rw [get?_definition] at hname hschema
    exact ⟨t, (Json.str.inj (Option.some.inj hname)).symm, (Option.some.inj hschema).symm⟩
  · rintro ⟨t, rfl, rfl⟩
    exact ⟨_, rfl, t.definition, List.mem_map_of_mem (mem_all t), get?_definition t _,
      get?_definition t _⟩

theorem nodup_arguments (t : Name) : (t.arguments.map Argument.name).Nodup := by
  cases t <;> decide

theorem get?_schema (a : Argument) (k : String) : a.schema.get? k =
    List.lookup k (("type", .str "string") ::
      a.description.toList.map fun s => ("description", .str s)) := by
  refine get?_object k ?_
  cases a.description with
  | none => exact (by decide : ["type"].Nodup)
  | some s => exact (by decide : ["type", "description"].Nodup)

/-- An argument is a text. -/
theorem valid_schema_iff (a : Argument) : Valid a.schema v ↔ ∃ s, v = .str s := by
  constructor
  · rintro ⟨htype, -, -, -⟩
    exact typeName_eq_string_iff.1 (htype "string" (get?_schema a "type"))
  · rintro ⟨s, rfl⟩
    refine ⟨fun name hname => ?_, nofun, nofun, nofun⟩
    rw [get?_schema] at hname
    exact Json.str.inj (Option.some.inj hname)

/-- The names of the arguments that must be given. -/
def Name.required (t : Name) : List Json :=
  (t.arguments.filter (·.isRequired)).map fun a => .str a.name

theorem get?_inputSchema (t : Name) (k : String) :
    t.inputSchema.get? k = List.lookup k ([("type", .str "object"),
      ("properties", object (t.arguments.map fun a => (a.name, a.schema))),
      ("additionalProperties", .bool false)] ++
        if t.required.isEmpty then [] else [("required", .arr t.required)]) := by
  refine get?_object k ?_
  change (List.map Prod.fst (_ ++ if t.required.isEmpty then [] else _)).Nodup
  cases t.required.isEmpty with
  | true => exact (by decide : ["type", "properties", "additionalProperties"].Nodup)
  | false => exact (by decide : ["type", "properties", "additionalProperties", "required"].Nodup)

/-- Each argument is described by its schema, and nothing else is described. -/
theorem lookup_properties (t : Name) : t.inputSchema.properties.lookup k = some v ↔
    ∃ a ∈ t.arguments, a.name = k ∧ a.schema = v := by
  have hkeys : ((t.arguments.map fun a => (a.name, a.schema)).map Prod.fst).Nodup := by
    rw [List.map_map]
    exact nodup_arguments t
  have hproperties : t.inputSchema.properties.lookup k =
      (t.arguments.map fun a => (a.name, a.schema)).lookup k := by
    rw [← get?_object k hkeys, properties, get?_inputSchema]
    rfl
  rw [hproperties, lookup_eq_some_iff_mem hkeys]
  simp

theorem mem_required {k : String} :
    .str k ∈ t.required ↔ ∃ a ∈ t.arguments, a.isRequired ∧ a.name = k := by
  simp [Name.required, and_assoc]

theorem get?_required {names : List Json} :
    t.inputSchema.get? "required" = some (.arr names) ↔ names = t.required ∧ t.required ≠ [] := by
  rw [get?_inputSchema]
  cases hrequired : t.required with
  | nil => exact ⟨nofun, fun h => absurd rfl h.2⟩
  | cons k ks =>
      rw [and_iff_left (List.cons_ne_nil k ks)]
      exact ⟨fun h => (Json.arr.inj (Option.some.inj h)).symm, fun h => by rw [h]; rfl⟩

/-- What a tool is said to take: an object that has all arguments that must be given and no others
than its arguments, all of them texts. -/
theorem valid_inputSchema_iff : Valid t.inputSchema v ↔
    ∃ ms, v = .obj ms ∧ (∀ a ∈ t.arguments, a.isRequired → a.name ∈ ms.map Prod.fst) ∧
      (∀ m ∈ ms, ∃ a ∈ t.arguments, a.name = m.1) ∧
      ∀ a ∈ t.arguments, ∀ x, ms.lookup a.name = some x → ∃ s, x = .str s := by
  constructor
  · rintro ⟨htype, hrequired, hdescribed, hclosed⟩
    obtain ⟨ms, rfl⟩ := typeName_eq_object_iff.1 (htype "object" (get?_inputSchema t "type"))
    refine ⟨ms, rfl, fun a ha hneeded => ?_, fun m hm => ?_, fun a ha x hx => ?_⟩
    · have hname : .str a.name ∈ t.required := mem_required.2 ⟨a, ha, hneeded, rfl⟩
      exact isSome_lookup_iff.1 (hrequired t.required ms
        (get?_required.2 ⟨rfl, List.ne_nil_of_mem hname⟩) rfl a.name hname)
    · obtain ⟨schema, hschema⟩ := Option.isSome_iff_exists.1
        (hclosed ms (get?_inputSchema t "additionalProperties") rfl m hm)
      obtain ⟨a, ha, hname, -⟩ := (lookup_properties t).1 hschema
      exact ⟨a, ha, hname⟩
    · exact (valid_schema_iff a).1
        (hdescribed ms a.name a.schema x rfl ((lookup_properties t).2 ⟨a, ha, rfl, rfl⟩) hx)
  · rintro ⟨ms, rfl, hrequired, hknown, htext⟩
    refine ⟨fun name hname => ?_, ?_, ?_, ?_⟩
    · rw [get?_inputSchema] at hname
      exact Json.str.inj (Option.some.inj hname)
    · rintro names _ hnames ⟨⟩ k hk
      obtain ⟨rfl, -⟩ := get?_required.1 hnames
      obtain ⟨a, ha, hneeded, rfl⟩ := mem_required.1 hk
      exact isSome_lookup_iff.2 (hrequired a ha hneeded)
    · rintro _ k s x ⟨⟩ hs hx
      obtain ⟨a, ha, rfl, rfl⟩ := (lookup_properties t).1 hs
      exact (valid_schema_iff a).2 (htext a ha x hx)
    · rintro _ - ⟨⟩ m hm
      obtain ⟨a, ha, hname⟩ := hknown m hm
      exact Option.isSome_of_eq_some ((lookup_properties t).2 ⟨a, ha, hname, rfl⟩)

/-! ## What is read as the arguments of a tool -/

/-- The members that some arguments stand for: those of an object, or the items of an array under
the names of the arguments in their order. -/
inductive StandsFor (t : Name) : Json → List (String × Json) → Prop where
  | named (ms : List (String × Json)) : StandsFor t (.obj ms) ms
  | positional {xs : List Json} (h : xs.length ≤ t.arguments.length) :
    StandsFor t (.arr xs) ((t.arguments.map Argument.name).zip xs)

/-- Members that a tool takes. -/
structure Taken (t : Name) (ms : List (String × Json)) : Prop where
  nodup : (ms.map Prod.fst).Nodup
  known : ∀ m ∈ ms, ∃ a ∈ t.arguments, a.name = m.1 ∧ Document.Suits a.isRequired m.2
  required : ∀ a ∈ t.arguments, a.isRequired → a.name ∈ ms.map Prod.fst

/-- The value that a call has for an argument. -/
def Call.value? : Call → String → Option String
  | executeSql sql, k => if k = "sql" then some sql else none
  | listTables schema, k => if k = "schema" then schema else none
  | describeTable table schema, k =>
    if k = "table" then some table else if k = "schema" then schema else none

/-- A call is settled by its tool and the values that it has. -/
theorem Call.eq_of_value? {c c' : Call} (hname : c.name = c'.name) (h : c.value? = c'.value?) :
    c = c' := by
  cases c <;> cases c' <;> cases hname
  · simpa [Call.value?] using congrFun h "sql"
  · simpa [Call.value?] using congrFun h "schema"
  · exact Call.describeTable.injEq .. |>.mpr
      ⟨by simpa [Call.value?] using congrFun h "table",
        by simpa [Call.value?] using congrFun h "schema"⟩

section Making

variable {σ : Type} {make : σ → Call} {fields : List (Document.Field σ)} {empty : σ}

/-- Fields that are those of a tool, in a record that a call of it is made of. -/
structure Makes (t : Name) (make : σ → Call) (fields : List (Document.Field σ)) (empty : σ) :
    Prop where
  names : fields.map (fun f => (f.name, f.isRequired)) =
    t.arguments.map fun a => (a.name, a.isRequired)
  sound : ∀ f ∈ fields, Document.Sound (fun r => (make r).value?) f
  empty : ∀ k, ((make empty).value? k).isSome → ∃ a ∈ t.arguments, a.isRequired ∧ a.name = k
  name_eq : ∀ r, (make r).name = t

theorem Makes.map_name (h : Makes t make fields empty) :
    fields.map Document.Field.name = t.arguments.map Argument.name := by
  simpa [Function.comp_def] using congrArg (List.map Prod.fst) h.names

theorem Makes.exists_iff (h : Makes t make fields empty) (P : String → Bool → Prop) :
    (∃ f ∈ fields, P f.name f.isRequired) ↔ ∃ a ∈ t.arguments, P a.name a.isRequired := by
  simpa using congrArg (fun l : List (String × Bool) => ∃ x ∈ l, P x.1 x.2) h.names

theorem Makes.forall_iff (h : Makes t make fields empty) (P : String → Bool → Prop) :
    (∀ f ∈ fields, P f.name f.isRequired) ↔ ∀ a ∈ t.arguments, P a.name a.isRequired := by
  simpa using congrArg (fun l : List (String × Bool) => ∀ x ∈ l, P x.1 x.2) h.names

theorem Makes.exists_readMembers_iff (h : Makes t make fields empty) :
    (∃ r, Document.readMembers true fields [] (Document.ofJson.ofMembers ms) empty = .ok r) ↔
      Taken t ms := by
  have hnodup : (fields.map Document.Field.name).Nodup := h.map_name ▸ nodup_arguments t
  have hknown (m : String × Json) :
      (∃ f, fields.find? (·.name = m.1) = some f ∧ Document.Suits f.isRequired m.2) ↔
        ∃ a ∈ t.arguments, a.name = m.1 ∧ Document.Suits a.isRequired m.2 := by
    rw [← h.exists_iff fun name isRequired => name = m.1 ∧ Document.Suits isRequired m.2]
    simp only [Document.find?_eq_some_iff_of_nodup hnodup, and_assoc]
  rw [Document.exists_readMembers_iff h.sound,
    h.forall_iff fun name isRequired => isRequired = true → name ∈ [] ∨ name ∈ ms.map Prod.fst]
  simp only [hknown, List.not_mem_nil, not_false_eq_true, true_and, false_or]
  exact ⟨fun ⟨hms, hkeys, hrequired⟩ => ⟨hkeys, hms, hrequired⟩,
    fun htaken => ⟨htaken.known, htaken.nodup, htaken.required⟩⟩

theorem Makes.value?_eq (h : Makes t make fields empty) {r : σ}
    (hread : Document.readMembers true fields [] (Document.ofJson.ofMembers ms) empty = .ok r) :
    (make r).value? = fun k => (ms.lookup k).bind text? := by
  have hoverlaid : (make r).value? = Document.overlaid ms (make empty).value? :=
    @Document.value?_readMembers σ (fun r => (make r).value?) _ _ _ _ h.sound _ hread
  funext k
  rw [hoverlaid, Document.overlaid]
  cases hk : ms.lookup k with
  | some v => rfl
  | none =>
      rw [Option.elim_none, Option.bind_none, ← Option.not_isSome_iff_eq_none]
      intro hsome
      obtain ⟨a, ha, hneeded, rfl⟩ := h.empty k hsome
      have hgiven := (h.exists_readMembers_iff.1 ⟨r, hread⟩).required a ha hneeded
      rw [← isSome_lookup_iff, hk] at hgiven
      cases hgiven

theorem Makes.closedStruct_eq_ok_iff (h : Makes t make fields empty) (name : String) {r : σ} :
    Document.closedStruct name fields empty (.ofJson v) = .ok r ↔ ∃ ms, StandsFor t v ms ∧
      Document.readMembers true fields [] (Document.ofJson.ofMembers ms) empty = .ok r := by
  have hlength : fields.length = t.arguments.length := by
    simpa using congrArg List.length h.names
  cases v with
  | obj ms =>
      refine ⟨fun hread => ⟨ms, .named ms, hread⟩, ?_⟩
      rintro ⟨_, ⟨⟩, hread⟩
      exact hread
  | arr xs =>
      have hitems {what : String} := @Document.readItems_eq_ok_iff σ fields empty r what 0 xs [] []
        (h.map_name ▸ nodup_arguments t) (fun k => Iff.rfl)
      rw [h.map_name, hlength] at hitems
      constructor
      · intro hread
        obtain ⟨hlen, hmembers⟩ := hitems.1 hread
        exact ⟨_, .positional hlen, hmembers⟩
      · rintro ⟨_, ⟨⟩ | ⟨hlen⟩, hmembers⟩
        exact hitems.2 ⟨hlen, hmembers⟩
  | _ => exact ⟨nofun, fun ⟨_, hstands, _⟩ => nomatch hstands⟩

end Making

/-- The arguments of a tool are read into a record, and a call is made of it. -/
theorem exists_makes (t : Name) : ∃ (σ : Type) (make : σ → Call)
    (fields : List (Document.Field σ)) (empty : σ) (name : String), Makes t make fields empty ∧
      arguments t = fun d => do return make (← Document.closedStruct name fields empty d) := by
  cases t with
  | executeSql =>
      refine ⟨String, .executeSql, _, _, _, ⟨rfl, ?_, fun k hk => ?_, fun _ => rfl⟩, rfl⟩
      · refine List.forall_mem_singleton.2 (Document.sound_string fun s r k => ?_)
        simp only [Call.value?]
        split_ifs <;> rfl
      · refine ⟨_, List.mem_cons_self, rfl, ?_⟩
        by_contra hne
        simp [Call.value?, Ne.symm hne] at hk
  | listTables =>
      refine ⟨Option String, .listTables, _, _, _, ⟨rfl, ?_, fun k hk => ?_, fun _ => rfl⟩, rfl⟩
      · refine List.forall_mem_singleton.2 (Document.sound_optional fun s r k => ?_)
        simp only [Call.value?]
        split_ifs <;> rfl
      · simp [Call.value?] at hk
  | describeTable =>
      refine ⟨String × Option String, fun r => .describeTable r.1 r.2, _, _, _,
        ⟨rfl, ?_, fun k hk => ?_, fun _ => rfl⟩, rfl⟩
      · refine List.forall_mem_cons.2 ⟨Document.sound_string fun s r k => ?_,
          List.forall_mem_singleton.2 (Document.sound_optional fun s r k => ?_)⟩
        · simp only [Call.value?]
          split_ifs <;> rfl
        · by_cases hk : k = "table"
          · simp [Call.value?, hk]
          · simp only [Call.value?, if_neg hk]
            split_ifs <;> rfl
      · refine ⟨_, List.mem_cons_self, rfl, ?_⟩
        by_contra hne
        simp [Call.value?, Ne.symm hne] at hk

/-- There is a call with the values of members that a tool takes. -/
theorem exists_call_of_taken (h : Taken t ms) :
    ∃ c : Call, c.name = t ∧ c.value? = fun k => (ms.lookup k).bind text? := by
  obtain ⟨σ, make, fields, empty, name, hmakes, -⟩ := exists_makes t
  obtain ⟨r, hread⟩ := hmakes.exists_readMembers_iff.2 h
  exact ⟨make r, hmakes.name_eq r, hmakes.value?_eq hread⟩

theorem arguments_eq_ok_iff {c : Call} : arguments t (.ofJson v) = .ok c ↔
    c.name = t ∧ ∃ ms, StandsFor t v ms ∧ Taken t ms ∧
      c.value? = fun k => (ms.lookup k).bind text? := by
  obtain ⟨σ, make, fields, empty, name, hmakes, harguments⟩ := exists_makes t
  simp only [harguments, bind_eq_ok_iff, hmakes.closedStruct_eq_ok_iff]
  constructor
  · rintro ⟨r, ⟨ms, hstands, hread⟩, hc⟩
    obtain rfl := Except.ok.inj hc
    exact ⟨hmakes.name_eq r, ms, hstands, hmakes.exists_readMembers_iff.1 ⟨r, hread⟩,
      hmakes.value?_eq hread⟩
  · rintro ⟨hname, ms, hstands, htaken, hvalue⟩
    obtain ⟨r, hread⟩ := hmakes.exists_readMembers_iff.2 htaken
    refine ⟨r, ⟨ms, hstands, hread⟩, congrArg Except.ok (Call.eq_of_value? ?_ ?_)⟩
    · rw [hmakes.name_eq, hname]
    · rw [hmakes.value?_eq hread, hvalue]

/-! ## Arguments that are valid -/

/-- Whether a member is null and for an argument that may be left out. -/
def Name.saysNothing (t : Name) : String × Json → Bool
  | (k, .null) => t.arguments.any fun a => a.name = k && !a.isRequired
  | _ => false

/-- The members that say something. -/
def Name.present (t : Name) (ms : List (String × Json)) : List (String × Json) :=
  ms.filter (!t.saysNothing ·)

theorem saysNothing_iff {m : String × Json} : t.saysNothing m ↔
    m.2 = .null ∧ ∃ a ∈ t.arguments, a.name = m.1 ∧ a.isRequired = false := by
  obtain ⟨k, v⟩ := m
  cases v <;> simp [Name.saysNothing]

theorem mem_present {m : String × Json} : m ∈ t.present ms ↔ m ∈ ms ∧ t.saysNothing m = false := by
  rw [Name.present, List.mem_filter, Bool.not_eq_true']

/-- A tool takes what is valid once the members that say nothing are left out. -/
theorem taken_iff (hnodup : (ms.map Prod.fst).Nodup) :
    Taken t ms ↔ Valid t.inputSchema (.obj (t.present ms)) := by
  have hpresent : ((t.present ms).map Prod.fst).Nodup :=
    hnodup.sublist ((List.filter_sublist ..).map Prod.fst)
  rw [valid_inputSchema_iff]
  constructor
  · rintro ⟨-, hknown, hrequired⟩
    refine ⟨_, rfl, fun a ha hneeded => ?_, fun m hm => ?_, fun a ha x hx => ?_⟩
    · obtain ⟨m, hm, hname⟩ := List.mem_map.1 (hrequired a ha hneeded)
      have hsays : t.saysNothing m = false := by
        rw [Bool.eq_false_iff]
        intro hsays
        obtain ⟨-, b, hb, hbname, hbneeded⟩ := saysNothing_iff.1 hsays
        obtain rfl := List.inj_on_of_nodup_map (nodup_arguments t) hb ha (hbname.trans hname)
        cases hbneeded.symm.trans hneeded
      exact hname ▸ List.mem_map_of_mem (mem_present.2 ⟨hm, hsays⟩)
    · obtain ⟨a, ha, hname, -⟩ := hknown m (mem_present.1 hm).1
      exact ⟨a, ha, hname⟩
    · obtain ⟨hx, hsays⟩ := mem_present.1 ((lookup_eq_some_iff_mem hpresent).1 hx)
      obtain ⟨b, hb, hname, htext | ⟨hneeded, hnull⟩⟩ := hknown _ hx
      · exact htext
      · cases hsays.symm.trans (saysNothing_iff.2 ⟨hnull, b, hb, hname, hneeded⟩)
  · rintro ⟨_, ⟨⟩, hrequired, hknown, htext⟩
    refine ⟨hnodup, fun m hm => ?_, fun a ha hneeded => ?_⟩
    · cases hsays : t.saysNothing m with
      | true =>
          obtain ⟨hnull, a, ha, hname, hneeded⟩ := saysNothing_iff.1 hsays
          exact ⟨a, ha, hname, .inr ⟨hneeded, hnull⟩⟩
      | false =>
          have hm := mem_present.2 ⟨hm, hsays⟩
          obtain ⟨a, ha, hname⟩ := hknown m hm
          exact ⟨a, ha, hname,
            .inl (htext a ha m.2 ((lookup_eq_some_iff_mem hpresent).2 (hname ▸ hm)))⟩
    · obtain ⟨m, hm, hname⟩ := List.mem_map.1 (hrequired a ha hneeded)
      exact hname ▸ List.mem_map_of_mem (mem_present.1 hm).1

theorem map_fst_zip_sublist (names : List String) (xs : List Json) :
    ((names.zip xs).map Prod.fst).Sublist names := by
  induction names generalizing xs with
  | nil => exact .slnil
  | cons name names ih =>
      cases xs with
      | nil => exact List.nil_sublist _
      | cons x xs => exact (ih xs).cons_cons name

theorem StandsFor.nodup (hv : Proper v) (h : StandsFor t v ms) : (ms.map Prod.fst).Nodup := by
  cases h with
  | named =>
      cases hv with
      | obj hkeys => exact nodup_keys hkeys
  | positional => exact (nodup_arguments t).sublist (map_fst_zip_sublist _ _)

/-- Members of which none is null all say something. -/
theorem present_eq_self (h : ∀ m ∈ ms, m.2 ≠ .null) : t.present ms = ms := by
  refine List.filter_eq_self.2 fun m hm => ?_
  rw [Bool.not_eq_true', Bool.eq_false_iff]
  exact fun hsays => h m hm (saysNothing_iff.1 hsays).1

theorem givenArguments_eq_arr {xs : List Json} (h : givenArguments v = .arr xs) : v = .arr xs := by
  cases v with
  | null => cases h
  | _ => exact h

theorem givenArguments_eq_obj (h : givenArguments v = .obj ms) : v = .obj ms ∨ ms = [] := by
  cases v with
  | null => exact .inr (Json.obj.inj h).symm
  | _ => exact .inl h

theorem proper_givenArguments (hv : Proper v) : Proper (givenArguments v) := by
  cases v with
  | null => exact .obj .nil nofun
  | _ => exact hv

/-- What is valid makes a call that has the values of its members. -/
theorem exists_arguments_of_valid (hv : Proper v) (h : Valid t.inputSchema v) :
    ∃ c ms, arguments t (.ofJson v) = .ok c ∧ v = .obj ms ∧
      c.value? = fun k => (ms.lookup k).bind text? := by
  obtain ⟨ms, rfl, -, hknown, htext⟩ := valid_inputSchema_iff.1 h
  have hnodup := (StandsFor.named (t := t) ms).nodup hv
  have hnull (m) (hm : m ∈ ms) : m.2 ≠ .null := by
    obtain ⟨a, ha, hname⟩ := hknown m hm
    obtain ⟨s, hs⟩ := htext a ha m.2 ((lookup_eq_some_iff_mem hnodup).2 (hname ▸ hm))
    rw [hs]
    exact nofun
  have htaken : Taken t ms := (taken_iff hnodup).2 ((present_eq_self hnull).symm ▸ h)
  obtain ⟨c, hname, hvalue⟩ := exists_call_of_taken htaken
  exact ⟨c, ms, arguments_eq_ok_iff.2 ⟨hname, ms, .named ms, htaken, hvalue⟩, rfl, hvalue⟩

/-- Of what is no array and has no null in it, only what is valid makes a call. -/
theorem valid_of_arguments (hv : Proper v) (harray : ∀ xs, v ≠ .arr xs)
    (hnull : ∀ ms, v = .obj ms → ∀ m ∈ ms, m.2 ≠ .null) {c : Call}
    (h : arguments t (.ofJson v) = .ok c) : Valid t.inputSchema v := by
  obtain ⟨-, ms, hstands, htaken, -⟩ := arguments_eq_ok_iff.1 h
  cases hstands with
  | named =>
      rw [← present_eq_self (t := t) (hnull ms rfl)]
      exact (taken_iff htaken.nodup).1 htaken
  | positional => exact absurd rfl (harray _)

/-! ## Calls -/

theorem ofString?_text (t : Name) : Name.ofString? t.text = some t := by
  cases t <;> decide

theorem text_of_ofString? {name : String} (h : Name.ofString? name = some t) : t.text = name := by
  simpa using List.find?_some h

theorem ofParams_of_published {p : Params} (h : p.name = t.text) :
    Call.ofParams p = (arguments t (.ofJson (givenArguments p.arguments))).mapError
      (.invalidArguments t) := by
  rw [Call.ofParams, h, ofString?_text]
  dsimp only
  cases arguments t (.ofJson (givenArguments p.arguments)) <;> rfl

/-- Whatever is asked for under the name of a published tool: arguments that are valid make a call
of the tool with the values of their members, and all that makes a call is valid, once the items of
an array stand under the names of the arguments and a null is left out where the argument may be.
Without arrays and nulls that is just what the schema says. All else is refused as arguments that
are invalid, and every other name as an unknown tool. -/
theorem ofParams_valid {p : Params} (hp : Proper p.arguments) :
    (∀ schema, Published p.name schema → ∃ t : Name, t.text = p.name ∧ t.inputSchema = schema ∧
      (Valid schema (givenArguments p.arguments) → ∃ c ms, Call.ofParams p = .ok c ∧
        c.name = t ∧ givenArguments p.arguments = .obj ms ∧
        c.value? = fun k => (ms.lookup k).bind text?) ∧
      (∀ c, Call.ofParams p = .ok c ↔ c.name = t ∧ ∃ ms,
        StandsFor t (givenArguments p.arguments) ms ∧ Valid schema (.obj (t.present ms)) ∧
        c.value? = fun k => (ms.lookup k).bind text?) ∧
      ((∀ xs, p.arguments ≠ .arr xs) → (∀ ms, p.arguments = .obj ms → ∀ m ∈ ms, m.2 ≠ .null) →
        ∀ c, Call.ofParams p = .ok c → Valid schema (givenArguments p.arguments)) ∧
      ∀ fault, Call.ofParams p = .error fault → ∃ why, fault = .invalidArguments t why) ∧
    ((¬ ∃ schema, Published p.name schema) → Call.ofParams p = .error (.unknownTool p.name)) := by
  have hgiven := proper_givenArguments hp
  refine ⟨fun schema hschema => ?_, fun hunpublished => ?_⟩
  · obtain ⟨t, hname, rfl⟩ := published_iff.1 hschema
    rw [ofParams_of_published hname]
    refine ⟨t, hname.symm, rfl, fun hvalid => ?_, fun c => ?_, fun harray hnull c hc => ?_,
      fun fault hfault => ?_⟩
    · obtain ⟨c, ms, hc, hms, hvalue⟩ := exists_arguments_of_valid hgiven hvalid
      exact ⟨c, ms, mapError_eq_ok_iff.2 hc, (arguments_eq_ok_iff.1 hc).1, hms, hvalue⟩
    · rw [mapError_eq_ok_iff, arguments_eq_ok_iff]
      refine and_congr_right fun _ => exists_congr fun ms => and_congr_right fun hstands => ?_
      rw [taken_iff (hstands.nodup hgiven)]
    · refine valid_of_arguments hgiven (fun xs hxs => harray xs (givenArguments_eq_arr hxs))
        (fun ms hms => ?_) (mapError_eq_ok_iff.1 hc)
      rcases givenArguments_eq_obj hms with hms | rfl
      · exact hnull ms hms
      · exact nofun
    · cases hread : arguments t (.ofJson (givenArguments p.arguments)) with
      | ok c => simp [hread, Except.mapError] at hfault
      | error why =>
          rw [hread] at hfault
          exact ⟨why, (Except.error.inj hfault).symm⟩
  · rw [Call.ofParams]
    cases hname : Name.ofString? p.name with
    | none => rfl
    | some t =>
        have hpublished := published_iff.2 ⟨t, (text_of_ofString? hname).symm, rfl⟩
        exact absurd ⟨_, hpublished⟩ hunpublished

/-- The columns of a table in a schema are asked for: the arguments are valid, and make a call that
has them. -/
theorem ofParams_valid_describe :
    let p : Params := ⟨"describe_table", .obj [("schema", .str "app"), ("table", .str "users")]⟩
    Proper p.arguments ∧ Published p.name Name.describeTable.inputSchema ∧
      Valid Name.describeTable.inputSchema (givenArguments p.arguments) ∧
      ∃ c, Call.ofParams p = .ok c ∧ c.value? "table" = some "users" ∧
        c.value? "schema" = some "app" := by
  intro p
  have hproper : Proper p.arguments := .obj (by decide) (by simp [Proper.str])
  have hpublished : Published p.name Name.describeTable.inputSchema :=
    published_iff.2 ⟨.describeTable, rfl, rfl⟩
  have hvalid : Valid Name.describeTable.inputSchema (givenArguments p.arguments) :=
    valid_inputSchema_iff.2 ⟨_, rfl, by decide, by decide, by
      simp [Name.arguments, lookup_cons_eq_ite]⟩
  obtain ⟨t, -, -, haccepts, -, -, -⟩ := (ofParams_valid hproper).1 _ hpublished
  obtain ⟨c, ms, hc, -, hms, hvalue⟩ := haccepts hvalid
  obtain rfl := Json.obj.inj hms
  exact ⟨hproper, hpublished, hvalid, c, hc, congrFun hvalue "table", congrFun hvalue "schema"⟩

/-- An array is no object and yet makes a call, and so does a null in the place of a text. -/
theorem ofParams_accepts_invalid :
    Call.ofParams ⟨"execute_sql", .arr [.str "SELECT 1"]⟩ = .ok (.executeSql "SELECT 1") ∧
      Call.ofParams ⟨"list_tables", .obj [("schema", .null)]⟩ = .ok (.listTables none) ∧
      ¬ ∀ p : Params, Proper p.arguments → ∀ schema, Published p.name schema →
        ∀ c, Call.ofParams p = .ok c → Valid schema (givenArguments p.arguments) := by
  have harray : Call.ofParams ⟨"execute_sql", .arr [.str "SELECT 1"]⟩ =
      .ok (.executeSql "SELECT 1") := rfl
  refine ⟨harray, rfl, fun h => ?_⟩
  have hvalid := h _ (.arr (List.forall_mem_singleton.2 (.str _))) _
    (published_iff.2 ⟨.executeSql, rfl, rfl⟩) _ harray
  obtain ⟨ms, hms, -⟩ := valid_inputSchema_iff.1 hvalid
  cases hms

end SqlGate.Tool
