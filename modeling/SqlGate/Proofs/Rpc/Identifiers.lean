import SqlGate.Proofs.Json.Unique
import SqlGate.Rpc.Message

/-!
# Identifiers come from the line

What a request is identified by, and what its parameters say, are parts of the value on its line, so
they are values that texts can have (`readable_of_ofText`). The same holds of the identifier that a
withdrawal names (`readable_of_withdrawal`).
-/

namespace SqlGate

namespace Document

mutual

theorem toJson_ofJson (v : Json) : (ofJson v).toJson = v := by
  match v with
  | .null => rfl
  | .bool b => rfl
  | .num n => rfl
  | .str s => rfl
  | .arr xs => exact congrArg Json.arr (itemsJson_ofItems xs)
  | .obj ms => exact congrArg Json.obj (membersJson_ofMembers ms)

theorem itemsJson_ofItems (xs : List Json) : toJson.itemsJson (ofJson.ofItems xs) = xs := by
  match xs with
  | [] => rfl
  | x :: xs => exact congrArg₂ List.cons (toJson_ofJson x) (itemsJson_ofItems xs)

theorem membersJson_ofMembers (ms : List (String × Json)) :
    toJson.membersJson (ofJson.ofMembers ms) = ms := by
  match ms with
  | [] => rfl
  | (k, v) :: ms =>
      exact congrArg₂ List.cons (congrArg (Prod.mk k) (toJson_ofJson v)) (membersJson_ofMembers ms)

end

/-- A document that was a value in a text. -/
def IsReadable (d : Document) : Prop := ∃ v, Json.Readable v ∧ d = .ofJson v

theorem isReadable_of_mem_ofItems {xs : List Json} (h : ∀ x ∈ xs, Json.Readable x) :
    ∀ d ∈ ofJson.ofItems xs, IsReadable d := by
  induction xs with
  | nil => exact fun d hd => nomatch hd
  | cons x xs ih =>
      rw [List.forall_mem_cons] at h
      rintro d (_ | ⟨_, hd⟩)
      · exact ⟨x, h.1, rfl⟩
      · exact ih h.2 d hd

theorem isReadable_of_mem_ofMembers {ms : List (String × Json)} (h : ∀ m ∈ ms, Json.Readable m.2) :
    ∀ m ∈ ofJson.ofMembers ms, IsReadable m.2 := by
  induction ms with
  | nil => exact fun m hm => nomatch hm
  | cons m ms ih =>
      rw [List.forall_mem_cons] at h
      rintro m' (_ | ⟨_, hm⟩)
      · exact ⟨m.2, h.1, rfl⟩
      · exact ih h.2 m' hm

section Fields

variable {σ : Type} {fields : List (Field σ)} {P : σ → Prop} {r r' : σ}

/-- A field that keeps what is known of a record, whatever it is read from. -/
def Field.Keeps (P : σ → Prop) (f : Field σ) : Prop :=
  ∀ d r r', IsReadable d → P r → f.read d r = .ok r' → P r'

theorem keeps_of {α : Type} {name : String} {isRequired : Bool} {read : Read α} {set : α → σ → σ}
    (h : ∀ d a r, IsReadable d → P r → read d = .ok a → P (set a r)) :
    (Field.of name isRequired read set).Keeps P := by
  intro d r r' hd hr hread
  obtain ⟨a, ha, hset⟩ := exists_of_bind_eq_ok hread
  cases hset
  exact h d a r hd hr ha

theorem readMembers_keeps {isClosed : Bool} {seen : List String} {ms : List (String × Document)}
    (hf : ∀ f ∈ fields, f.Keeps P) (hms : ∀ m ∈ ms, IsReadable m.2) (hr : P r)
    (h : readMembers isClosed fields seen ms r = .ok r') : P r' := by
  induction ms generalizing seen r with
  | nil =>
      unfold readMembers at h
      split at h
      · cases h
      · cases h
        exact hr
  | cons m ms ih =>
      obtain ⟨k, d⟩ := m
      rw [List.forall_mem_cons] at hms
      unfold readMembers at h
      split at h
      · split at h
        · cases h
        · exact ih hms.2 hr h
      · rename_i f hfind
        split at h
        · cases h
        · obtain ⟨r₁, hread, h⟩ := exists_of_bind_eq_ok h
          exact ih hms.2 (hf f (List.mem_of_find?_eq_some hfind) d r r₁ hms.1 hr hread) h

theorem readItems_keeps {what : String} {n : Nat} {ds : List Document}
    (hf : ∀ f ∈ fields, f.Keeps P) (hds : ∀ d ∈ ds, IsReadable d) (hr : P r)
    (h : readItems what n fields ds r = .ok r') : P r' := by
  induction fields generalizing n ds r with
  | nil =>
      cases ds with
      | nil =>
          cases h
          exact hr
      | cons d ds => cases h
  | cons f fs ih =>
      rw [List.forall_mem_cons] at hf
      cases ds with
      | nil =>
          unfold readItems at h
          split at h
          · cases h
          · exact ih hf.2 hds hr h
      | cons d ds =>
          rw [List.forall_mem_cons] at hds
          obtain ⟨r₁, hread, h⟩ := exists_of_bind_eq_ok h
          exact ih hf.2 hds.2 (hf.1 d r r₁ hds.1 hr hread) h

/-- What every field keeps is known of a record that is read. -/
theorem struct_keeps {name : String} {v : Json} (hv : Json.Readable v)
    (hf : ∀ f ∈ fields, f.Keeps P) (hr : P r) (h : struct name fields r (.ofJson v) = .ok r') :
    P r' := by
  cases hv with
  | arr hxs => exact readItems_keeps hf (isReadable_of_mem_ofItems hxs) hr h
  | obj _ hms => exact readMembers_keeps hf (isReadable_of_mem_ofMembers hms) hr h
  | _ => cases h

end Fields

theorem readable_of_json {d : Document} {v : Json} (hd : IsReadable d) (h : json d = .ok v) :
    Json.Readable v := by
  obtain ⟨w, hw, rfl⟩ := hd
  cases h
  rwa [toJson_ofJson]

theorem readable_of_optional_json {d : Document} {o : Option Json} (hd : IsReadable d)
    (h : optional json d = .ok o) : ∀ v ∈ o, Json.Readable v := by
  unfold optional at h
  split at h
  · cases h
    exact fun v hv => nomatch hv
  · cases h
    rintro v ⟨⟩
    exact readable_of_json hd rfl

end Document

namespace Rpc

/-- The values that a request is made of. -/
def Request.IsReadable (r : Request) : Prop :=
  (∀ v ∈ r.id, Json.Readable v) ∧ ∀ v ∈ r.params, Json.Readable v

theorem keeps_isReadable : ∀ f ∈ Request.fields, f.Keeps Request.IsReadable := by
  unfold Request.fields
  simp only [List.forall_mem_cons, List.not_mem_nil, false_imp_iff, implies_true, and_true]
  refine ⟨Document.keeps_of fun _ _ _ _ hr _ => hr, Document.keeps_of fun d a r hd hr h => ?_,
    Document.keeps_of fun _ _ _ _ hr _ => hr, Document.keeps_of fun d a r hd hr h => ?_⟩
  · exact ⟨Document.readable_of_optional_json hd h, hr.2⟩
  · exact ⟨hr.1, Document.readable_of_optional_json hd h⟩

theorem readable_of_ofText {line : String} {r : Request} (h : Request.ofText line = .ok r) :
    r.IsReadable := by
  unfold Request.ofText at h
  split at h
  · cases h
  · rename_i v hv
    have hread := Json.readable_of_ofString? (eq_ok_iff_toOption.1 hv)
    obtain ⟨r₁, hr, h⟩ := exists_of_bind_eq_ok (mapError_eq_ok_iff.1 h)
    have hnone : Request.initial.IsReadable := ⟨fun v hv => (nomatch hv), fun v hv => nomatch hv⟩
    have hkept := Document.struct_keeps hread keeps_isReadable hnone (mapError_eq_ok_iff.1 hr)
    split at h
    · cases h
      exact hkept
    · cases h

/-- A withdrawal names a part of its parameters. -/
theorem readable_of_withdrawal {v id : Json} (hv : Json.Readable v)
    (h : withdrawal (.ofJson v) = .ok id) : Json.Readable id := by
  refine Document.struct_keeps hv ?_ .null h
  simp only [List.forall_mem_cons, List.not_mem_nil, false_imp_iff, implies_true, and_true]
  exact ⟨Document.keeps_of fun d a r hd _ ha => Document.readable_of_json hd ha,
    Document.keeps_of fun _ _ _ _ hr _ => hr⟩

/-- The identifier that is found in a line. -/
def foundId (line : String) : Json := ((Json.ofString? line).bind (Json.get? "id")).getD .null

theorem id_of_ofText {line : String} {id : Json} {why : Fault}
    (h : Request.ofText line = .error (id, why)) : id = foundId line := by
  unfold Request.ofText at h
  unfold foundId Json.ofString?
  cases hv : Json.ofString line with
  | error why =>
      rw [hv] at h
      cases h
      rfl
  | ok v =>
      rw [hv] at h
      dsimp only at h
      generalize Request.ofJson v = read at h
      cases read with
      | ok r => cases h
      | error why =>
          cases h
          rfl

end Rpc

end SqlGate
