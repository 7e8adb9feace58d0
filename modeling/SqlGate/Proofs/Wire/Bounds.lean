import SqlGate.Proofs.Native.Words
import SqlGate.Proofs.Wire.Extent

/-!
# The texts of bounds

In JSON the values of most types are truth values, numbers or solid texts (`Kind.Form`), whatever
payload they are decoded from (`form_of_decodeScalar`). Such a value is settled by the text that it
has as a bound (`Kind.Form.eq_of_boundText_eq`), which is not empty and has commas inside of
brackets only (`Kind.Form.separable`). Texts, documents, bytes and bits are left out, since their
texts may be empty.
-/

namespace SqlGate.Wire

open Native Number Text

/-! ## The values of a type -/

/-- Types whose values have texts that are not empty and stand for themselves. -/
def Kind.IsTold : Kind → Prop
  | .bytea | .char | .text | .json | .jsonb | .bits => False
  | _ => True

/-- What the values of such a type are in JSON: truth values, numbers and texts. -/
def Kind.Form : Kind → Json → Prop
  | .bool, v => ∃ b, v = .bool b
  | .int2, v | .int4, v | .int8, v | .oid, v => ∃ i : Int64, v = .int i.toInt
  | .float4, v | .float8, v => ∃ x, v = ofDouble x
  | .box, v => ∃ p q, Solid p ∧ Solid q ∧ v = .str (p ++ "," ++ q)
  | _, v => ∃ s, Solid s ∧ v = .str s

/-- How many parts the text of a value has. -/
def Kind.partCount : Kind → Nat
  | .box => 2
  | _ => 1

theorem boundText_num (n : Json.Num) : boundText (.num n) = n.text := by
  rw [boundText, Json.text]
  exact nofun

theorem readable_int64 (i : Int64) : Json.Readable (.int i.toInt) := by
  have hlow := Int64.le_toInt i
  have hhigh := Int64.toInt_lt i
  exact .int (by omega) (by omega)

/-- The name of a double that is no number. -/
def IsName (s : String) : Prop := s = "NaN" ∨ ∃ negative, s = nonFinite negative

/-- A double is a number or has a name. -/
theorem ofDouble_cases (x : Double) :
    (ofDouble x = .num (.real x) ∧ Json.Readable (.num (.real x))) ∨
      ∃ s, ofDouble x = .str s ∧ IsName s := by
  cases hvalue : x.value with
  | nan => exact .inr ⟨"NaN", by rw [ofDouble, hvalue], .inl rfl⟩
  | infinity negative =>
      exact .inr ⟨nonFinite negative, by rw [ofDouble, hvalue], .inr ⟨negative, rfl⟩⟩
  | finite negative m e =>
      exact .inl ⟨ofDouble_of_finite hvalue, .real ⟨negative, m, e, hvalue⟩⟩

theorem IsName.solid {s : String} (h : IsName s) : Solid s := by
  rcases h with rfl | ⟨negative, rfl⟩
  · exact solid_of_plain (by decide) (by decide)
  · exact solid_of_plain (plain_nonFinite negative) (by cases negative <;> decide)

theorem IsName.ne_text {s : String} (h : IsName s) {n : Json.Num}
    (hn : Json.Readable (.num n)) : n.text ≠ s := by
  rcases h with rfl | ⟨negative, rfl⟩
  · exact (text_ne_nonFinite hn).1
  · exact (text_ne_nonFinite hn).2 negative

theorem Kind.Form.solid {kind : Kind} {v : Json} (h : kind.Form v) (hbox : kind ≠ .box) :
    Solid (boundText v) := by
  have hnumber {n : Json.Num} (hn : Json.Readable (.num n)) : Solid (boundText (.num n)) :=
    boundText_num n ▸ solid_number hn
  cases kind
  case box => exact absurd rfl hbox
  case bool =>
    obtain ⟨b, rfl⟩ := h
    cases b
    · exact solid_of_plain (by decide) (by decide)
    · exact solid_of_plain (by decide) (by decide)
  case int2 | int4 | int8 | oid =>
    obtain ⟨i, rfl⟩ := h
    exact hnumber (readable_int64 i)
  case float4 | float8 =>
    obtain ⟨x, rfl⟩ := h
    obtain ⟨hx, hreadable⟩ | ⟨s, hx, hs⟩ := ofDouble_cases x
    · rw [hx]
      exact hnumber hreadable
    · rw [hx]
      exact hs.solid
  all_goals
    obtain ⟨s, hs, rfl⟩ := h
    exact hs

theorem Kind.Form.separable {kind : Kind} {v : Json} (h : kind.Form v) :
    Separable kind.partCount (boundText v).toList := by
  by_cases hbox : kind = .box
  · subst hbox
    obtain ⟨p, q, hp, hq, rfl⟩ := h
    have hne : p.toList ≠ [] := by simpa using hp.ne
    have htext : (boundText (.str (p ++ "," ++ q))).toList = p.toList ++ ',' :: q.toList := by
      simp [boundText]
    rw [htext]
    exact separable_two hp.passes hne hq.passes
  · have hsolid := h.solid hbox
    have hcount : kind.partCount = 1 := by
      cases kind <;> first | rfl | exact absurd rfl hbox
    rw [hcount]
    exact separable_one hsolid.passes (by simpa using hsolid.ne)

/-- A number is settled by its text, and so is the name of a double that is none. -/
theorem eq_of_boundText_ofDouble {x y : Double}
    (h : boundText (ofDouble x) = boundText (ofDouble y)) : ofDouble x = ofDouble y := by
  rcases ofDouble_cases x with ⟨hx, hx'⟩ | ⟨s, hx, hs⟩ <;>
    rcases ofDouble_cases y with ⟨hy, hy'⟩ | ⟨t, hy, ht⟩ <;>
    rw [hx, hy] at h ⊢
  · rw [boundText_num, boundText_num] at h
    exact Json.eq_of_text_eq hx' hy' (by rwa [Json.text, Json.text])
  · exact absurd ((boundText_num _).symm.trans h) (ht.ne_text hx')
  · exact absurd ((boundText_num _).symm.trans h.symm) (hs.ne_text hy')
  · exact congrArg Json.str h

/-- The values of a type are settled by their texts. -/
theorem Kind.Form.eq_of_boundText_eq {kind : Kind} {v w : Json} (hv : kind.Form v)
    (hw : kind.Form w) (h : boundText v = boundText w) : v = w := by
  cases kind
  case bool =>
    obtain ⟨b, rfl⟩ := hv
    obtain ⟨c, rfl⟩ := hw
    cases b <;> cases c <;> first | rfl | exact absurd h (by decide)
  case int2 | int4 | int8 | oid =>
    obtain ⟨i, rfl⟩ := hv
    obtain ⟨j, rfl⟩ := hw
    refine Json.eq_of_text_eq (readable_int64 i) (readable_int64 j) ?_
    simpa only [boundText_num, Json.int, Json.text] using h
  case float4 | float8 =>
    obtain ⟨x, rfl⟩ := hv
    obtain ⟨y, rfl⟩ := hw
    exact eq_of_boundText_ofDouble h
  case box =>
    obtain ⟨p, q, -, -, rfl⟩ := hv
    obtain ⟨p', q', -, -, rfl⟩ := hw
    exact congrArg Json.str h
  all_goals
    obtain ⟨s, -, rfl⟩ := hv
    obtain ⟨t, -, rfl⟩ := hw
    exact congrArg Json.str h

/-! ## What is decoded -/

theorem plain_groupsFrom (d : Wire.Decimal) (start : Int) (n : Nat) :
    Plain (d.groupsFrom start n) :=
  plain_join (by simp)

theorem solid_decimal (d : Wire.Decimal) : Solid d.text := by
  have hsign : Plain (if d.isNegative then "-" else "") := plain_ite (by decide) (by decide)
  have hinteger : Plain d.integerText :=
    plain_ite (by decide) (plain_append.2 ⟨plain_decimal _, plain_groupsFrom d _ _⟩)
  have hfraction : Plain (if d.scale = 0 then "" else "." ++ d.fractionText) := by
    refine plain_ite (by decide) (plain_append.2 ⟨by decide, plain_ofList.2 fun c hc => ?_⟩)
    exact plain_groupsFrom d _ _ c (List.mem_of_mem_take hc)
  have hne : d.integerText ≠ "" := by
    unfold Decimal.integerText
    split
    · decide
    · simp [String.append_eq_empty_iff, decimal_ne]
  exact solid_of_plain (plain_append.2 ⟨plain_append.2 ⟨hsign, hinteger⟩, hfraction⟩)
    (by simp [Decimal.text, String.append_eq_empty_iff, hne])

theorem solid_numeric (d : Wire.Decimal) : Solid d.toNumeric.render := by
  unfold Decimal.toNumeric
  split_ifs
  · exact solid_of_plain (by decide) (by decide)
  · exact solid_of_plain (by decide) (by decide)
  · exact solid_of_plain (by decide) (by decide)
  · exact solid_decimal d

theorem solid_timeOf? {micros : Int} {v : Native} (h : timeOf? micros = some v) :
    ∃ s, Solid s ∧ v.render = .str s := by
  unfold timeOf? at h
  split at h
  · cases h
    exact ⟨_, solid_of_plain (by decide) (by decide), rfl⟩
  · obtain ⟨t, -, rfl⟩ := Option.map_eq_some_iff.1 h
    exact ⟨_, solid_of_plain (plain_timeText t) (timeText_ne t), rfl⟩

theorem solid_timeTzOf? {micros west : Int} {v : Native} (h : timeTzOf? micros west = some v) :
    ∃ s, Solid s ∧ v.render = .str s := by
  unfold timeTzOf? at h
  split at h
  · obtain ⟨t, -, rfl⟩ := Option.map_eq_some_iff.1 h
    refine ⟨_, solid_of_plain (plain_append.2 ⟨plain_timeText t, plain_offsetText _⟩) ?_, rfl⟩
    simp [String.append_eq_empty_iff, timeText_ne]
  · cases h

/-- An address that is read has four or sixteen bytes. -/
theorem Read.length_of_inet {bs rest : List UInt8} {i : Inet} (h : inet bs = some (i, rest)) :
    ∀ address, i.address = .v6 address → address.length = 16 := by
  obtain ⟨family, r₁, -, h⟩ := bind_eq_some_iff.1 h
  obtain ⟨bits, r₂, -, h⟩ := bind_eq_some_iff.1 h
  obtain ⟨cidr, r₃, -, h⟩ := bind_eq_some_iff.1 h
  obtain ⟨size, r₄, -, h⟩ := bind_eq_some_iff.1 h
  split at h
  · obtain ⟨a, r₅, -, h⟩ := bind_eq_some_iff.1 h
    obtain ⟨b, r₆, -, h⟩ := bind_eq_some_iff.1 h
    obtain ⟨c, r₇, -, h⟩ := bind_eq_some_iff.1 h
    obtain ⟨d, r₈, -, h⟩ := bind_eq_some_iff.1 h
    cases h
    exact nofun
  · split at h
    · obtain ⟨front, r₅, hfront, h⟩ := bind_eq_some_iff.1 h
      cases h
      rintro _ ⟨⟩
      exact (eq_of_take hfront).1
    · cases h

theorem Read.gives_form_ofKind {kind : Kind} {read : Read Native} (h : ofKind kind = some read)
    (hbits : kind ≠ .bits) : Gives (fun v => kind.Form v.render) read := by
  cases kind <;> cases h
  case bits => exact absurd rfl hbits
  case bool => exact gives_bind fun b => gives_pure ⟨_, rfl⟩
  case int2 | int4 => exact gives_bind fun i => gives_pure ⟨_, rfl⟩
  case int8 | oid => exact gives_map fun i => ⟨_, rfl⟩
  case float4 | float8 => exact gives_map fun x => ⟨_, rfl⟩
  case money => exact gives_map fun cents => ⟨_, solid_moneyText cents, rfl⟩
  case numeric => exact gives_map fun d => ⟨_, solid_numeric d, rfl⟩
  case uuid => exact gives_map fun bs => ⟨_, solid_uuidText bs, rfl⟩
  case date =>
    refine gives_bind fun days => ?_
    split
    · exact gives_pure ⟨_, solid_date _, rfl⟩
    · exact gives_failure
  case time =>
    refine gives_bind fun micros => ?_
    split
    next hv => exact gives_pure (solid_timeOf? hv)
    next => exact gives_failure
  case timeTz =>
    refine gives_bind fun micros => gives_bind fun west => ?_
    split
    next hv => exact gives_pure (solid_timeTzOf? hv)
    next => exact gives_failure
  case timestamp =>
    refine gives_bind fun micros => ?_
    split
    · exact gives_pure ⟨_, solid_timestamp _, rfl⟩
    · exact gives_failure
  case interval =>
    exact gives_bind fun _ => gives_bind fun _ => gives_bind fun _ =>
      gives_pure ⟨_, solid_interval _, rfl⟩
  case inet =>
    intro bs v rest hread
    obtain ⟨i, hi, rfl⟩ := map_eq_some_iff.1 hread
    exact ⟨_, solid_inet (length_of_inet hi), rfl⟩
  case point => exact gives_map fun p => ⟨_, solid_point p, rfl⟩
  case line =>
    exact gives_bind fun a => gives_bind fun b => gives_bind fun c =>
      gives_pure ⟨_, solid_line a b c, rfl⟩
  case segment =>
    exact gives_bind fun p => gives_bind fun q => gives_pure ⟨_, solid_segment p q, rfl⟩
  case box =>
    exact gives_bind fun p => gives_bind fun q =>
      gives_pure ⟨_, _, solid_point p, solid_point q, rfl⟩
  case path =>
    refine gives_bind fun flag => gives_bind fun ps => gives_pure ?_
    cases hclosed : decide (flag ≠ 0) with
    | true => exact ⟨_, solid_parens (passes_points ps), rfl⟩
    | false => exact ⟨_, solid_brackets (passes_points ps), rfl⟩
  case polygon => exact gives_map fun ps => ⟨_, solid_parens (passes_points ps), rfl⟩
  case circle =>
    exact gives_bind fun c => gives_bind fun r => gives_pure ⟨_, solid_circle c r, rfl⟩

end SqlGate.Wire
