import SqlGate.Proofs.Wire.Bounds
import SqlGate.Proofs.Wire.RoundTrip

/-!
# Ranges and their texts

The text of a range has the texts of its bounds between brackets, with a comma between them and
without quotes. So what range a text is of can be told if no value of the subtype has an empty
text, which would look like no bound at all, and commas stand inside of brackets. Both hold of most
types with a decoder (`Kind.IsTold`). The other types have values with an empty text, and the texts
of some ranges over them are ambiguous (`decodeRange_told_iff`).
-/

namespace SqlGate.Wire

open Native Number Text

/-! ## The text of a range -/

section

variable {lower upper lower' upper' : Option (String × Bool)}

/-- The bracket in front of a lower bound. -/
def opening (bound : Option (String × Bool)) : Char :=
  if bound.any Prod.snd then '[' else '('

/-- The bracket after an upper bound. -/
def closing (bound : Option (String × Bool)) : Char :=
  if bound.any Prod.snd then ']' else ')'

/-- The characters of a bound, if there is one. -/
def written (bound : Option (String × Bool)) : Option (List Char) :=
  bound.map fun x => x.1.toList

theorem toList_rangeText (lower upper : Option (String × Bool)) : (rangeText lower upper).toList =
    opening lower :: ((written lower).getD [] ++ ',' :: (written upper).getD []) ++
      [closing upper] := by
  rcases lower with _ | ⟨s, _ | _⟩ <;> rcases upper with _ | ⟨t, _ | _⟩ <;>
    simp [rangeText, opening, closing, written]

theorem rangeText_ne_empty (lower upper : Option (String × Bool)) :
    rangeText lower upper ≠ "empty" := by
  intro h
  have hhead := congrArg (·.head?) ((toList_rangeText lower upper).symm.trans (congrArg _ h))
  rcases lower with _ | ⟨s, _ | _⟩ <;> cases hhead

theorem eq_of_rangeText_eq (h : rangeText lower upper = rangeText lower' upper') :
    opening lower = opening lower' ∧ closing upper = closing upper' ∧
      (written lower).getD [] ++ ',' :: (written upper).getD [] =
        (written lower').getD [] ++ ',' :: (written upper').getD [] := by
  have hlist := congrArg String.toList h
  rw [toList_rangeText, toList_rangeText, List.cons_append, List.cons_append] at hlist
  obtain ⟨hopening, hrest⟩ := List.cons.inj hlist
  obtain ⟨hinner, hclosing⟩ := List.append_inj' hrest rfl
  exact ⟨hopening, (List.cons.inj hclosing).1, hinner⟩

theorem solid_rangeText (hlower : ∀ x ∈ lower, Solid x.1) (hupper : ∀ x ∈ upper, Solid x.1) :
    Solid (rangeText lower upper) := by
  have hpasses {bound : Option (String × Bool)} (h : ∀ x ∈ bound, Solid x.1) :
      Passes 1 ((written bound).getD []) := by
    cases bound with
    | none => exact passes_nil
    | some x => exact (h x rfl).passes.mono (Nat.zero_le 1)
  have hopening : isOpening (opening lower) := by
    unfold opening
    split <;> rfl
  have hclosing : isClosing (closing upper) := by
    unfold closing
    split <;> rfl
  refine ⟨?_, fun hempty => ?_⟩
  · rw [toList_rangeText]
    refine Passes.enclosed hopening hclosing ?_
    exact (hpasses hlower).append (passes_comma.append (hpasses hupper))
  · have hlist := toList_rangeText lower upper
    rw [hempty] at hlist
    cases hlist

end

/-! ## Payloads -/

/-- The payloads of values of a type that is no range. Hardware addresses have six or eight
bytes. -/
structure Kind.Takes (kind : Kind) (raw : List UInt8) : Prop where
  decoded : (decodeScalar kind raw).isSome
  mac : kind = .mac → raw.length = 6 ∨ raw.length = 8

/-- A bound after its length, if there is one. -/
def sendRaw : Option (List UInt8) → List UInt8
  | none => []
  | some raw => signed 4 raw.length ++ raw

/-- The payloads of ranges: flags, and the bounds that they announce. -/
inductive RangePayload (Bound : List UInt8 → Prop) : List UInt8 → Prop
  | empty {flags : UInt8} (h : flags.toNat.testBit 0 = true) : RangePayload Bound [flags]
  | bounded {flags : UInt8} {lower upper : Option (List UInt8)}
    (h : flags.toNat.testBit 0 = false) (hlower : flags.toNat.testBit 3 = lower.isNone)
    (hupper : flags.toNat.testBit 4 = upper.isNone)
    (hlowerBound : ∀ raw ∈ lower, raw.length < 2147483648 ∧ Bound raw)
    (hupperBound : ∀ raw ∈ upper, raw.length < 2147483648 ∧ Bound raw) :
    RangePayload Bound (flags :: (sendRaw lower ++ sendRaw upper))

/-- The payloads of values of the type with a number. Of a type without a decoder all are. -/
def Payload (oid : Nat) (raw : List UInt8) : Prop :=
  match kindOf? oid with
  | none => True
  | some (.range subtype) => RangePayload (fun raw => ∃ kind, kindOf? subtype = some kind ∧
      kind.Takes raw) raw
  | some kind => kind.Takes raw

/-- A bound as it is decoded. -/
def shownBound (subtype : Nat) (inclusive : Bool) (bound : Option (List UInt8)) :
    Option (Native × Bool) :=
  bound.map fun raw => (decodeOrFallback subtype raw, inclusive)

theorem finds_rawBound (subtype : Nat) (inclusive : Bool) {bound : Option (List UInt8)}
    (h : ∀ raw ∈ bound, raw.length < 2147483648) :
    Read.Finds (Read.bound (decode subtype) bound.isNone inclusive) (sendRaw bound)
      (shownBound subtype inclusive bound) := by
  cases bound with
  | none => exact Read.finds_pure none
  | some raw => exact (Read.finds_field (h raw rfl)).bind_nil (Read.finds_pure _)

/-- What a range is decoded to. -/
theorem decodeRange_bounded (subtype : Nat) {flags : UInt8} {lower upper : Option (List UInt8)}
    (h : flags.toNat.testBit 0 = false) (hlower : flags.toNat.testBit 3 = lower.isNone)
    (hupper : flags.toNat.testBit 4 = upper.isNone)
    (hlow : ∀ raw ∈ lower, raw.length < 2147483648)
    (hhigh : ∀ raw ∈ upper, raw.length < 2147483648) :
    decodeRange subtype (flags :: (sendRaw lower ++ sendRaw upper)) =
      some (.range (shownBound subtype (flags.toNat.testBit 1) lower)
        (shownBound subtype (flags.toNat.testBit 2) upper)) := by
  have hfinds : Read.Finds (Read.range (decode subtype))
      ([flags] ++ (sendRaw lower ++ sendRaw upper))
      (.range (shownBound subtype (flags.toNat.testBit 1) lower)
        (shownBound subtype (flags.toNat.testBit 2) upper)) := by
    refine (Read.finds_byte flags).bind ?_
    dsimp only
    rw [h, if_neg Bool.false_ne_true, hlower, hupper]
    exact (finds_rawBound subtype _ hlow).bind ((finds_rawBound subtype _ hhigh).bind_nil
      (Read.finds_pure _))
  exact hfinds.whole

theorem decodeRange_empty (subtype : Nat) {flags : UInt8} (h : flags.toNat.testBit 0 = true) :
    decodeRange subtype [flags] = some .emptyRange := by
  refine Read.Finds.whole ((Read.finds_byte flags).bind_nil ?_)
  dsimp only
  rw [if_pos h]
  exact Read.finds_pure _

theorem form_of_decodeScalar {kind : Kind} {raw : List UInt8} {v : Native} (htold : kind.IsTold)
    (hmac : kind = .mac → raw ≠ []) (h : decodeScalar kind raw = some v) : kind.Form v.render := by
  unfold decodeScalar at h
  split at h
  iterate 5 exact htold.elim
  next =>
    cases h
    exact ⟨_, solid_mac (hmac rfl), rfl⟩
  next =>
    obtain ⟨read, hread, hwhole⟩ := Option.bind_eq_some_iff.1 h
    refine (Read.gives_form_ofKind hread ?_).whole hwhole
    rintro rfl
    exact htold

/-- A payload of a value of a type that is no range is decoded to one in the form of the type. -/
theorem form_of_takes {oid : Nat} {kind : Kind} {raw : List UInt8} (hkind : kindOf? oid = some kind)
    (hrange : ∀ subtype, kind ≠ .range subtype) (htold : kind.IsTold) (h : kind.Takes raw) :
    kind.Form (decodeOrFallback oid raw).render := by
  obtain ⟨v, hv⟩ := Option.isSome_iff_exists.1 h.decoded
  have hdecode : decodeOrFallback oid raw = v := by
    rw [decodeOrFallback, decode_eq_decodeScalar hkind hrange, hv]
    rfl
  rw [hdecode]
  refine form_of_decodeScalar htold (fun hmac => ?_) hv
  rintro rfl
  rcases h.mac hmac with h | h <;> cases h

theorem writtenBound_eq (subtype : Nat) (inclusive : Bool) (bound : Option (List UInt8)) :
    written (renderBound (shownBound subtype inclusive bound)) =
      bound.map fun raw => (boundText (decodeOrFallback subtype raw).render).toList := by
  cases bound with
  | none => rfl
  | some raw => simp [shownBound, renderBound, written]

/-- A type whose values are told apart by their texts. -/
def IsTold (oid : Nat) : Prop := ∃ kind, kindOf? oid = some kind ∧ kind.IsTold

/-- A payload of a value of such a type is decoded to one in the form of the type. -/
theorem form_of_payload {oid : Nat} {kind : Kind} {raw : List UInt8}
    (hkind : kindOf? oid = some kind) (htold : kind.IsTold) (h : Payload oid raw) :
    kind.Form (decodeOrFallback oid raw).render := by
  rw [Payload, hkind] at h
  by_cases hrange : ∃ subtype, kind = .range subtype
  · obtain ⟨subtype, rfl⟩ := hrange
    rw [decodeOrFallback, decode_eq_decodeRange hkind]
    cases h with
    | empty hempty =>
        rw [decodeRange_empty subtype hempty]
        exact ⟨_, solid_of_plain (by decide) (by decide), rfl⟩
    | bounded hflags hlower hupper hlow hhigh =>
        rw [decodeRange_bounded subtype hflags hlower hupper (fun raw hraw => (hlow raw hraw).1)
          fun raw hraw => (hhigh raw hraw).1]
        have hsolid {inclusive : Bool} {bound : Option (List UInt8)}
            (hbound : ∀ raw ∈ bound, ∃ kind, kindOf? subtype = some kind ∧ kind.Takes raw) :
            ∀ x ∈ renderBound (shownBound subtype inclusive bound), Solid x.1 := by
          cases bound with
          | none => exact nofun
          | some raw =>
              obtain ⟨kind, hsubtype, htakes⟩ := hbound raw rfl
              rintro _ ⟨⟩
              -- The subtype of a built-in range is a number, a date or a point in time.
              have hscalar : (∀ subtype, kind ≠ .range subtype) ∧ kind.IsTold ∧ kind ≠ .box := by
                rcases kind_of_range hkind hsubtype with rfl | rfl | rfl | rfl | rfl <;>
                  exact ⟨nofun, trivial, nofun⟩
              exact (form_of_takes hsubtype hscalar.1 hscalar.2.1 htakes).solid hscalar.2.2
        exact ⟨_, solid_rangeText (hsolid fun raw hraw => (hlow raw hraw).2)
          (hsolid fun raw hraw => (hhigh raw hraw).2), rfl⟩
  · have hscalar : ∀ subtype, kind ≠ .range subtype := fun subtype h => hrange ⟨subtype, h⟩
    refine form_of_takes hkind hscalar htold ?_
    cases kind
    case range subtype => exact absurd rfl (hscalar subtype)
    all_goals exact h

/-! ## Telling ranges apart -/

/-- Two bounds are both missing, or the same in JSON and both in their ranges or both not. -/
def SameBound (x y : Option (Native × Bool)) : Prop :=
  x.map (fun b => (b.1.render, b.2)) = y.map fun b => (b.1.render, b.2)

/-- Two ranges are both empty, or have the same bounds. -/
inductive SameRange : Native → Native → Prop
  | empty : SameRange .emptyRange .emptyRange
  | bounded {lower upper lower' upper' : Option (Native × Bool)} (hlower : SameBound lower lower')
    (hupper : SameBound upper upper') : SameRange (.range lower upper) (.range lower' upper')

theorem SameRange.sameBound {lower upper lower' upper' : Option (Native × Bool)}
    (h : SameRange (.range lower upper) (.range lower' upper')) : SameBound lower lower' := by
  cases h with
  | bounded hlower _ => exact hlower

/-- Bounds of a type that is told are settled by their texts, and by whether they belong to their
ranges. -/
theorem sameBound_of_written {subtype : Nat} {kind : Kind} {inclusive inclusive' : Bool}
    {bound bound' : Option (List UInt8)} (hkind : kindOf? subtype = some kind)
    (htold : kind.IsTold) (h : ∀ raw ∈ bound, Payload subtype raw)
    (h' : ∀ raw ∈ bound', Payload subtype raw)
    (hwritten : (bound.map fun raw => (boundText (decodeOrFallback subtype raw).render).toList) =
      bound'.map fun raw => (boundText (decodeOrFallback subtype raw).render).toList)
    (hinclusive : ∀ raw ∈ bound, ∀ raw' ∈ bound', inclusive = inclusive') :
    SameBound (shownBound subtype inclusive bound) (shownBound subtype inclusive' bound') := by
  cases bound with
  | none =>
      cases bound' with
      | none => rfl
      | some raw' => cases hwritten
  | some raw =>
      cases bound' with
      | none => cases hwritten
      | some raw' =>
          have htext := String.toList_inj.1 (Option.some.inj hwritten)
          have hvalue := (form_of_payload hkind htold (h raw rfl)).eq_of_boundText_eq
            (form_of_payload hkind htold (h' raw' rfl)) htext
          change some (_, inclusive) = some (_, inclusive')
          rw [hvalue, hinclusive raw rfl raw' rfl]

/-- The payload of a range is decoded to the empty range or to one with the bounds in it. -/
theorem exists_of_payload (subtype : Nat) {Bound : List UInt8 → Prop} {bs : List UInt8}
    (h : RangePayload Bound bs) : decodeRange subtype bs = some .emptyRange ∨
      ∃ lower upper i j, (∀ raw ∈ lower, Bound raw) ∧ (∀ raw ∈ upper, Bound raw) ∧
        decodeRange subtype bs =
          some (.range (shownBound subtype i lower) (shownBound subtype j upper)) := by
  cases h with
  | empty hempty => exact .inl (decodeRange_empty subtype hempty)
  | @bounded flags lower upper hflags hlower hupper hlow hhigh =>
      exact .inr ⟨lower, upper, _, _, fun raw hraw => (hlow raw hraw).2,
        fun raw hraw => (hhigh raw hraw).2, decodeRange_bounded subtype hflags hlower hupper
          (fun raw hraw => (hlow raw hraw).1) fun raw hraw => (hhigh raw hraw).1⟩

/-- The bounds of ranges over a type that is told are settled by the text. -/
theorem sameRange_of_rangeText_eq {subtype : Nat} {i j i' j' : Bool}
    {lower upper lower' upper' : Option (List UInt8)} (htold : IsTold subtype)
    (hlow : ∀ raw ∈ lower, Payload subtype raw) (hhigh : ∀ raw ∈ upper, Payload subtype raw)
    (hlow' : ∀ raw ∈ lower', Payload subtype raw) (hhigh' : ∀ raw ∈ upper', Payload subtype raw)
    (h : rangeText (renderBound (shownBound subtype i lower))
        (renderBound (shownBound subtype j upper)) =
      rangeText (renderBound (shownBound subtype i' lower'))
        (renderBound (shownBound subtype j' upper'))) :
    SameRange (.range (shownBound subtype i lower) (shownBound subtype j upper))
      (.range (shownBound subtype i' lower') (shownBound subtype j' upper')) := by
  obtain ⟨kind, hkind, htold⟩ := htold
  have hseparable {bound : Option (List UInt8)} (hbound : ∀ raw ∈ bound, Payload subtype raw) :
      SeparableIfAny kind.partCount
        (bound.map fun raw => (boundText (decodeOrFallback subtype raw).render).toList) := by
    intro cs hcs
    obtain ⟨raw, hraw, rfl⟩ := Option.map_eq_some_iff.1 hcs
    exact (form_of_payload hkind htold (hbound raw hraw)).separable
  obtain ⟨hopening, hclosing, hinner⟩ := eq_of_rangeText_eq h
  simp only [writtenBound_eq] at hinner
  obtain ⟨hlower, hupper⟩ := separable_inj (hseparable hlow) (hseparable hlow')
    (hseparable hhigh) (hseparable hhigh') hinner
  refine .bounded (sameBound_of_written hkind htold hlow hlow' hlower ?_)
    (sameBound_of_written hkind htold hhigh hhigh' hupper ?_)
  · rintro raw rfl raw' rfl
    cases i <;> cases i' <;> first | rfl | cases hopening
  · rintro raw rfl raw' rfl
    cases j <;> cases j' <;> first | rfl | cases hclosing

/-- The ranges over a type that is told are told apart by their texts. -/
theorem sameRange_of_render_eq {subtype : Nat} (htold : IsTold subtype) {bs bs' : List UInt8}
    {v v' : Native} (h : RangePayload (Payload subtype) bs)
    (h' : RangePayload (Payload subtype) bs') (hv : decodeRange subtype bs = some v)
    (hv' : decodeRange subtype bs' = some v')
    (hrender : v.render = v'.render) : SameRange v v' := by
  rcases exists_of_payload subtype h with hempty |
    ⟨lower, upper, i, j, hlow, hhigh, hbounds⟩
  · obtain rfl := Option.some.inj (hempty.symm.trans hv)
    rcases exists_of_payload subtype h' with hempty' | ⟨lower', upper', i', j', -, -, hbounds'⟩
    · obtain rfl := Option.some.inj (hempty'.symm.trans hv')
      exact .empty
    · obtain rfl := Option.some.inj (hbounds'.symm.trans hv')
      exact absurd (Json.str.inj hrender).symm (rangeText_ne_empty _ _)
  · obtain rfl := Option.some.inj (hbounds.symm.trans hv)
    rcases exists_of_payload subtype h' with hempty' |
      ⟨lower', upper', i', j', hlow', hhigh', hbounds'⟩
    · obtain rfl := Option.some.inj (hempty'.symm.trans hv')
      exact absurd (Json.str.inj hrender) (rangeText_ne_empty _ _)
    · obtain rfl := Option.some.inj (hbounds'.symm.trans hv')
      exact sameRange_of_rangeText_eq htold hlow hhigh hlow' hhigh' (Json.str.inj hrender)

/-! ## Texts that are ambiguous -/

/-- A type that is not told has a value with an empty text. -/
theorem exists_empty_of_not_isTold {subtype : Nat} (h : ¬ IsTold subtype) :
    ∃ raw, Payload subtype raw ∧ raw.length < 2147483648 ∧
      boundText (decodeOrFallback subtype raw).render = "" := by
  cases hkind : kindOf? subtype with
  | none =>
      refine ⟨[], by rw [Payload, hkind]; trivial, by decide, ?_⟩
      rw [decodeOrFallback, decode_eq_none hkind]
      rfl
  | some kind =>
      have hnot : ¬ kind.IsTold := fun htold => h ⟨kind, hkind, htold⟩
      have hscalar : ∀ subtype, kind ≠ .range subtype := by
        rintro subtype rfl
        exact hnot trivial
      have hshown {raw : List UInt8} {v : Native} (hv : decodeScalar kind raw = some v) :
          decodeOrFallback subtype raw = v := by
        rw [decodeOrFallback, decode_eq_decodeScalar hkind hscalar, hv]
        rfl
      have htakes {raw : List UInt8} (hraw : kind.Takes raw) : Payload subtype raw := by
        rw [Payload, hkind]
        cases kind
        case range subtype => exact absurd rfl (hscalar subtype)
        all_goals exact hraw
      cases kind
      case bytea =>
        exact ⟨[], htakes ⟨rfl, nofun⟩, by decide, by rw [hshown rfl]; rfl⟩
      case char => exact ⟨[], htakes ⟨rfl, nofun⟩, by decide, by rw [hshown rfl]; rfl⟩
      case text => exact ⟨[], htakes ⟨rfl, nofun⟩, by decide, by rw [hshown rfl]; rfl⟩
      case json => exact ⟨[34, 34], htakes ⟨rfl, nofun⟩, by decide, by rw [hshown rfl]; rfl⟩
      case jsonb => exact ⟨[1, 34, 34], htakes ⟨rfl, nofun⟩, by decide, by rw [hshown rfl]; rfl⟩
      case bits => exact ⟨[0, 0, 0, 0], htakes ⟨rfl, nofun⟩, by decide, by rw [hshown rfl]; rfl⟩
      all_goals exact absurd trivial hnot

/-- A bound without a text looks like none. -/
theorem exists_ambiguous {subtype : Nat} {raw : List UInt8} (hraw : Payload subtype raw)
    (hlength : raw.length < 2147483648)
    (hempty : boundText (decodeOrFallback subtype raw).render = "") :
    ∃ bs bs' v v', RangePayload (Payload subtype) bs ∧ RangePayload (Payload subtype) bs' ∧
      decodeRange subtype bs = some v ∧ decodeRange subtype bs' = some v' ∧
      v.render = v'.render ∧ ¬ SameRange v v' := by
  have hbound (x) (hx : x ∈ some raw) : x.length < 2147483648 ∧ Payload subtype x := by
    cases hx
    exact ⟨hlength, hraw⟩
  have hopen : RangePayload (Payload subtype) (0x18 :: (sendRaw none ++ sendRaw none)) :=
    .bounded rfl rfl rfl nofun nofun
  have hbounded : RangePayload (Payload subtype) (0x10 :: (sendRaw (some raw) ++ sendRaw none)) :=
    .bounded rfl rfl rfl hbound nofun
  refine ⟨_, _, _, _, hopen, hbounded, decodeRange_bounded subtype rfl rfl rfl nofun nofun,
    decodeRange_bounded subtype rfl rfl rfl (fun x hx => (hbound x hx).1) nofun, ?_, ?_⟩
  · change Json.str (rangeText none none) =
      .str (rangeText (some (boundText (decodeOrFallback subtype raw).render, false)) none)
    rw [hempty]
    rfl
  · exact fun h => nomatch h.sameBound

/-! ## Bounds without commas -/

/-- A bound is a text that is not empty and has no comma, if there is one. -/
def IsWord (bound : Option (Native × Bool)) : Prop :=
  ∀ x ∈ bound, ∃ s : String, x.1.render = .str s ∧ s ≠ "" ∧ ',' ∉ s.toList

/-- A range whose bounds are such texts. -/
def HasWords : Native → Prop
  | .range lower upper => IsWord lower ∧ IsWord upper
  | _ => True

section

variable {bound bound' lower upper lower' upper' : Option (Native × Bool)}

theorem IsWord.not_mem (h : IsWord bound) : ',' ∉ (written (renderBound bound)).getD [] := by
  cases bound with
  | none => exact List.not_mem_nil
  | some x =>
      obtain ⟨s, hs, -, hcomma⟩ := h x rfl
      change ',' ∉ (boundText x.1.render).toList
      rw [hs]
      exact hcomma

theorem IsWord.sameBound (h : IsWord bound) (h' : IsWord bound')
    (htext : (written (renderBound bound)).getD [] = (written (renderBound bound')).getD [])
    (hinclusive : ∀ x ∈ bound, ∀ y ∈ bound', x.2 = y.2) : SameBound bound bound' := by
  cases bound with
  | none =>
      cases bound' with
      | none => rfl
      | some y =>
          obtain ⟨t, ht, hne, -⟩ := h' y rfl
          change [] = (boundText y.1.render).toList at htext
          rw [ht] at htext
          exact absurd (String.toList_eq_nil_iff.1 htext.symm) hne
  | some x =>
      obtain ⟨s, hs, hne, -⟩ := h x rfl
      change (boundText x.1.render).toList = _ at htext
      rw [hs] at htext
      cases bound' with
      | none => exact absurd (String.toList_eq_nil_iff.1 htext) hne
      | some y =>
          obtain ⟨t, ht, -, -⟩ := h' y rfl
          change _ = (boundText y.1.render).toList at htext
          rw [ht] at htext
          change some (x.1.render, x.2) = some (y.1.render, y.2)
          rw [hs, ht, hinclusive x rfl y rfl, show s = t from String.toList_inj.1 htext]

/-- The first comma comes after a text without one. -/
theorem eq_of_append_comma {cs cs' r r' : List Char} (h : ',' ∉ cs) (h' : ',' ∉ cs')
    (heq : cs ++ ',' :: r = cs' ++ ',' :: r') : cs = cs' ∧ r = r' := by
  rcases List.append_eq_append_iff.1 heq with ⟨as, rfl, hr⟩ | ⟨as, rfl, hr⟩ <;> cases as with
    | nil => simp_all
    | cons a as =>
        obtain ⟨rfl, -⟩ := List.cons.inj hr
        simp_all

theorem sameRange_of_isWord (hlow : IsWord lower) (hhigh : IsWord upper) (hlow' : IsWord lower')
    (hhigh' : IsWord upper') (h : rangeText (renderBound lower) (renderBound upper) =
      rangeText (renderBound lower') (renderBound upper')) :
    SameRange (.range lower upper) (.range lower' upper') := by
  obtain ⟨hopening, hclosing, hinner⟩ := eq_of_rangeText_eq h
  obtain ⟨hlower, hupper⟩ := eq_of_append_comma hlow.not_mem hlow'.not_mem hinner
  refine .bounded (hlow.sameBound hlow' hlower ?_) (hhigh.sameBound hhigh' hupper ?_)
  · rintro ⟨x, i⟩ rfl ⟨y, j⟩ rfl
    cases i <;> cases j <;> first | rfl | cases hopening
  · rintro ⟨x, i⟩ rfl ⟨y, j⟩ rfl
    cases i <;> cases j <;> first | rfl | cases hclosing

end

theorem decodeRange_cases {subtype : Nat} {bs : List UInt8} {v : Native}
    (h : decodeRange subtype bs = some v) :
    v = .emptyRange ∨ ∃ lower upper, v = .range lower upper := by
  have hgives : Read.Gives (fun v => v = .emptyRange ∨ ∃ lower upper, v = .range lower upper)
      (Read.range (decode subtype)) := by
    refine Read.gives_bind fun flags => ?_
    dsimp only
    split
    · exact Read.gives_pure (.inl rfl)
    · exact Read.gives_bind fun lower => Read.gives_bind fun upper =>
        Read.gives_pure (.inr ⟨lower, upper, rfl⟩)
  exact hgives.whole h

/-- Whatever they are over, ranges whose bounds have no commas are told apart by their texts. -/
theorem sameRange_of_hasWords {subtype : Nat} {bs bs' : List UInt8} {v v' : Native}
    (hv : decodeRange subtype bs = some v) (hv' : decodeRange subtype bs' = some v')
    (h : HasWords v) (h' : HasWords v') (hrender : v.render = v'.render) : SameRange v v' := by
  rcases decodeRange_cases hv with rfl | ⟨lower, upper, rfl⟩ <;>
    rcases decodeRange_cases hv' with rfl | ⟨lower', upper', rfl⟩
  · exact .empty
  · exact absurd (Json.str.inj hrender).symm (rangeText_ne_empty _ _)
  · exact absurd (Json.str.inj hrender) (rangeText_ne_empty _ _)
  · exact sameRange_of_isWord h.1 h.2 h'.1 h'.2 (Json.str.inj hrender)

/-- Every payload of a range is decoded. The texts tell the ranges over a type apart if and only if
the type has a decoder and is no type of texts, documents, bytes or bits, of which a value can have
an empty text. Over every type they tell those ranges apart whose bounds are texts that are not
empty and have no commas. -/
theorem decodeRange_told_iff (subtype : Nat) :
    (∀ bs, RangePayload (Payload subtype) bs → ∃ v, decodeRange subtype bs = some v) ∧
    ((∀ bs bs' v v', RangePayload (Payload subtype) bs → RangePayload (Payload subtype) bs' →
      decodeRange subtype bs = some v → decodeRange subtype bs' = some v' →
      v.render = v'.render → SameRange v v') ↔ IsTold subtype) ∧
    ∀ bs bs' v v', decodeRange subtype bs = some v → decodeRange subtype bs' = some v' →
      HasWords v → HasWords v' → v.render = v'.render → SameRange v v' := by
  refine ⟨fun bs h => ?_, ⟨fun h => ?_, fun htold bs bs' v v' => sameRange_of_render_eq htold⟩,
    fun bs bs' v v' => sameRange_of_hasWords⟩
  · rcases exists_of_payload subtype h with hempty | ⟨_, _, _, _, -, -, hbounds⟩
    · exact ⟨_, hempty⟩
    · exact ⟨_, hbounds⟩
  · by_contra hnot
    obtain ⟨raw, hraw, hlength, hempty⟩ := exists_empty_of_not_isTold hnot
    obtain ⟨bs, bs', v, v', hbs, hbs', hv, hv', hrender, hne⟩ :=
      exists_ambiguous hraw hlength hempty
    exact hne (h bs bs' v v' hbs hbs' hv hv' hrender)

/-- Ranges over integers are told apart, and here is one of them. -/
theorem decodeRange_told_integers :
    RangePayload (Payload 23) [0x02, 0, 0, 0, 4, 0, 0, 0, 1, 0, 0, 0, 4, 0, 0, 0, 5] ∧ IsTold 23 ∧
      ∀ bs bs' v v', RangePayload (Payload 23) bs → RangePayload (Payload 23) bs' →
        decodeRange 23 bs = some v → decodeRange 23 bs' = some v' → v.render = v'.render →
        SameRange v v' := by
  have htold : IsTold 23 := ⟨.int4, rfl, trivial⟩
  have hpayload : RangePayload (Payload 23)
      (0x02 :: (sendRaw (some [0, 0, 0, 1]) ++ sendRaw (some [0, 0, 0, 5]))) := by
    refine .bounded rfl rfl rfl ?_ ?_
    · rintro _ ⟨⟩
      exact ⟨by decide, rfl, nofun⟩
    · rintro _ ⟨⟩
      exact ⟨by decide, rfl, nofun⟩
  exact ⟨hpayload, htold, (decodeRange_told_iff 23).2.1.2 htold⟩

/-- The range from `a,b` to `c` has the text of the one from `a` to `b,c`. A date beyond the
calendar is shown as the text that its bytes are, and then the same happens to ranges of dates. -/
theorem decodeRange_shares_text :
    let bs : List UInt8 := [0x02, 0, 0, 0, 3, 97, 44, 98, 0, 0, 0, 1, 99]
    let bs' : List UInt8 := [0x02, 0, 0, 0, 1, 97, 0, 0, 0, 3, 98, 44, 99]
    let v := Native.range (some (.text "a,b", true)) (some (.text "c", false))
    let v' := Native.range (some (.text "a", true)) (some (.text "b,c", false))
    (RangePayload (Payload 25) bs ∧ RangePayload (Payload 25) bs' ∧
      decodeRange 25 bs = some v ∧ decodeRange 25 bs' = some v' ∧ v.render = v'.render ∧
      ¬ SameRange v v') ∧
    ∃ w w', decodeRange 1082 [0x10, 0, 0, 0, 4, 44, 97, 97, 97] = some w ∧
      decodeRange 1082 [0x08, 0, 0, 0, 4, 97, 97, 97, 44] = some w' ∧ w.render = w'.render ∧
      ¬ SameRange w w' := by
  intro bs bs' v v'
  have hbs : RangePayload (Payload 25) (0x02 :: (sendRaw (some [97, 44, 98]) ++
      sendRaw (some [99]))) := by
    refine .bounded rfl rfl rfl ?_ ?_
    · rintro _ ⟨⟩
      exact ⟨by decide, rfl, nofun⟩
    · rintro _ ⟨⟩
      exact ⟨by decide, rfl, nofun⟩
  have hbs' : RangePayload (Payload 25) (0x02 :: (sendRaw (some [97]) ++
      sendRaw (some [98, 44, 99]))) := by
    refine .bounded rfl rfl rfl ?_ ?_
    · rintro _ ⟨⟩
      exact ⟨by decide, rfl, nofun⟩
    · rintro _ ⟨⟩
      exact ⟨by decide, rfl, nofun⟩
  have hv : decodeRange 25 [0x02, 0, 0, 0, 3, 97, 44, 98, 0, 0, 0, 1, 99] = some v := rfl
  have hv' : decodeRange 25 [0x02, 0, 0, 0, 1, 97, 0, 0, 0, 3, 98, 44, 99] = some v' := rfl
  refine ⟨⟨hbs, hbs', hv, hv', rfl, fun h => ?_⟩, _, _, rfl, rfl, rfl, fun h => nomatch h.sameBound⟩
  exact absurd h.sameBound (by simp [SameBound, Native.render])

end SqlGate.Wire
