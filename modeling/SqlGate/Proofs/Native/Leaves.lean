import Mathlib.Tactic.FieldSimp
import Mathlib.Tactic.Ring
import SqlGate.Proofs.Json.Places
import SqlGate.Proofs.QueryResult.Rereading
import SqlGate.Proofs.Wire.Exact
import SqlGate.Proofs.Wire.Grid

/-!
# Database values in JSON

A database value is a tree of arrays, and so is its JSON form. At each place of the one stands the
form of what stands at that place in the other (`at?_render_iff`), and only documents go on from
there, which are JSON themselves. So null stands for null and nothing else (`at?_render_null_iff`),
and nothing is rounded: an integer stays the integer that it is, also when the form of the whole
value is written and read again, and decimals and amounts are texts that show their numbers
(`value_moneyNumeral`).

## Widened numbers are finite

A number of single precision becomes the double that its shortest decimal names. That decimal is
rounded to the number itself in single precision, so it is below `2 ^ 128`, from which on everything
is rounded to infinity (`nearest_of_not_below`). So its double is finite if the number was
(`Single.isFinite_widen`).
-/

namespace SqlGate.Number

variable {f : Format} {num den : Nat} {e : Int}

theorem le_divNearest (num den : Nat) : num / den ≤ divNearest num den := by
  unfold divNearest
  dsimp only
  split_ifs <;> omega

/-- A quotient is out of range if it is not below the power of two that follows the greatest
number. -/
theorem nearest_of_not_below (hden : den ≠ 0) (h : ¬ Below num den (e + f.precision))
    (hp : 0 < f.precision) (hleast : f.least ≤ e)
    (htop : (e + 1 - f.least).toNat * f.hidden + f.hidden = f.infinite) :
    f.nearest num den = f.infinite := by
  have hnum : num ≠ 0 := by
    rintro rfl
    refine h ?_
    rw [Below, Nat.zero_mul]
    exact Nat.mul_pos (Nat.pos_of_ne_zero hden) (Nat.two_pow_pos _)
  have hexponent := isExponent_exponentOf hnum hden (f := f)
  generalize hE : f.exponentOf num den = E at hexponent
  have hlt : e < E := Int.not_le.1 fun hle => h (hexponent.fits.mono (by omega))
  have hfield : (e + 1 - f.least).toNat * f.hidden ≤ (E - f.least).toNat * f.hidden :=
    Nat.mul_le_mul_right _ (by omega)
  -- The exponent is not the least one, so the significand has its full length.
  have hfull : ¬ Below num den (E + (f.precision - 1 : Nat)) := by
    rcases hexponent.minimal with heq | hmin
    · omega
    · rwa [show E + ((f.precision - 1 : Nat) : Int) = E - 1 + f.precision by omega]
  have hsignificand : f.hidden ≤ (scaleDown num den E).1 / (scaleDown num den E).2 := by
    have hiff : (scaleDown num den E).1 / (scaleDown num den E).2 < f.hidden ↔
        Below num den (E + (f.precision - 1 : Nat)) :=
      scaleDown_lt_iff (f := ⟨f.precision - 1, 0⟩) E (Nat.pos_of_ne_zero hden)
    exact Nat.not_lt.1 fun hshort => hfull (hiff.1 hshort)
  have hround := le_divNearest (scaleDown num den E).1 (scaleDown num den E).2
  rw [Format.nearest, if_neg hnum, hE]
  exact Nat.min_eq_right (htop ▸ Nat.add_le_add hfield (hsignificand.trans hround))

/-- What is in range in single precision is below `2 ^ 128`. -/
theorem below_of_nearest_lt (hden : den ≠ 0) (h : single.nearest num den < single.infinite) :
    Below num den 128 := by
  by_contra hnot
  have hout := nearest_of_not_below (f := single) (e := 104) hden hnot (by decide) (by decide)
    (by decide)
  omega

/-- A number of single precision that is finite is widened to a finite double. -/
theorem Single.isFinite_widen {x : Single} {negative : Bool} {m : Nat} {e : Int}
    (h : x.value = .finite negative m e) : x.widen.IsFinite := by
  obtain ⟨-, hfinite, hsplit⟩ := split_of_decode h
  unfold widen
  rw [h]
  dsimp only
  split_ifs with hm
  · exact Json.isFinite_ofMagnitude (by decide) negative
  · have hpos : x.bits.toNat % single.signBit ≠ 0 := mt (eq_zero_iff_of_split hsplit).2 hm
    have hnearest := nearest_shortest (f := single) (by decide) hpos hfinite
    generalize shortest single (x.bits.toNat % single.signBit) = d at hnearest ⊢
    have hden := decimalQuotient_ne_zero d.digits d.exponent
    have hbelow : Below (Double.decimalQuotient d.digits d.exponent).1
        (Double.decimalQuotient d.digits d.exponent).2 128 :=
      below_of_nearest_lt hden (hnearest.trans_lt hfinite)
    exact Json.isFinite_ofMagnitude (Json.nearest_of_below hden (hbelow.mono (by decide))) negative

/-- A number of single precision keeps its value if that is no number. -/
theorem Single.value_widen {x : Single} :
    (x.value = .nan → x.widen.value = .nan) ∧
      ∀ negative, x.value = .infinity negative → x.widen.value = .infinity negative := by
  refine ⟨fun h => ?_, fun negative h => ?_⟩
  · rw [widen, h]
    change (Double.mk 0x7FF8000000000000).value = .nan
    decide
  · rw [widen, h]
    change (Double.ofMagnitude negative double.infinite).value = .infinity negative
    cases negative <;> decide

end SqlGate.Number

namespace SqlGate.Native

open Json Number

/-! ## Places -/

/-- A value that is JSON itself: a document, or bytes that hold one. -/
inductive IsDocument : Native → Prop where
  | json (v : Json) : IsDocument (.json v)
  | bytes {bs : List UInt8} {s : String} {v : Json} (hs : Text.Utf8.decode? bs = some s)
    (hv : ofString? s = some v) : IsDocument (.bytes bs)

theorem renderAll_eq (xs : List Native) : renderAll xs = xs.map render := by
  induction xs with
  | nil => rfl
  | cons x xs ih => rw [renderAll, ih, List.map_cons]

/-- Of bytes that hold no document there is a text. -/
theorem exists_render_bytes {bs : List UInt8} (h : ¬ IsDocument (.bytes bs)) :
    ∃ t, (Native.bytes bs).render = .str t := by
  refine ⟨Text.Base64.encode bs, ?_⟩
  rw [render, ofBytes]
  cases hbs : (Text.Utf8.decode? bs).bind ofString? with
  | none => rfl
  | some v =>
      obtain ⟨s, hs, hv⟩ := Option.bind_eq_some_iff.1 hbs
      exact absurd (.bytes hs hv) h

theorem ofDouble_ne_null (x : Double) : ofDouble x ≠ .null := by
  cases hvalue : x.value with
  | finite negative m e => simp [ofDouble_of_finite hvalue]
  | nan | infinity negative => simp [ofDouble, hvalue]

theorem step?_ofDouble (x : Double) (s : Step) : (ofDouble x).step? s = none := by
  cases hvalue : x.value with
  | finite negative m e =>
      rw [ofDouble_of_finite hvalue]
      rfl
  | nan | infinity negative =>
      rw [ofDouble, hvalue]
      rfl

/-- What is neither an array nor a document has no parts. -/
theorem step?_render {x : Native} (harray : ∀ xs, x ≠ .array xs) (hdoc : ¬ x.IsDocument)
    (s : Step) : x.render.step? s = none := by
  match x with
  | .array xs => exact absurd rfl (harray xs)
  | .json v => exact absurd (.json v) hdoc
  | .bytes bs =>
      obtain ⟨t, ht⟩ := exists_render_bytes hdoc
      rw [ht]
      rfl
  | .real x => exact step?_ofDouble x.widen s
  | .double x => exact step?_ofDouble x s
  | .null | .bool _ | .int _ | .path true _ | .path false _ | .numeric _ | .money _ | .text _
  | .uuid _ | .timestamp _ | .date _ | .time _ | .timeTz _ _ | .interval _ | .inet _ | .mac _
  | .point _ | .line _ _ _ | .segment _ _ | .box _ _ | .polygon _ | .circle _ _ | .bits _ _
  | .emptyRange | .range _ _ => rfl

/-- Null is the form of null, and perhaps of a document. -/
theorem render_eq_null_iff {x : Native} (hdoc : ¬ x.IsDocument) :
    x.render = .null ↔ x = .null := by
  match x with
  | .null => exact iff_of_true rfl rfl
  | .json v => exact absurd (.json v) hdoc
  | .bytes bs =>
      obtain ⟨t, ht⟩ := exists_render_bytes hdoc
      rw [ht]
      exact iff_of_false nofun nofun
  | .real x => exact iff_of_false (ofDouble_ne_null x.widen) nofun
  | .double x => exact iff_of_false (ofDouble_ne_null x) nofun
  | .bool _ | .int _ | .path true _ | .path false _ | .numeric _ | .money _ | .text _
  | .uuid _ | .timestamp _ | .date _ | .time _ | .timeTz _ _ | .interval _ | .inet _ | .mac _
  | .point _ | .line _ _ _ | .segment _ _ | .box _ _ | .polygon _ | .circle _ _ | .bits _ _
  | .emptyRange | .range _ _ | .array _ => exact iff_of_false nofun nofun

theorem step?_render_array (xs : List Native) (s : Step) {v : Json} :
    (Native.array xs).render.step? s = some v ↔
      ∃ i x, s = .item i ∧ xs[i]? = some x ∧ v = x.render := by
  rw [render, renderAll_eq]
  cases s with
  | member i => simp [step?]
  | item i => simp [step?, eq_comm]

/-- What stands at a place stands at that place in the JSON form. -/
theorem at?_render {x y : Native} {p : List Nat} (h : x.at? p = some y) :
    x.render.at? (p.map .item) = some y.render := by
  induction p generalizing x with
  | nil =>
      cases h
      rfl
  | cons i p ih =>
      match x with
      | .array xs =>
          obtain ⟨z, hz, hy⟩ := Option.bind_eq_some_iff.1 h
          rw [List.map_cons, at?_cons, (step?_render_array xs _).2 ⟨i, z, rfl, hz, rfl⟩]
          exact ih hy

/-- The places of the JSON form of a value are those of the value, and those in its documents. -/
theorem at?_render_iff {x : Native} {q : List Step} {v : Json} : x.render.at? q = some v ↔
    ∃ p r y, q = p.map .item ++ r ∧ x.at? p = some y ∧ y.render.at? r = some v ∧
      (r = [] ∨ y.IsDocument) := by
  constructor
  · intro h
    induction q generalizing x with
    | nil => exact ⟨[], [], x, rfl, rfl, h, .inl rfl⟩
    | cons s q ih =>
        by_cases hdoc : x.IsDocument
        · exact ⟨[], s :: q, x, rfl, rfl, h, .inr hdoc⟩
        · obtain ⟨w, hw, hv⟩ := Option.bind_eq_some_iff.1 h
          by_cases harray : ∃ xs, x = .array xs
          · obtain ⟨xs, rfl⟩ := harray
            obtain ⟨i, y, rfl, hi, rfl⟩ := (step?_render_array xs s).1 hw
            obtain ⟨p, r, z, rfl, hp, hr, hend⟩ := ih hv
            exact ⟨i :: p, r, z, rfl, Option.bind_eq_some_iff.2 ⟨y, hi, hp⟩, hr, hend⟩
          · cases (step?_render (fun xs hx => harray ⟨xs, hx⟩) hdoc s).symm.trans hw
  · rintro ⟨p, r, y, rfl, hp, hr, -⟩
    rw [at?_append, at?_render hp]
    exact hr

/-- Null stands where null stands, and where it stands in a document. -/
theorem at?_render_null_iff {x : Native} {q : List Step} : x.render.at? q = some .null ↔
    (∃ p, q = p.map .item ∧ x.at? p = some .null) ∨
      ∃ p r y, q = p.map .item ++ r ∧ x.at? p = some y ∧ y.IsDocument ∧
        y.render.at? r = some .null := by
  rw [at?_render_iff]
  constructor
  · rintro ⟨p, r, y, rfl, hp, hr, hend⟩
    by_cases hdoc : y.IsDocument
    · exact .inr ⟨p, r, y, rfl, hp, hdoc, hr⟩
    · obtain rfl := hend.resolve_right hdoc
      obtain rfl := (render_eq_null_iff hdoc).1 (Option.some.inj hr)
      exact .inl ⟨p, List.append_nil _, hp⟩
  · rintro (⟨p, rfl, hp⟩ | ⟨p, r, y, rfl, hp, hdoc, hr⟩)
    · exact ⟨p, [], .null, (List.append_nil _).symm, hp, rfl, .inl rfl⟩
    · exact ⟨p, r, y, rfl, hp, hr, .inr hdoc⟩

/-! ## Numbers -/

/-- How a number of a value is shown, `y` being the double that stands for it: a number that is not
finite by its name. -/
def FloatShown (value : Value) (y : Double) (v : Json) : Prop :=
  match value with
  | .nan => v = .str "NaN"
  | .infinity false => v = .str "Infinity"
  | .infinity true => v = .str "-Infinity"
  | .finite _ _ _ => v = .num (.real y) ∧ y.IsFinite

theorem floatShown_ofDouble (x : Double) : FloatShown x.value x (ofDouble x) := by
  cases hvalue : x.value with
  | nan => rw [FloatShown, ofDouble, hvalue]
  | infinity negative => cases negative <;> rw [FloatShown, ofDouble, hvalue] <;> rfl
  | finite negative m e => exact ⟨ofDouble_of_finite hvalue, negative, m, e, hvalue⟩

theorem floatShown_widen (x : Single) : FloatShown x.value x.widen (ofDouble x.widen) := by
  have hshown := floatShown_ofDouble x.widen
  cases hvalue : x.value with
  | nan => rwa [Single.value_widen.1 hvalue] at hshown
  | infinity negative => rwa [Single.value_widen.2 negative hvalue] at hshown
  | finite negative m e =>
      obtain ⟨_, _, _, hfinite⟩ := Single.isFinite_widen hvalue
      exact ⟨ofDouble_of_finite hfinite, _, _, _, hfinite⟩

/-- The decimal of an amount: two places. -/
def moneyNumeral (cents : Int64) : Wire.Numeral where
  negative := cents < 0
  whole := Text.digits (cents.toInt.natAbs / 100)
  part := (Text.padNat 2 (cents.toInt.natAbs % 100)).toList

theorem isPadded_cents (cents : Int64) :
    Text.IsPadded 2 (cents.toInt.natAbs % 100) (moneyNumeral cents).part :=
  Text.isPadded_padNat_of_lt (by decide) (Nat.mod_lt _ (by decide))

theorem text_moneyNumeral (cents : Int64) : (moneyNumeral cents).text = moneyText cents := by
  have hpart := (isPadded_cents cents).ne_nil (by decide)
  apply String.toList_inj.1
  rw [Wire.Numeral.text, if_neg hpart, moneyText, signed, String.toList_ofList]
  simp only [moneyNumeral, Text.decimal_natCast]
  by_cases hneg : cents < 0 <;> simp [hneg]

theorem written_moneyNumeral (cents : Int64) : (moneyNumeral cents).Written where
  whole_ne := Nat.toDigits_ne_nil
  whole_digits _ hc := Text.isDigit_of_mem_digits hc
  part_digits := (isPadded_cents cents).isDigit

/-- The text of an amount shows the hundredths, whatever number of them. -/
theorem value_moneyNumeral (cents : Int64) :
    (moneyNumeral cents).value = (cents.toInt : ℚ) / 100 := by
  have hpart := isPadded_cents cents
  have hsum : ((cents.toInt.natAbs / 100 : Nat) : ℚ) + (cents.toInt.natAbs % 100 : Nat) / 10 ^ 2 =
      (cents.toInt.natAbs : ℚ) / 100 := by
    have hdiv := Nat.div_add_mod cents.toInt.natAbs 100
    have hcast : (cents.toInt.natAbs : ℚ) =
        100 * (cents.toInt.natAbs / 100 : Nat) + (cents.toInt.natAbs % 100 : Nat) := by
      exact_mod_cast hdiv.symm
    rw [hcast]
    ring
  rw [Wire.Numeral.value, hpart.length_eq, hpart.value_eq]
  change (if decide (cents < 0) then (-1 : ℚ) else 1) *
    ((Nat.ofDigitChars 10 (Text.digits (cents.toInt.natAbs / 100)) 0 : ℚ) + _) = _
  rw [Text.ofDigitChars_digits, hsum]
  have hsign : cents < 0 ↔ cents.toInt < 0 := by
    rw [Int64.lt_iff_toInt_lt]
    rfl
  by_cases hneg : cents < 0
  · have habs : (cents.toInt.natAbs : ℚ) = -cents.toInt := by
      rw [Nat.cast_natAbs, abs_of_neg (hsign.1 hneg), Int.cast_neg]
    rw [decide_eq_true hneg, habs, if_pos rfl]
    ring
  · have habs : (cents.toInt.natAbs : ℚ) = cents.toInt := by
      rw [Nat.cast_natAbs, abs_of_nonneg (not_lt.1 fun hlt => hneg (hsign.2 hlt))]
    rw [decide_eq_false hneg, habs, if_neg Bool.false_ne_true, one_mul]

/-! ## All values -/

/-- What the JSON form of a value shows of it. -/
def Shown : Native → Json → Prop
  | .null, v => v = .null
  | .bool b, v => v = .bool b
  | .int i, v => v = .num (.int i.toInt) ∧ ofString? v.text = some v
  | .real x, v => FloatShown x.value x.widen v
  | .double x, v => FloatShown x.value x v
  | .numeric (.finite digits), v => v = .str digits
  | .numeric .nan, v => v = .str "NaN"
  | .numeric .infinity, v => v = .str "Infinity"
  | .numeric .negInfinity, v => v = .str "-Infinity"
  | .money cents, v => ∃ n : Wire.Numeral, v = .str n.text ∧ n.Written ∧
      n.value = (cents.toInt : ℚ) / 100
  | .array xs, v => v.outside = .arr xs.length
  | .json w, v => v = w
  | .bytes bs, v => IsDocument (.bytes bs) ∨ ∃ t, v = .str t
  | _, v => ∃ t, v = .str t

theorem ofString?_toInt (i : Int64) :
    ofString? (Json.num (.int i.toInt)).text = some (.num (.int i.toInt)) := by
  have hlow := i.le_toInt
  have hhigh := i.toInt_lt
  exact ofString?_int (by omega) (by omega)

theorem shown_render (x : Native) : x.Shown x.render := by
  match x with
  | .null | .bool _ | .json _ => rfl
  | .int i => exact ⟨rfl, ofString?_toInt i⟩
  | .real x => exact floatShown_widen x
  | .double x => exact floatShown_ofDouble x
  | .numeric (.finite _) | .numeric .nan | .numeric .infinity | .numeric .negInfinity => rfl
  | .money cents =>
      exact ⟨moneyNumeral cents, congrArg Json.str (text_moneyNumeral cents).symm,
        written_moneyNumeral cents, value_moneyNumeral cents⟩
  | .array xs =>
      rw [Shown, render, renderAll_eq, outside, List.length_map]
  | .bytes bs =>
      by_cases hdoc : IsDocument (.bytes bs)
      · exact .inl hdoc
      · exact .inr (exists_render_bytes hdoc)
  | .path true _ | .path false _ | .text _ | .uuid _ | .timestamp _ | .date _ | .time _
  | .timeTz _ _ | .interval _ | .inet _ | .mac _ | .point _ | .line _ _ _ | .segment _ _ | .box _ _
  | .polygon _ | .circle _ _ | .bits _ _ | .emptyRange | .range _ _ => exact ⟨_, rfl⟩

/-- An integer is still there when the form of the whole value has been written and read. -/
theorem at?_reread_int {x : Native} (h : ∀ d ∈ x.documents, Proper d) {w : Json}
    (hw : ofString? x.render.text = some w) {p : List Nat} {i : Int64}
    (hp : x.at? p = some (.int i)) : w.at? (p.map .item) = some (.num (.int i.toInt)) := by
  rw [ofString?_text (proper_render h)] at hw
  obtain ⟨depth, v, hv, hat⟩ := exists_at?_reread hw (at?_render hp)
  have hint : reread depth (.num (.int i.toInt)) = some (.num (.int i.toInt)) := by
    rw [reread]
    exact ofString?_toInt i
  rw [hat, ← hv]
  exact hint

/-- The JSON form of a value, however deep its arrays nest. At every place of the value stands what
shows the value there: arrays are as long, integers are the same and are read as the same again,
numbers that are not finite have their names, and decimals and amounts are texts of the same number.
Nothing stands anywhere else but in documents; and null stands where null does, and perhaps in a
document. The written form of the whole is read unless it nests too deep or a double in it is not
read; and all integers are in it then. -/
theorem render_keeps (x : Native) :
    (∀ p y, x.at? p = some y → ∃ v, x.render.at? (p.map .item) = some v ∧ y.Shown v) ∧
    (∀ q v, x.render.at? q = some v ↔ ∃ p r y, q = p.map .item ++ r ∧ x.at? p = some y ∧
      y.render.at? r = some v ∧ (r = [] ∨ y.IsDocument)) ∧
    (∀ q, x.render.at? q = some .null ↔ (∃ p, q = p.map .item ∧ x.at? p = some .null) ∨
      ∃ p r y, q = p.map .item ++ r ∧ x.at? p = some y ∧ y.IsDocument ∧
        y.render.at? r = some .null) ∧
    ((∀ d ∈ x.documents, Proper d) →
      ((ofString? x.render.text).isSome ↔
        nesting x.render < maxDepth ∧ ∀ d ∈ doubles x.render, (ofString? d.json).isSome) ∧
      ∀ w, ofString? x.render.text = some w → ∀ p i, x.at? p = some (.int i) →
        w.at? (p.map .item) = some (.num (.int i.toInt))) := by
  refine ⟨fun p y hp => ⟨_, at?_render hp, y.shown_render⟩, fun q v => at?_render_iff,
    fun q => at?_render_null_iff, fun h => ⟨?_, fun w hw p i => at?_reread_int h hw⟩⟩
  rw [ofString?_text (proper_render h)]
  exact isSome_reread_iff (proper_render h) (by decide)

/-- The least integer and the least amount, and a null and a number that is none further in. -/
theorem render_keeps_least :
    let x : Native := .array [.int Int64.minValue, .money Int64.minValue,
      .array [.null, .real ⟨0x7FC00000⟩]]
    let w : Json := .arr [.int (-9223372036854775808), .str "-92233720368547758.08",
      .arr [.null, .str "NaN"]]
    x.at? [0] = some (.int Int64.minValue) ∧ x.at? [1] = some (.money Int64.minValue) ∧
    (∀ d ∈ x.documents, Proper d) ∧
    (∃ v, x.render.at? [.item 1] = some v ∧ Shown (.money Int64.minValue) v) ∧
    x.render.at? [.item 2, .item 0] = some .null ∧ ofString? x.render.text = some w ∧
    w.at? [.item 0] = some (.num (.int (-9223372036854775808))) := by
  intro x w
  obtain ⟨hshown, -, hnull, hread⟩ := render_keeps x
  have hdocuments : ∀ d ∈ x.documents, Proper d := nofun
  have hrender : x.render = w := by
    have hmoney : moneyText Int64.minValue = "-92233720368547758.08" := by decide +kernel
    have hname : ofDouble (Single.widen ⟨0x7FC00000⟩) = .str "NaN" := by
      have hshown := floatShown_widen ⟨0x7FC00000⟩
      rwa [show Single.value ⟨0x7FC00000⟩ = .nan by decide] at hshown
    simp only [x, w, render, renderAll, hmoney, hname]
    rfl
  have hw : ofString? x.render.text = some w := by
    have hproper := proper_render hdocuments
    rw [hrender] at hproper ⊢
    rw [ofString?_text hproper]
    exact (reread_eq_some_iff hproper (by decide)).2 ⟨by decide, nofun⟩
  exact ⟨rfl, rfl, hdocuments, hshown [1] _ rfl, (hnull _).2 (.inl ⟨[2, 0], rfl, rfl⟩), hw,
    (hread hdocuments).2 w hw [0] _ rfl⟩

end SqlGate.Native
