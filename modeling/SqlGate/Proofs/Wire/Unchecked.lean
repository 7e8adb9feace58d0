import SqlGate.Proofs.Wire.Exact

/-!
# Decimals that nobody checked

The digits of a decimal and the word of its sign come off the payload as they are. So every payload
that has the layout of a decimal is decoded (`decode_decimal`), also where a digit is less than zero
or the sign is none that there is; such a sign goes for a plus.

The sign of a digit is shown in its four places. The text is still that of a decimal where no such
sign is shown, apart from one in front of all (`isDecimalText_text_iff`).
-/

namespace SqlGate.Wire

/-- A decimal whose header has room for its digits, each of two bytes. -/
structure Decimal.Fits (d : Decimal) : Prop where
  length : d.digits.length < 32768
  weight : -32768 ≤ d.weight ∧ d.weight ≤ 32767
  sign : d.sign < 65536
  scale : d.scale < 65536
  digits : ∀ x ∈ d.digits, -32768 ≤ x ∧ x ≤ 32767

/-- A text of digits, with so many of them after a point; none has none. -/
def IsDecimalText (places : Nat) (s : String) : Prop :=
  ∃ n : Numeral, n.Written ∧ n.part.length = places ∧ s = n.text

/-- No digit of which something is shown is less than zero; the first one may be where the decimal
has no sign of its own. -/
structure Decimal.Plain (d : Decimal) : Prop where
  first : d.isNegative → 0 ≤ d.weight → 0 ≤ d.digitAt 0
  whole : ∀ i, 0 < i → i ≤ d.weight → 0 ≤ d.digitAt i
  part : ∀ k, (row (fun j => d.digitAt (d.weight + 1 + j)) k).length < d.scale →
    0 ≤ d.digitAt (d.weight + 1 + k)

/-! ## Texts -/

theorem Numeral.toList_text (n : Numeral) : n.text.toList =
    (if n.negative then ['-'] else []) ++ n.whole ++
      if n.part = [] then [] else '.' :: n.part := by
  rw [text, String.toList_ofList]

/-- Where a sign is shown, it stands in front. -/
theorem Numeral.Written.not_mem_tail {n : Numeral} (h : n.Written) : '-' ∉ n.text.toList.tail := by
  have hdigit : ¬ Char.isDigit '-' := by decide
  have hwhole : '-' ∉ n.whole := fun hmem => hdigit (h.whole_digits _ hmem)
  have hrest : '-' ∉ n.whole ++ if n.part = [] then [] else '.' :: n.part := by
    have hpart : '-' ∉ n.part := fun hmem => hdigit (h.part_digits _ hmem)
    split <;> simp [hwhole, hpart]
  rw [n.toList_text]
  cases n.negative with
  | false => exact fun hmem => hrest (List.mem_of_mem_tail hmem)
  | true => exact hrest

theorem mem_tail_append {c : Char} {cs r : List Char} (hcs : cs ≠ []) (hc : c ∈ r) :
    c ∈ (cs ++ r).tail := by
  rw [List.tail_append_of_ne_nil hcs]
  exact List.mem_append_right _ hc

namespace Decimal

variable {d : Decimal}

/-- The signs in front: that of the decimal and that of its first digit. -/
def marks (d : Decimal) : List Char :=
  (if d.isNegative then ['-'] else []) ++ if 0 ≤ d.weight ∧ d.digitAt 0 < 0 then ['-'] else []

theorem toList_text (d : Decimal) : d.text.toList = d.marks ++ d.front ++
    if d.fractionText.toList = [] then [] else '.' :: d.fractionText.toList := by
  rw [← d.text_numeral, Numeral.toList_text, marks, List.append_assoc _ _ d.front,
    ← d.toList_integerText]
  rfl

theorem front_ne_nil (d : Decimal) : d.front ≠ [] := by
  rw [front]
  split
  · decide
  · exact List.append_ne_nil_of_left_ne_nil Nat.toDigits_ne_nil _

theorem mem_shown_of_neg {x : Int} (h : x < 0) : ∃ r, Numeral.shown x = '-' :: r := by
  rw [Numeral.shown, Text.padInt, if_pos h, String.toList_append]
  exact ⟨_, rfl⟩

/-- What is shown of a digit that is less than zero begins with its sign. -/
theorem mem_row_of_neg {f : Nat → Int} {k n : Nat} (hk : k < n) (h : f k < 0) : '-' ∈ row f n := by
  obtain ⟨r, hr⟩ := mem_shown_of_neg h
  exact List.mem_flatMap.2 ⟨k, List.mem_range.2 hk, hr ▸ List.mem_cons_self⟩

/-- Its sign is the first place of it that is shown. -/
theorem mem_take_row_of_neg {f : Nat → Int} {k n places : Nat} (hk : k < n) (h : f k < 0)
    (hplace : (row f k).length < places) : '-' ∈ (row f n).take places := by
  obtain ⟨r, hr⟩ := mem_shown_of_neg h
  obtain ⟨m, hm⟩ := Nat.exists_eq_add_of_lt hplace
  have hsign : '-' ∈ (row f (k + 1)).take places := by
    rw [row_succ, List.take_append, hr, hm, Nat.add_assoc, Nat.add_sub_cancel_left,
      List.take_succ_cons]
    exact List.mem_append_right _ List.mem_cons_self
  exact ((isPrefix_row hk).take places).mem hsign

theorem mem_tail_front {i : Int} (hpos : 0 < i) (hle : i ≤ d.weight) (h : d.digitAt i < 0) :
    '-' ∈ d.front.tail := by
  obtain ⟨k, rfl⟩ : ∃ k : Nat, i = 1 + k := ⟨(i - 1).toNat, by omega⟩
  have hrow : '-' ∈ row (fun k => d.digitAt (1 + k)) d.weight.toNat := mem_row_of_neg (by omega) h
  rw [front, if_neg (by omega)]
  exact mem_tail_append Nat.toDigits_ne_nil hrow

theorem mem_fractionText {k : Nat}
    (hk : (row (fun j => d.digitAt (d.weight + 1 + j)) k).length < d.scale)
    (h : d.digitAt (d.weight + 1 + k) < 0) : '-' ∈ d.fractionText.toList := by
  have hle := le_length_row (fun j => d.digitAt (d.weight + 1 + j)) k
  rw [toList_fractionText]
  exact mem_take_row_of_neg (by rw [taken]; omega) h hk

/-- Where the text is that of a decimal, no sign of a digit is shown within. -/
theorem plain_of_isDecimalText (h : IsDecimalText d.scale d.text) : d.Plain := by
  obtain ⟨n, hn, -, htext⟩ := h
  have htail : '-' ∉ d.text.toList.tail := htext ▸ hn.not_mem_tail
  rw [d.toList_text, List.append_assoc] at htail
  refine ⟨fun hneg hweight => not_lt.1 fun hfirst => htail ?_,
    fun i hpos hle => not_lt.1 fun hdigit => htail ?_,
    fun k hk => not_lt.1 fun hdigit => htail ?_⟩
  · -- There would be two signs.
    rw [marks, if_pos hneg, if_pos ⟨hweight, hfirst⟩]
    exact List.mem_cons_self
  · have hfront := mem_tail_front hpos hle hdigit
    cases d.marks with
    | nil =>
        rw [List.nil_append, List.tail_append_of_ne_nil d.front_ne_nil]
        exact List.mem_append_left _ hfront
    | cons =>
        exact List.mem_append_right _ (List.mem_append_left _ (List.mem_of_mem_tail hfront))
  · have hpart := mem_fractionText hk hdigit
    rw [← List.append_assoc, if_neg (List.ne_nil_of_mem hpart)]
    exact mem_tail_append (List.append_ne_nil_of_right_ne_nil _ d.front_ne_nil)
      (List.mem_cons_of_mem _ hpart)

theorem Plain.marks_eq (h : d.Plain) : d.marks =
    if d.isNegative || decide (0 ≤ d.weight ∧ d.digitAt 0 < 0) then ['-'] else [] := by
  rw [marks]
  by_cases hneg : d.isNegative
  · have hfirst : ¬ (0 ≤ d.weight ∧ d.digitAt 0 < 0) := fun hmark => by
      have := h.first hneg hmark.1
      omega
    simp [hneg, hfirst]
  · simp [hneg]

/-- The sign of the first digit goes for that of the decimal. -/
theorem Plain.isDecimalText (h : d.Plain) : IsDecimalText d.scale d.text := by
  refine ⟨⟨d.isNegative || decide (0 ≤ d.weight ∧ d.digitAt 0 < 0), d.front,
    d.fractionText.toList⟩, written_front h.whole h.part _, d.length_fractionText, ?_⟩
  rw [← String.toList_inj, d.toList_text, Numeral.toList_text, h.marks_eq]

/-- A decimal has the text of one if and only if no sign of a digit is shown within. -/
theorem isDecimalText_text_iff (d : Decimal) : IsDecimalText d.scale d.text ↔ d.Plain :=
  ⟨plain_of_isDecimalText, Plain.isDecimalText⟩

/-- A digit that is not less than zero shows no sign. -/
theorem plain_of_nonneg (h : ∀ x ∈ d.digits, 0 ≤ x) : d.Plain := by
  have hdigit : ∀ i, 0 ≤ d.digitAt i := digitAt_of_forall le_rfl h
  exact ⟨fun _ _ => hdigit _, fun i _ _ => hdigit i, fun k _ => hdigit _⟩

theorem eq_text_of_toNumeric {s : String} (h : d.toNumeric = .finite s) : s = d.text := by
  rw [toNumeric] at h
  split at h
  next => cases h
  next =>
    split at h
    next => cases h
    next =>
      split at h
      next => cases h
      next => exact (Native.Numeric.finite.inj h).symm

/-- Only one word is a minus. -/
theorem text_of_sign_ne (h : d.sign ≠ 0x4000) : d.text = { d with sign := 0 }.text := by
  have hsign : d.isNegative = false := by simp [isNegative, h]
  rw [text, text, hsign]
  rfl

end Decimal

/-! ## Payloads -/

theorem int16_bounds (i : Int16) : -32768 ≤ i.toInt ∧ i.toInt ≤ 32767 :=
  ⟨i.le_toInt, Int.lt_add_one_iff.1 i.toInt_lt⟩

/-- A decimal is read off its payload. -/
theorem eq_of_decimal {bs rest : List UInt8} {d : Decimal}
    (h : Read.decimal bs = some (d, rest)) : d.Fits ∧ bs = sendDecimal d ++ rest := by
  have hfound : ∀ bs x rest, Read.int16 bs = some (x, rest) →
      ∃ y : Int16, True ∧ id y = x ∧ bs = signed 2 y.toInt ++ rest :=
    fun _ x _ hx => ⟨x, trivial, rfl, Read.eq_of_int16 hx⟩
  obtain ⟨n, r, hn, h⟩ := Read.bind_eq_some_iff.1 h
  split at h
  next => cases h
  next hpos =>
    obtain ⟨weight, r, hweight, h⟩ := Read.bind_eq_some_iff.1 h
    obtain ⟨sign, r, hword, h⟩ := Read.bind_eq_some_iff.1 h
    obtain ⟨scale, r, hplaces, h⟩ := Read.bind_eq_some_iff.1 h
    obtain ⟨digits, r, hdigits, h⟩ := Read.bind_eq_some_iff.1 h
    cases h
    obtain ⟨digits, hlength, -, rfl, rfl⟩ := Read.exists_of_times hfound hdigits
    obtain ⟨hsign, rfl⟩ := Read.eq_of_unsigned hword
    obtain ⟨hscale, rfl⟩ := Read.eq_of_unsigned hplaces
    obtain rfl := Read.eq_of_int16 hweight
    have hcount : (digits.length : Int) = n.toInt := by omega
    have hn := hcount ▸ Read.eq_of_int16 hn
    rw [List.map_id]
    constructor
    · refine ⟨?_, int16_bounds weight, hsign, hscale, ?_⟩
      · rw [List.length_map]
        have := (int16_bounds n).2
        omega
      · rintro x hx
        obtain ⟨y, -, rfl⟩ := List.mem_map.1 hx
        exact int16_bounds y
    · simp only [sendDecimal, List.length_map, List.flatMap_map, List.append_assoc]
      exact hn

/-- A payload that has the layout of a decimal is decoded. -/
theorem decode_of_fits {d : Decimal} (h : d.Fits) :
    decode 1700 (sendDecimal d) = some (.numeric d.toNumeric) :=
  have hfinds := finds_decimal h.length h.weight h.sign h.scale h.digits
  whole_of_finds .numeric rfl (hfinds.map fun d => Native.numeric d.toNumeric)

/-- No other payload is. -/
theorem exists_of_decode {bs : List UInt8} {v : Native} (h : decode 1700 bs = some v) :
    ∃ d : Decimal, d.Fits ∧ bs = sendDecimal d := by
  obtain ⟨d, hd, -⟩ := Read.map_eq_some_iff.1 (Read.whole_eq_some_iff.1 h)
  obtain ⟨hfits, hbs⟩ := eq_of_decimal hd
  exact ⟨d, hfits, by rw [hbs, List.append_nil]⟩

/-- What decimals are read off. The payloads that are decoded are those that have the layout of a
decimal, whatever its digits and the word of its sign are. A text that comes of one is that of a
decimal, with as many places as the header announces, if and only if no sign of a digit is shown
within it, so always if no digit is less than zero. A word that is no sign goes for a plus. -/
theorem decode_decimal (bs : List UInt8) :
    (decode 1700 bs ≠ none ↔ ∃ d : Decimal, d.Fits ∧ bs = sendDecimal d) ∧
    ∀ d : Decimal, d.Fits → bs = sendDecimal d →
      decode 1700 bs = some (.numeric d.toNumeric) ∧
      ∀ s, d.toNumeric = .finite s →
        (IsDecimalText d.scale s ↔ d.Plain) ∧
        ((∀ x ∈ d.digits, 0 ≤ x) → IsDecimalText d.scale s) ∧
        (d.sign ≠ 0x4000 → s = { d with sign := 0 }.text) := by
  refine ⟨⟨fun hne => ?_, ?_⟩, ?_⟩
  · obtain ⟨v, hv⟩ := Option.ne_none_iff_exists'.1 hne
    exact exists_of_decode hv
  · rintro ⟨d, hd, rfl⟩
    rw [decode_of_fits hd]
    exact nofun
  · rintro d hd rfl
    refine ⟨decode_of_fits hd, fun s hs => ?_⟩
    obtain rfl := Decimal.eq_text_of_toNumeric hs
    exact ⟨d.isDecimalText_text_iff,
      fun h => d.isDecimalText_text_iff.2 (Decimal.plain_of_nonneg h), Decimal.text_of_sign_ne⟩

/-- Five, with a word that is no sign. -/
theorem decode_decimal_unsigned :
    decode 1700 [0, 1, 0, 0, 0x12, 0x34, 0, 0, 0, 5] = some (.numeric (.finite "5")) ∧
    IsDecimalText 0 "5" := by
  have hd : Decimal.Fits ⟨0, 0x1234, 0, [5]⟩ := by constructor <;> decide
  obtain ⟨hdecode, htext⟩ := (decode_decimal _).2 _ hd rfl
  exact ⟨hdecode, (htext _ rfl).2.1 (by decide)⟩

/-- One ten thousand, and five less than none. -/
theorem decode_shows_no_decimal :
    decode 1700 [0, 2, 0, 1, 0, 0, 0, 0, 0, 1, 0xFF, 0xFB] = some (.numeric (.finite "1-005")) ∧
    ¬ IsDecimalText 0 "1-005" := by
  have hd : Decimal.Fits ⟨1, 0, 0, [1, -5]⟩ := by constructor <;> decide
  refine ⟨decode_of_fits hd, ?_⟩
  rintro ⟨n, hn, -, htext⟩
  exact hn.not_mem_tail (by rw [← htext]; decide)

end SqlGate.Wire
