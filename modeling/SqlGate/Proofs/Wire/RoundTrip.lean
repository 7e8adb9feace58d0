import SqlGate.Proofs.Wire.Sending

/-!
# Decoding what was sent

Decoding undoes sending, for every kind of column and every value that it holds (`decode_send`).
-/

namespace SqlGate.Wire

open Number Calendar Read

/-! ## Bit strings -/

theorem byteDigits_octet (bits : List Bool) :
    Native.byteDigits (octet bits) = (List.range 8).map fun k => bitDigit (bits.getD k false) := by
  have hall : ∀ a b c d e f g h : Bool,
      Native.byteDigits (UInt8.ofNat (2 * (2 * (2 * (2 * (2 * (2 * (2 * (2 * 0 + a.toNat) + b.toNat) +
        c.toNat) + d.toNat) + e.toNat) + f.toNat) + g.toNat) + h.toNat)) =
      [bitDigit a, bitDigit b, bitDigit c, bitDigit d, bitDigit e, bitDigit f, bitDigit g,
        bitDigit h] := by
    decide
  exact hall _ _ _ _ _ _ _ _

/-- The digits of a byte are its bits, and zeros for those that are missing. -/
theorem byteDigits_octet_of_le {bits : List Bool} (h : bits.length ≤ 8) :
    Native.byteDigits (octet bits) =
      bits.map bitDigit ++ List.replicate (8 - bits.length) '0' := by
  rw [byteDigits_octet]
  refine List.ext_getElem (by simp; omega) fun k hk hk' => ?_
  rw [List.getElem_map, List.getElem_range, List.getElem_append]
  split
  next hlt =>
    rw [List.getElem_map, List.getD_eq_getElem]
  next hge =>
    rw [List.getElem_replicate, List.getD_eq_default _ _ (by simpa using hge)]
    rfl

/-- The bits that were packed come first, and zeros fill up the last byte. -/
theorem exists_flatMap_pack (bits : List Bool) : ∃ fill,
    (pack bits).flatMap Native.byteDigits = bits.map bitDigit ++ fill := by
  induction bits using pack.induct with
  | case1 => exact ⟨[], by simp [pack]⟩
  | case2 b r ih =>
      obtain ⟨fill, hfill⟩ := ih
      rw [pack, List.flatMap_cons, hfill, byteDigits_octet_of_le (List.length_take_le 8 _)]
      rcases Nat.lt_or_ge (b :: r).length 8 with hlt | hge
      · rw [List.take_of_length_le hlt.le, List.drop_of_length_le hlt.le, List.append_assoc]
        exact ⟨_, rfl⟩
      · rw [List.length_take_of_le hge, Nat.sub_self, List.replicate_zero, List.append_nil,
          ← List.append_assoc, ← List.map_append, List.take_append_drop]
        exact ⟨fill, rfl⟩

theorem length_pack (bits : List Bool) : (pack bits).length = (bits.length + 7) / 8 := by
  induction bits using pack.induct with
  | case1 => simp [pack]
  | case2 b r ih =>
      rw [pack, List.length_cons, ih, List.length_drop, List.length_cons]
      omega

/-- The text of a bit string is its bits in their order. -/
theorem bitsText_pack (bits : List Bool) :
    Native.bitsText bits.length (pack bits) = String.ofList (bits.map bitDigit) := by
  obtain ⟨fill, hfill⟩ := exists_flatMap_pack bits
  have hlen : bits.length - (bits.map bitDigit ++ fill).length = 0 := by simp
  have htake : (bits.map bitDigit ++ fill).take bits.length = bits.map bitDigit := by
    rw [List.take_left' (List.length_map _)]
  rw [Native.bitsText]
  simp only [hfill, hlen, htake, List.replicate_zero, List.append_nil]

/-! ## Fields -/

theorem finds_double (x : Double) : Finds double (sendDouble x) x := by
  refine ((finds_unsigned ?_).map _).congr ?_
  · exact UInt64.toNat_lt x.bits
  · exact congrArg Double.mk UInt64.ofNat_toNat

theorem finds_point (p : Native.Point) : Finds point (sendPoint p) p :=
  (finds_double p.x).bind ((finds_double p.y).bind_nil (finds_pure p))

theorem finds_points {ps : List Native.Point} (h : ps.length < 2147483648) :
    Finds points (sendPoints ps) ps :=
  (finds_count h).bind
    ((finds_times sendPoint id fun p _ => finds_point p).congr (List.map_id ps))

theorem flag_ne_zero (b : Bool) : decide (flag b ≠ 0) = b := by cases b <;> rfl

theorem finds_inet {i : Native.Inet} (h : IsAddress i.address) : Finds inet (sendInet i) i := by
  obtain ⟨address, bits, cidr⟩ := i
  cases address with
  | v4 a b c d =>
      have haddress : Finds (return ⟨.v4 (← byte) (← byte) (← byte) (← byte), bits, flag cidr ≠ 0⟩)
          [a, b, c, d] (⟨.v4 a b c d, bits, cidr⟩ : Native.Inet) := by
        refine (finds_byte a).bind ((finds_byte b).bind ((finds_byte c).bind
          ((finds_byte d).bind_nil ?_)))
        rw [flag_ne_zero]
        exact finds_pure _
      exact (finds_byte 2).bind ((finds_byte bits).bind ((finds_byte (flag cidr)).bind
        ((finds_byte 4).bind haddress)))
  | v6 bs =>
      have haddress : Finds (return ⟨.v6 (← take 16), bits, flag cidr ≠ 0⟩)
          bs (⟨.v6 bs, bits, cidr⟩ : Native.Inet) := by
        refine (finds_take h).bind_nil ?_
        rw [flag_ne_zero]
        exact finds_pure _
      exact (finds_byte 3).bind ((finds_byte bits).bind ((finds_byte (flag cidr)).bind
        ((finds_byte 16).bind haddress)))

/-! ## Decimals -/

theorem ofText_text {n : Numeral} (h : n.Canonical) : Numeral.ofText n.text = n := by
  obtain ⟨negative, whole, part⟩ := n
  let body := whole ++ if part = [] then [] else '.' :: part
  have hdash : ¬ Char.isDigit '-' := by decide
  have hpoint : ¬ Char.isDigit '.' := by decide
  obtain ⟨c, r, hc, hwhole⟩ : ∃ c r, c.isDigit ∧ whole = c :: r := by
    obtain ⟨c, r, hw⟩ := List.exists_cons_of_ne_nil h.whole_ne
    exact ⟨c, r, h.whole_digits c (hw ▸ List.mem_cons_self), hw⟩
  have hne : c ≠ '-' := fun hcc => hdash (hcc ▸ hc)
  have htext : (Numeral.text ⟨negative, whole, part⟩).toList =
      (if negative then ['-'] else []) ++ body := by
    rw [Numeral.text, String.toList_ofList, List.append_assoc]
  have hbody : body.dropWhile (· = '-') = body := by
    change (whole ++ _).dropWhile _ = whole ++ _
    rw [hwhole, List.cons_append, List.dropWhile_cons_of_neg (by simpa using hne)]
  have hdrop : ((if negative then ['-'] else []) ++ body).dropWhile (· = '-') = body := by
    cases negative with
    | false => exact hbody
    | true => rw [if_pos rfl, List.singleton_append, List.dropWhile_cons_of_pos (by simp), hbody]
  have hhead : decide (((if negative then ['-'] else []) ++ body).head? = some '-') = negative := by
    cases negative with
    | false =>
        change decide ((whole ++ _).head? = _) = _
        simpa [hwhole] using hne
    | true => rfl
  have htake : body.takeWhile Char.isDigit = whole := by
    rw [List.takeWhile_append_of_pos h.whole_digits]
    split
    · rw [List.takeWhile_nil, List.append_nil]
    · rw [List.takeWhile_cons_of_neg hpoint, List.append_nil]
  have hpart : (body.dropWhile Char.isDigit).drop 1 = part := by
    rw [List.dropWhile_append_of_pos h.whole_digits]
    split
    next hnil => rw [List.dropWhile_nil, List.drop_nil, hnil]
    next => rw [List.dropWhile_cons_of_neg hpoint, List.drop_one, List.tail_cons]
  rw [Numeral.ofText, htext, hdrop, hhead, htake, hpart]

theorem finds_decimal {d : Decimal} (hlen : d.digits.length < 32768)
    (hweight : -32768 ≤ d.weight ∧ d.weight ≤ 32767) (hsign : d.sign < 65536)
    (hscale : d.scale < 65536) (hdigits : ∀ x ∈ d.digits, -32768 ≤ x ∧ x ≤ 32767) :
    Finds Read.decimal (sendDecimal d) d := by
  have hn : (Int16.ofInt d.digits.length).toInt = d.digits.length :=
    toInt_ofInt_int16 (by omega) (by omega)
  have hshown : (d.digits.map Int16.ofInt).map Int16.toInt = d.digits := by
    rw [List.map_map]
    refine (List.map_congr_left fun x hx => ?_).trans (List.map_id d.digits)
    exact toInt_ofInt_int16 (hdigits x hx).1 (hdigits x hx).2
  rw [sendDecimal]
  simp only [List.append_assoc]
  refine (finds_int16 _).bind ?_
  rw [hn, if_neg (by omega), Int.toNat_natCast]
  refine (finds_int16 d.weight).bind ((finds_unsigned hsign).bind ((finds_unsigned hscale).bind
    ((finds_times (signed 2) Int16.ofInt fun x _ => finds_int16 x).bind_nil ?_)))
  rw [hshown, toInt_ofInt_int16 hweight.1 hweight.2]
  exact finds_pure d

theorem finds_numeric {n : Native.Numeric} (h : IsNumeric n) :
    Finds ((fun d => Native.numeric d.toNumeric) <$> Read.decimal) (sendNumeric n)
      (.numeric n) := by
  have hspecial : ∀ sign < 65536,
      Finds Read.decimal (sendDecimal ⟨0, sign, 0, []⟩) ⟨0, sign, 0, []⟩ :=
    fun sign hsign => finds_decimal (by simp) (by simp) hsign (by simp) nofun
  cases n with
  | nan => exact (hspecial 0xC000 (by decide)).map _
  | infinity => exact (hspecial 0xD000 (by decide)).map _
  | negInfinity => exact (hspecial 0xF000 (by decide)).map _
  | finite s =>
      obtain ⟨n, hn, hwhole, hpart, hsent, rfl⟩ := h
      have hsign : n.decimal.sign = 0 ∨ n.decimal.sign = 0x4000 := by
        rw [Numeral.decimal]
        cases n.negative <;> simp
      have hlead : n.leading ≤ n.high.length + n.low.length := by
        rw [Numeral.leading, ← List.length_append]
        exact List.Sublist.length_le (List.takeWhile_sublist _)
      have hweight : -32768 ≤ n.decimal.weight ∧ n.decimal.weight ≤ 32767 := by
        rw [Numeral.length_high, Numeral.length_low] at hlead
        change -32768 ≤ (if n.sent = [] then 0 else (n.high.length - 1 - n.leading : Int)) ∧
          (if n.sent = [] then 0 else (n.high.length - 1 - n.leading : Int)) ≤ 32767
        rw [Numeral.length_high]
        split <;> omega
      have hfound : Finds Read.decimal (sendDecimal n.decimal) n.decimal :=
        finds_decimal hsent hweight (by omega) (by change n.part.length < 65536; omega)
          fun x hx => by have := hn.bounds_of_mem_sent x hx; omega
      have hnumeric : n.decimal.toNumeric = .finite n.text := by
        rw [Decimal.toNumeric, if_neg (by omega), if_neg (by omega), if_neg (by omega),
          Numeral.text_decimal hn]
      rw [sendNumeric, ofText_text hn]
      exact (hfound.map _).congr (congrArg Native.numeric hnumeric)

/-! ## Dates and times -/

theorem firstDay_eq : firstDay = -96465292 := rfl

theorem lastDay_eq : lastDay = 95026236 := rfl

theorem countOfDate_bounds {d : Native.Date} (h : IsDate d) :
    -2147483648 ≤ countOfDate d ∧ countOfDate d ≤ 2147483647 := by
  cases d with
  | infinity => decide
  | negInfinity => decide
  | finite day =>
      obtain ⟨hfirst, hlast⟩ := h
      rw [firstDay_eq] at hfirst
      rw [lastDay_eq] at hlast
      simp only [countOfDate, epochDay]
      omega

theorem dateOf?_count {d : Native.Date} (h : IsDate d) : dateOf? (countOfDate d) = some d := by
  cases d with
  | infinity => rfl
  | negInfinity => rfl
  | finite day =>
      have hday : epochDay + (day - epochDay) = day := by ring
      have hnamed : firstDay ≤ day ∧ day ≤ lastDay := h
      obtain ⟨hfirst, hlast⟩ := id hnamed
      rw [firstDay_eq] at hfirst
      rw [lastDay_eq] at hlast
      simp only [dateOf?, countOfDate, hday]
      rw [if_neg (by simp only [epochDay]; omega), if_neg (by simp only [epochDay]; omega),
        if_pos hnamed]

theorem microsOfClock_bounds {t : ClockTime} (h : IsTimeOfDay t) :
    0 ≤ microsOfClock t ∧ microsOfClock t < 86400000000 := by
  obtain ⟨hseconds, hnanos, -⟩ := h
  simp only [microsOfClock]
  omega

theorem clockOf?_micros {t : ClockTime} (h : IsTimeOfDay t) :
    clockOf? (microsOfClock t) = some t := by
  obtain ⟨seconds, nanos⟩ := t
  obtain ⟨hseconds, hnanos, hwhole⟩ := id h
  dsimp only at hseconds hnanos hwhole
  rw [clockOf?, if_pos (microsOfClock_bounds h)]
  simp only [microsOfClock, Option.some.injEq, ClockTime.mk.injEq]
  omega

theorem timeOf?_micros {t : ClockTime} (h : IsTimeOfDay t) :
    timeOf? (microsOfClock t) = some (.time t) := by
  have hlt := (microsOfClock_bounds h).2
  rw [timeOf?, if_neg (by omega), clockOf?_micros h, Option.map_some]

theorem countOfTimestamp_bounds {t : Native.Timestamp} (h : IsTimestamp t) :
    -9223372036854775808 ≤ countOfTimestamp t ∧ countOfTimestamp t ≤ 9223372036854775807 := by
  cases t with
  | infinity => decide
  | negInfinity => decide
  | finite m =>
      obtain ⟨hfirst, hlast, hnanos, -⟩ := h
      rw [firstDay_eq] at hfirst
      rw [lastDay_eq] at hlast
      simp only [Moment.day] at hfirst hlast
      simp only [countOfTimestamp]
      omega

theorem timestampOf?_count {t : Native.Timestamp} (h : IsTimestamp t) :
    timestampOf? (countOfTimestamp t) = some t := by
  cases t with
  | infinity => rfl
  | negInfinity => rfl
  | finite m =>
      obtain ⟨seconds, nanos⟩ := m
      obtain ⟨hfirst, hlast, hnanos, hwhole⟩ := id h
      have hfirst' := hfirst
      have hlast' := hlast
      rw [firstDay_eq] at hfirst'
      rw [lastDay_eq] at hlast'
      simp only [Moment.day] at hfirst' hlast' hfirst hlast
      dsimp only at hnanos hwhole
      let micros : Int := countOfTimestamp (.finite ⟨seconds, nanos⟩)
      have hmicros : micros = seconds * 1000000 + nanos / 1000 - 946684800000000 := rfl
      have hseconds : (micros + 946684800000000) / 1000000 = seconds := by omega
      have hrest : ((micros + 946684800000000) % 1000000).toNat * 1000 = nanos := by omega
      change timestampOf? micros = _
      rw [timestampOf?, if_neg (by omega), if_neg (by omega)]
      simp only [hseconds, hrest]
      rw [if_neg (by omega), if_pos ⟨hfirst, hlast⟩]

/-! ## Values -/

theorem whole_of_finds {read : Read Native} {bs : List UInt8} {v : Native} (kind : Kind)
    (hkind : ofKind kind = some read) (h : Finds read bs v) :
    (ofKind kind).bind (·.whole bs) = some v := by
  rw [hkind]
  exact h.whole

/-- A value of a kind that is no range is decoded from its payload. -/
theorem decodeScalar_send {kind : Kind} {v : Native} (h : kind.Holds v) :
    decodeScalar kind (sendScalar kind v) = some v := by
  cases h with
  | bytea bs => rfl
  | mac bs => rfl
  | char s => exact congrArg (fun s => some (Native.text s)) (Text.Utf8.lossy_encode s)
  | text s =>
      change (Text.Utf8.decode? (Text.Utf8.encode s)).map Native.text = _
      rw [Text.Utf8.decode?_encode, Option.map_some]
  | bool b =>
      refine whole_of_finds .bool rfl ((finds_byte (flag b)).bind_nil ?_)
      rw [flag_ne_zero]
      exact finds_pure _
  | @int2 i hlow hhigh =>
      refine whole_of_finds .int2 rfl ((finds_int16 i.toInt).bind_nil ?_)
      rw [toInt_ofInt_int16 hlow hhigh, Int64.ofInt_toInt]
      exact finds_pure _
  | @int4 i hlow hhigh =>
      refine whole_of_finds .int4 rfl ((finds_int32 i.toInt).bind_nil ?_)
      rw [toInt_ofInt_int32 hlow hhigh, Int64.ofInt_toInt]
      exact finds_pure _
  | int8 i =>
      exact whole_of_finds .int8 rfl (((finds_int64 i.toInt).congr i.ofInt_toInt).map Native.int)
  | @oid i hlow hhigh =>
      have hi : Int64.ofNat i.toInt.toNat = i := by
        apply Int64.toInt_inj.1
        rw [Int64.toInt_ofNat_of_lt (by omega)]
        omega
      refine whole_of_finds .oid rfl ((finds_unsigned (n := 4) ?_).map _ |>.congr ?_)
      · omega
      · exact congrArg Native.int hi
  | float4 x =>
      refine whole_of_finds .float4 rfl (((finds_unsigned (UInt32.toNat_lt x.bits)).map _).congr ?_)
      exact congrArg (fun b => Native.real ⟨b⟩) UInt32.ofNat_toNat
  | float8 x => exact whole_of_finds .float8 rfl ((finds_double x).map Native.double)
  | money cents =>
      exact whole_of_finds .money rfl
        (((finds_int64 cents.toInt).congr cents.ofInt_toInt).map Native.money)
  | @numeric n hn => exact whole_of_finds .numeric rfl (finds_numeric hn)
  | uuid hn => exact whole_of_finds .uuid rfl ((finds_take hn).map Native.uuid)
  | @date d hd =>
      obtain ⟨hlow, hhigh⟩ := countOfDate_bounds hd
      refine whole_of_finds .date rfl ((finds_int32 (countOfDate d)).bind_nil ?_)
      rw [toInt_ofInt_int32 hlow hhigh, dateOf?_count hd]
      exact finds_pure _
  | @time t ht =>
      obtain ⟨hlow, hhigh⟩ := microsOfClock_bounds ht
      refine whole_of_finds .time rfl ((finds_int64 (microsOfClock t)).bind_nil ?_)
      rw [toInt_ofInt_int64 (by omega) (by omega), timeOf?_micros ht]
      exact finds_pure _
  | @timeTz t east ht heast =>
      obtain ⟨hlow, hhigh⟩ := microsOfClock_bounds ht
      refine whole_of_finds .timeTz rfl ((finds_int64 (microsOfClock t)).bind
        ((finds_int32 (-east)).bind_nil ?_))
      rw [toInt_ofInt_int64 (by omega) (by omega), toInt_ofInt_int32 (by omega) (by omega),
        timeTzOf?, if_pos (by omega), clockOf?_micros ht, Option.map_some, neg_neg]
      exact finds_pure _
  | @timestamp t ht =>
      obtain ⟨hlow, hhigh⟩ := countOfTimestamp_bounds ht
      refine whole_of_finds .timestamp rfl ((finds_int64 (countOfTimestamp t)).bind_nil ?_)
      rw [toInt_ofInt_int64 hlow hhigh, timestampOf?_count ht]
      exact finds_pure _
  | interval i =>
      refine whole_of_finds .interval rfl ((finds_int64 i.microseconds.toInt).bind
        ((finds_int32 i.days.toInt).bind ((finds_int32 i.months.toInt).bind_nil ?_)))
      rw [Int64.ofInt_toInt, Int32.ofInt_toInt, Int32.ofInt_toInt]
      exact finds_pure _
  | inet hi => exact whole_of_finds .inet rfl ((finds_inet hi).map Native.inet)
  | point p => exact whole_of_finds .point rfl ((finds_point p).map Native.point)
  | line a b c =>
      exact whole_of_finds .line rfl ((finds_double a).bind ((finds_double b).bind
        ((finds_double c).bind_nil (finds_pure _))))
  | segment p q =>
      exact whole_of_finds .segment rfl ((finds_point p).bind ((finds_point q).bind_nil
        (finds_pure _)))
  | box p q =>
      exact whole_of_finds .box rfl ((finds_point p).bind ((finds_point q).bind_nil
        (finds_pure _)))
  | path closed hps =>
      refine whole_of_finds .path rfl ((finds_byte (flag closed)).bind
        ((finds_points hps).bind_nil ?_))
      rw [flag_ne_zero]
      exact finds_pure _
  | polygon hps => exact whole_of_finds .polygon rfl ((finds_points hps).map Native.polygon)
  | circle center radius =>
      exact whole_of_finds .circle rfl ((finds_point center).bind ((finds_double radius).bind_nil
        (finds_pure _)))
  | bits hbits =>
      exact whole_of_finds .bits rfl ((finds_count hbits).bind
        ((finds_take (length_pack _)).bind_nil (finds_pure _)))

/-! ## Ranges -/

theorem length_sendDecimal (d : Decimal) : (sendDecimal d).length = 8 + 2 * d.digits.length := by
  have hdigits : (d.digits.flatMap (signed 2)).length = 2 * d.digits.length := by
    rw [List.length_flatMap]
    simp [Nat.mul_comm]
  rw [sendDecimal]
  simp only [List.length_append, length_signed, length_big, hdigits]

/-- The built-in ranges are over numbers, dates and points in time. -/
theorem kind_of_range {oid subtype : Nat} {kind : Kind}
    (hrange : kindOf? oid = some (.range subtype)) (hkind : kindOf? subtype = some kind) :
    kind = .int4 ∨ kind = .int8 ∨ kind = .numeric ∨ kind = .date ∨ kind = .timestamp := by
  unfold kindOf? at hrange
  split at hrange <;> cases hrange <;> cases hkind <;> simp

theorem decode_eq_none {oid : Nat} (h : kindOf? oid = none) (bs : List UInt8) :
    decode oid bs = none := by
  rw [decode, h]

/-- The built-in ranges are read as ranges over their subtypes. -/
theorem decode_eq_decodeRange {oid subtype : Nat} (h : kindOf? oid = some (.range subtype))
    (bs : List UInt8) : decode oid bs = decodeRange subtype bs := by
  have hbound : (fun raw => (kindOf? subtype).bind (decodeScalar · raw)) = decode subtype := by
    funext raw
    rw [decode]
    cases hkind : kindOf? subtype with
    | none => rfl
    | some kind => rcases kind_of_range h hkind with rfl | rfl | rfl | rfl | rfl <;> rfl
  rw [decode, h, decodeRange, ← hbound]

/-- The other types are not. -/
theorem decode_eq_decodeScalar {oid : Nat} {kind : Kind} (h : kindOf? oid = some kind)
    (hrange : ∀ subtype, kind ≠ .range subtype) : decode oid = decodeScalar kind := by
  funext bs
  rw [decode, h]
  cases kind with
  | range subtype => exact absurd rfl (hrange subtype)
  | _ => rfl

/-- The payloads of their bounds are short. -/
theorem length_sendScalar_lt {oid subtype : Nat} {kind : Kind} {v : Native}
    (hrange : kindOf? oid = some (.range subtype)) (hkind : kindOf? subtype = some kind)
    (h : kind.Holds v) : (sendScalar kind v).length < 2147483648 := by
  rcases kind_of_range hrange hkind with rfl | rfl | rfl | rfl | rfl
  · cases h
    rw [sendScalar, length_signed]
    decide
  · cases h
    rw [sendScalar, length_signed]
    decide
  · cases h with
    | @numeric n hn =>
        cases n with
        | finite s =>
            obtain ⟨n, hn, -, -, hsent, rfl⟩ := hn
            rw [sendScalar, sendNumeric, ofText_text hn, length_sendDecimal]
            change 8 + 2 * n.sent.length < _
            omega
        | nan => decide
        | infinity => decide
        | negInfinity => decide
  · cases h
    rw [sendScalar, length_signed]
    decide
  · cases h
    rw [sendScalar, length_signed]
    decide

theorem finds_bound {kind : Kind} {bound : Option (Native × Bool)}
    (h : ∀ x ∈ bound, kind.Holds x.1)
    (hlen : ∀ x ∈ bound, (sendScalar kind x.1).length < 2147483648) :
    Finds (Read.bound (decodeScalar kind) bound.isNone ((bound.map Prod.snd).getD false))
      (sendBound kind bound) bound := by
  cases bound with
  | none => exact finds_pure none
  | some x =>
      obtain ⟨v, inclusive⟩ := x
      have hv : decodeScalar kind (sendScalar kind v) = some v := decodeScalar_send (h _ rfl)
      refine (finds_field (hlen _ rfl)).bind_nil ?_
      change Finds (pure (some ((decodeScalar kind (sendScalar kind v)).getD _, inclusive))) [] _
      rw [hv]
      exact finds_pure _

theorem testBit_rangeFlags (lower upper : Option Bool) :
    let flags := (rangeFlags lower upper).toNat
    flags.testBit 0 = false ∧ flags.testBit 1 = lower.getD false ∧
      flags.testBit 2 = upper.getD false ∧ flags.testBit 3 = lower.isNone ∧
      flags.testBit 4 = upper.isNone := by
  rcases lower with _ | _ | _ <;> rcases upper with _ | _ | _ <;> decide

theorem finds_emptyRange (decode : List UInt8 → Option Native) :
    Finds (Read.range decode) [0x01] .emptyRange := by
  refine (finds_byte 0x01).bind_nil ?_
  dsimp only
  rw [if_pos (by decide)]
  exact finds_pure _

theorem finds_range {kind : Kind} {lower upper : Option (Native × Bool)}
    (hlower : ∀ x ∈ lower, kind.Holds x.1) (hupper : ∀ x ∈ upper, kind.Holds x.1)
    (hlen : ∀ v, kind.Holds v → (sendScalar kind v).length < 2147483648) :
    Finds (Read.range (decodeScalar kind))
      (rangeFlags (lower.map Prod.snd) (upper.map Prod.snd) ::
        (sendBound kind lower ++ sendBound kind upper)) (.range lower upper) := by
  obtain ⟨hempty, hlow, hhigh, hopen, hopen'⟩ :=
    testBit_rangeFlags (lower.map Prod.snd) (upper.map Prod.snd)
  rw [Option.isNone_map] at hopen hopen'
  refine (finds_byte _).bind ?_
  dsimp only
  rw [hempty, if_neg Bool.false_ne_true, hlow, hhigh, hopen, hopen']
  exact (finds_bound hlower fun x hx => hlen _ (hlower x hx)).bind
    ((finds_bound hupper fun x hx => hlen _ (hupper x hx)).bind_nil (finds_pure _))

/-- Decoding undoes sending: every value of a kind, be it a range or not, is decoded from its
payload, and a bit string is shown as its bits in their order. -/
theorem decode_send {oid : Nat} {kind : Kind} {v : Native} (hkind : kindOf? oid = some kind)
    (h : kind.Carries v) : decode oid (send kind v) = some v ∧
      ∀ bits, v = .ofBits bits → v.render = .str (String.ofList (bits.map bitDigit)) := by
  constructor
  · unfold decode
    rw [hkind]
    cases h with
    | emptyRange subtype => exact (finds_emptyRange _).whole
    | @range subtype bound lower upper hbound hlower hupper =>
        dsimp only
        rw [send, hbound]
        exact (finds_range hlower hupper fun v hv =>
          length_sendScalar_lt hkind hbound hv).whole
    | scalar hv =>
        have hsend := decodeScalar_send hv
        cases hv <;> exact hsend
  · rintro bits rfl
    exact congrArg Json.str (bitsText_pack bits)

/-- The range from one, which belongs to it, to five, which does not; and five bits. -/
theorem decode_send_instances :
    decode 3904 [0x02, 0, 0, 0, 4, 0, 0, 0, 1, 0, 0, 0, 4, 0, 0, 0, 5] =
      some (.range (some (.int 1, true)) (some (.int 5, false))) ∧
    decode 1560 [0, 0, 0, 5, 0xB0] = some (.ofBits [true, false, true, true, false]) ∧
    (Native.ofBits [true, false, true, true, false]).render = .str "10110" := by
  have hrange : Kind.Carries (.range 23) (.range (some (.int 1, true)) (some (.int 5, false))) := by
    refine .range rfl ?_ ?_
    · rintro x ⟨⟩
      exact .int4 (by decide) (by decide)
    · rintro x ⟨⟩
      exact .int4 (by decide) (by decide)
  have hbits : Kind.Carries .bits (.ofBits [true, false, true, true, false]) :=
    .scalar (.bits (by decide))
  have hpacked : send .bits (.ofBits [true, false, true, true, false]) = [0, 0, 0, 5, 0xB0] := by
    simp [send, sendScalar, Native.ofBits, pack, octet, signed, big]
    decide
  have hkind : kindOf? 1560 = some .bits := rfl
  refine ⟨(decode_send rfl hrange).1, ?_, (decode_send hkind hbits).2 _ rfl⟩
  rw [← hpacked]
  exact (decode_send hkind hbits).1

end SqlGate.Wire
