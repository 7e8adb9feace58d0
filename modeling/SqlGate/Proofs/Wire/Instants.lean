import SqlGate.Native.Render
import SqlGate.Proofs.Calendar.Rfc3339
import SqlGate.Proofs.Wire.Layout
import SqlGate.Wire.Decode

/-!
# Timestamps and dates

A timestamp is microseconds on the wire and a date is days, both counted from 2000-01-01, and the
outermost counts stand for the infinities. `timestampOf?_eq` and `dateOf?_eq` say which of the other
counts are decoded, in terms of the calendar, and `isAfter_moment` that this gives the moment meant.
A decoded value has the text of its instant, so its text settles the count (`eq_of_render_decode`).
`decode_instants` puts this together.
-/

namespace SqlGate.Wire

open Calendar Read

/-- The date that counts begin with. -/
def epoch : YearMonthDay := ⟨2000, 1, 1⟩

theorem dateOfDay_epochDay : dateOfDay epochDay = epoch := by decide

theorem epoch_plus (n : Int) : epoch.plus n = dateOfDay (epochDay + n) := by
  rw [dateOfDay_add, dateOfDay_epochDay]

theorem epoch_plus_injective : Function.Injective epoch.plus := by
  intro n n' h
  rw [epoch_plus, epoch_plus] at h
  exact Int.add_left_cancel (dateOfDay_injective h)

/-! ## Counts -/

/-- The moment of a count of microseconds. -/
def moment (m : Int) : Moment :=
  ⟨(m + 946684800000000) / 1000000, ((m + 946684800000000) % 1000000).toNat * 1000⟩

theorem isAfter_moment (m : Int) : (moment m).IsAfter epoch m := by
  unfold moment
  refine ⟨?_, ?_, ?_, ?_⟩
  · rw [epoch_plus, ← dateOfDay_eq_plus]
    simp only [Moment.day, epochDay]
    congr 1
    omega
  · simp only [Moment.micros, Moment.clock]
    omega
  · dsimp only
    omega
  · dsimp only
    omega

/-- A date can name no day as late as 64 bits can count. -/
theorem sum_lt_of_named {m : Int} (h : (epoch.plus (m / 86400000000)).Named) :
    m + 946684800000000 < 9223372036854775808 := by
  rw [epoch_plus, named_dateOfDay_iff] at h
  have hlast := h.2
  simp only [lastDay, epochDay] at hlast
  omega

/-- So the sum that counts from 1970-01-01 is one that 64 bits hold. -/
theorem toInt_add_of_named {m : Int64} (h : (epoch.plus (m.toInt / 86400000000)).Named) :
    (m + 946684800000000).toInt = m.toInt + 946684800000000 := by
  have hcount : (946684800000000 : Int64).toInt = 946684800000000 := rfl
  have hlow := m.le_toInt
  have hlt := sum_lt_of_named h
  rw [Int64.toInt_add, hcount]
  exact Int.bmod_eq_of_le (by omega) (by omega)

/-- A count that is no infinity is decoded if a date can name its day. -/
theorem timestampOf?_eq {m : Int} (hmax : m ≠ 9223372036854775807)
    (hmin : m ≠ -9223372036854775808) :
    timestampOf? m =
      if (epoch.plus (m / 86400000000)).Named then some (.finite (moment m)) else none := by
  have hday : (m + 946684800000000) / 1000000 / 86400 = epochDay + m / 86400000000 := by
    unfold epochDay
    omega
  have hnamed := named_dateOfDay_iff (epochDay + m / 86400000000)
  rw [← epoch_plus] at hnamed
  rw [timestampOf?, if_neg hmax, if_neg hmin]
  dsimp only
  rw [hday]
  simp only [← hnamed]
  split
  next hover =>
    rw [if_neg fun h => ?_]
    have hlt := sum_lt_of_named h
    omega
  next => rfl

/-- A day that a date can name has a number from 1970-01-01 that 32 bits hold. -/
theorem toInt_add_of_named_day {d : Int32} (h : (epoch.plus d.toInt).Named) :
    (d + 10957).toInt = d.toInt + 10957 := by
  have hcount : (10957 : Int32).toInt = 10957 := rfl
  have hlow := d.le_toInt
  rw [epoch_plus, named_dateOfDay_iff, lastDay, epochDay] at h
  rw [Int32.toInt_add, hcount]
  exact Int.bmod_eq_of_le (by omega) (by omega)

/-- A count of days that is no infinity is decoded if a date can name the day. -/
theorem dateOf?_eq {d : Int} (hmax : d ≠ 2147483647) (hmin : d ≠ -2147483648) :
    dateOf? d = if (epoch.plus d).Named then some (.finite (epochDay + d)) else none := by
  rw [dateOf?, if_neg hmax, if_neg hmin, epoch_plus]
  simp only [named_dateOfDay_iff]

/-! ## Payloads -/

section

variable {oid : Nat} {bs : List UInt8} {v : Native}

theorem decode_of_timestamp (h : kindOf? oid = some .timestamp) (bs : List UInt8) :
    decode oid bs = decodeScalar .timestamp bs := by
  rw [decode, h]

theorem decode_timestamp (h : kindOf? oid = some .timestamp) (m : Int64) :
    decode oid (signed 8 m.toInt) = (timestampOf? m.toInt).map .timestamp := by
  have hfinds : Finds int64 (signed 8 m.toInt) m := (finds_int64 m.toInt).congr m.ofInt_toInt
  rw [decode_of_timestamp h]
  change (int64 >>= fun m => _).whole _ = _
  rw [hfinds.whole_bind]
  cases timestampOf? m.toInt <;> rfl

theorem decode_date (d : Int32) : decode 1082 (signed 4 d.toInt) = (dateOf? d.toInt).map .date := by
  have hfinds : Finds int32 (signed 4 d.toInt) d := (finds_int32 d.toInt).congr d.ofInt_toInt
  change (int32 >>= fun d => _).whole _ = _
  rw [hfinds.whole_bind]
  cases dateOf? d.toInt <;> rfl

/-- The payload of a timestamp is a count. -/
theorem exists_of_decode_timestamp (hkind : kindOf? oid = some .timestamp)
    (h : decode oid bs = some v) : ∃ (m : Int64) (t : Native.Timestamp),
      bs = signed 8 m.toInt ∧ timestampOf? m.toInt = some t ∧ v = .timestamp t := by
  rw [decode_of_timestamp hkind] at h
  obtain ⟨m, hbs, hm⟩ := exists_signed_of_whole_int64
    (f := fun m => (timestampOf? m.toInt).map .timestamp)
    (fun m rest => by cases timestampOf? m.toInt <;> rfl) h
  obtain ⟨t, ht, rfl⟩ := Option.map_eq_some_iff.1 hm
  exact ⟨m, t, hbs, ht, rfl⟩

/-- The payload of a date is a count. -/
theorem exists_of_decode_date (h : decode 1082 bs = some v) :
    ∃ (d : Int32) (x : Native.Date),
      bs = signed 4 d.toInt ∧ dateOf? d.toInt = some x ∧ v = .date x := by
  obtain ⟨d, hbs, hd⟩ := exists_signed_of_whole_int32
    (f := fun d => (dateOf? d.toInt).map .date)
    (fun d rest => by cases dateOf? d.toInt <;> rfl) h
  obtain ⟨x, hx, rfl⟩ := Option.map_eq_some_iff.1 hd
  exact ⟨d, x, hbs, hx, rfl⟩

end

/-! ## Texts -/

/-- The text of a date and a time of day, or of an infinity where one is meant. -/
inductive IsInstantText (latest earliest : Prop) (x : YearMonthDay) (micros : Nat) : String → Prop
  | infinity (h : latest) : IsInstantText latest earliest x micros "infinity"
  | negInfinity (h : earliest) : IsInstantText latest earliest x micros "-infinity"
  | finite {s : String} (h : IsRfc3339 x micros s.toList) :
      IsInstantText latest earliest x micros s

theorem IsInstantText.unique {latest earliest latest' earliest' : Prop} {x x' : YearMonthDay}
    {micros micros' : Nat} {s s' : String} (h : IsInstantText latest earliest x micros s)
    (h' : IsInstantText latest' earliest' x' micros' s') (hs : s = s') :
    latest ∧ latest' ∨ earliest ∧ earliest' ∨ x = x' ∧ micros = micros' := by
  have hinfinity : ¬ ∃ x micros, IsRfc3339 x micros "infinity".toList :=
    fun ⟨_, _, h⟩ => absurd h.getLast?_eq (by decide)
  have hnegInfinity : ¬ ∃ x micros, IsRfc3339 x micros "-infinity".toList :=
    fun ⟨_, _, h⟩ => absurd h.getLast?_eq (by decide)
  cases h with
  | infinity h =>
      cases h' with
      | infinity h' => exact .inl ⟨h, h'⟩
      | negInfinity => exact absurd hs (by decide)
      | finite h' => exact absurd ⟨x', micros', hs ▸ h'⟩ hinfinity
  | negInfinity h =>
      cases h' with
      | infinity => exact absurd hs (by decide)
      | negInfinity h' => exact .inr (.inl ⟨h, h'⟩)
      | finite h' => exact absurd ⟨x', micros', hs ▸ h'⟩ hnegInfinity
  | finite h =>
      cases h' with
      | infinity => exact absurd ⟨x, micros, hs ▸ h⟩ hinfinity
      | negInfinity => exact absurd ⟨x, micros, hs ▸ h⟩ hnegInfinity
      | finite h' => exact .inr (.inr (h.unique (hs ▸ h')))

theorem isInstantText_timestamp {m : Int} {t : Native.Timestamp} (h : timestampOf? m = some t) :
    IsInstantText (m = 9223372036854775807) (m = -9223372036854775808)
      (epoch.plus (m / 86400000000)) (m % 86400000000).toNat t.render := by
  by_cases hmax : m = 9223372036854775807
  · subst hmax
    cases h
    exact .infinity rfl
  · by_cases hmin : m = -9223372036854775808
    · subst hmin
      cases h
      exact .negInfinity rfl
    · rw [timestampOf?_eq hmax hmin] at h
      split at h
      next => cases h; exact .finite (isAfter_moment m).isRfc3339
      next => cases h

/-- The start of a day has the text of its date at midnight. -/
theorem isRfc3339_midnightText (d : Int) :
    IsRfc3339 (epoch.plus d) 0 (midnightText (epochDay + d)).toList := by
  have hmoment : (⟨(epochDay + d) * 86400, 0⟩ : Moment) = moment (d * 86400000000) := by
    rw [moment, Moment.mk.injEq, epochDay]
    omega
  have htext := (isAfter_moment (d * 86400000000)).isRfc3339
  rwa [Int.mul_ediv_cancel d (by decide), Int.mul_emod_left, ← hmoment] at htext

theorem isInstantText_date {d : Int} {x : Native.Date} (h : dateOf? d = some x) :
    IsInstantText (d = 2147483647) (d = -2147483648) (epoch.plus d) 0 x.render := by
  by_cases hmax : d = 2147483647
  · subst hmax
    cases h
    exact .infinity rfl
  · by_cases hmin : d = -2147483648
    · subst hmin
      cases h
      exact .negInfinity rfl
    · rw [dateOf?_eq hmax hmin] at h
      split at h
      next => cases h; exact .finite (isRfc3339_midnightText d)
      next => cases h

theorem eq_of_render_timestamp {m m' : Int} {t t' : Native.Timestamp}
    (h : timestampOf? m = some t) (h' : timestampOf? m' = some t') (hs : t.render = t'.render) :
    m = m' := by
  rcases (isInstantText_timestamp h).unique (isInstantText_timestamp h') hs with
    ⟨rfl, rfl⟩ | ⟨rfl, rfl⟩ | ⟨hdate, hmicros⟩
  · rfl
  · rfl
  · have hday := epoch_plus_injective hdate
    omega

theorem eq_of_render_date {d d' : Int} {x x' : Native.Date} (h : dateOf? d = some x)
    (h' : dateOf? d' = some x') (hs : x.render = x'.render) : d = d' := by
  rcases (isInstantText_date h).unique (isInstantText_date h') hs with
    ⟨rfl, rfl⟩ | ⟨rfl, rfl⟩ | ⟨hdate, -⟩
  · rfl
  · rfl
  · exact epoch_plus_injective hdate

/-- Payloads of one type that are shown alike are the same. -/
theorem eq_of_render_decode {oid : Nat} {bs bs' : List UInt8} {v v' : Native}
    (hoid : kindOf? oid = some .timestamp ∨ oid = 1082) (hv : decode oid bs = some v)
    (hv' : decode oid bs' = some v') (h : v.render = v'.render) : bs = bs' := by
  rcases hoid with hkind | rfl
  · obtain ⟨m, t, rfl, ht, rfl⟩ := exists_of_decode_timestamp hkind hv
    obtain ⟨m', t', rfl, ht', rfl⟩ := exists_of_decode_timestamp hkind hv'
    rw [eq_of_render_timestamp ht ht' (Json.str.inj h)]
  · obtain ⟨d, x, rfl, hx, rfl⟩ := exists_of_decode_date hv
    obtain ⟨d', x', rfl, hx', rfl⟩ := exists_of_decode_date hv'
    rw [eq_of_render_date hx hx' (Json.str.inj h)]

/-- Timestamps and dates are decoded and shown as what they are. A count of microseconds from
2000-01-01, other than the two that stand for the infinities, is decoded if a date can name its day,
without a sum that 64 bits do not hold, and gives just the moment that is so many microseconds after
2000-01-01; its text is the one RFC 3339 has for the date and the time of day. A count of days is
decoded on the same condition, and its text is that of the start of the day. So payloads of one type
that are shown alike are the same. -/
theorem decode_instants :
    (∀ oid ∈ [1114, 1184], ∀ m : Int64,
      if m = Int64.maxValue then decode oid (signed 8 m.toInt) = some (.timestamp .infinity)
      else if m = Int64.minValue then
        decode oid (signed 8 m.toInt) = some (.timestamp .negInfinity)
      else if (epoch.plus (m.toInt / 86400000000)).Named then
        (m + 946684800000000).toInt = m.toInt + 946684800000000 ∧
        ∃ (t : Moment) (s : String),
          decode oid (signed 8 m.toInt) = some (.timestamp (.finite t)) ∧
          t.IsAfter epoch m.toInt ∧ (Native.timestamp (.finite t)).render = .str s ∧
          IsRfc3339 (epoch.plus (m.toInt / 86400000000)) (m.toInt % 86400000000).toNat s.toList
      else decode oid (signed 8 m.toInt) = none) ∧
    (∀ d : Int32,
      if d = Int32.maxValue then decode 1082 (signed 4 d.toInt) = some (.date .infinity)
      else if d = Int32.minValue then decode 1082 (signed 4 d.toInt) = some (.date .negInfinity)
      else if (epoch.plus d.toInt).Named then
        (d + 10957).toInt = d.toInt + 10957 ∧
        ∃ (day : Int) (s : String), decode 1082 (signed 4 d.toInt) = some (.date (.finite day)) ∧
          origin.plus day = epoch.plus d.toInt ∧ (Native.date (.finite day)).render = .str s ∧
          IsRfc3339 (epoch.plus d.toInt) 0 s.toList
      else decode 1082 (signed 4 d.toInt) = none) ∧
    ∀ oid ∈ [1114, 1184, 1082], ∀ bs bs' v v', decode oid bs = some v → decode oid bs' = some v' →
      v.render = v'.render → bs = bs' := by
  have hkind : ∀ oid ∈ [1114, 1184], kindOf? oid = some .timestamp := by decide
  have hkinds : ∀ oid ∈ [1114, 1184, 1082], kindOf? oid = some .timestamp ∨ oid = 1082 := by decide
  refine ⟨fun oid hoid m => ?_, fun d => ?_, fun oid hoid bs bs' v v' hv hv' hrender => ?_⟩
  · rw [decode_timestamp (hkind oid hoid)]
    split
    next hmax => subst hmax; rfl
    next hmax =>
      split
      next hmin => subst hmin; rfl
      next hmin =>
        rw [timestampOf?_eq (fun h => hmax (Int64.toInt_inj.1 h))
          fun h => hmin (Int64.toInt_inj.1 h)]
        split
        next hnamed =>
          have hafter := isAfter_moment m.toInt
          exact ⟨toInt_add_of_named hnamed, _, _, rfl, hafter, rfl, hafter.isRfc3339⟩
        next => rfl
  · rw [decode_date]
    split
    next hmax => subst hmax; rfl
    next hmax =>
      split
      next hmin => subst hmin; rfl
      next hmin =>
        rw [dateOf?_eq (fun h => hmax (Int32.toInt_inj.1 h)) fun h => hmin (Int32.toInt_inj.1 h)]
        split
        next hnamed =>
          have hdate := (dateOfDay_eq_plus _).symm.trans (epoch_plus d.toInt).symm
          exact ⟨toInt_add_of_named_day hnamed, _, _, rfl, hdate, rfl,
            isRfc3339_midnightText d.toInt⟩
        next => rfl
  · exact eq_of_render_decode (hkinds oid hoid) hv hv' hrender

/-- The last microsecond before 2000, which is before the counts begin. -/
theorem decode_instants_before_epoch :
    (∃ (t : Moment) (s : String),
      decode 1184 (signed 8 (-1)) = some (.timestamp (.finite t)) ∧ t.IsAfter epoch (-1) ∧
      (Native.timestamp (.finite t)).render = .str s ∧
      IsRfc3339 ⟨1999, 12, 31⟩ 86399999999 s.toList) ∧
    signed 8 (-1) = List.replicate 8 255 := by
  have hlast := decode_instants.1 1184 (by decide) (-1)
  rw [if_neg (by decide), if_neg (by decide), if_pos (by decide)] at hlast
  have hv : decode 1184 (signed 8 (-1)) =
      some (.timestamp (.finite ⟨946684799, 999999000⟩)) := by rfl
  have hv' : decode 1184 (List.replicate 8 255) =
      some (.timestamp (.finite ⟨946684799, 999999000⟩)) := by rfl
  exact ⟨hlast.2, decode_instants.2.2 1184 (by decide) _ _ _ _ hv hv' rfl⟩

end SqlGate.Wire
