import SqlGate.Native.Render
import SqlGate.Proofs.Calendar.Rfc3339
import SqlGate.Proofs.Wire.Layout
import SqlGate.Wire.Decode

/-!
# Times of day

A time of day is microseconds on the wire, up to and with the end of the day, which no clock shows.
With an offset it is followed by seconds west of Coordinated Universal Time, and its text by the
offset east of it (`IsOffsetText`). A day has no end there: what has an offset is decoded if it is
before the end of the day (`timeTzOf?_eq`). `decode_times` says which payloads are decoded and that
their texts tell the time and the offset.
-/

namespace SqlGate

namespace Calendar

open Text

/-- The text of the seconds of an offset. -/
inductive IsSecondsText : Nat → List Char → Prop
  | none : IsSecondsText 0 []
  | some {seconds : Nat} {cs : List Char} (hpos : 0 < seconds) (h : IsPadded 2 seconds cs) :
      IsSecondsText seconds (':' :: cs)

/-- The text of an offset from Coordinated Universal Time, in seconds east of it: a sign, hours and
minutes, and seconds unless there are none. -/
inductive IsOffsetText (east : Int) : List Char → Prop
  | intro {hour minute second : List Char} (hhour : IsPadded 2 (east.natAbs / 3600) hour)
      (hminute : IsPadded 2 (east.natAbs / 60 % 60) minute)
      (hsecond : IsSecondsText (east.natAbs % 60) second) :
      IsOffsetText east ((if east < 0 then '-' else '+') :: (hour ++ ':' :: minute ++ second))

variable {cs : List Char}

theorem isOffsetText_offsetText {east : Int} (h : east.natAbs < 86400) :
    IsOffsetText east (Native.offsetText east).toList := by
  have hhour : IsPadded 2 (east.natAbs / 3600) (padNat 2 (east.natAbs / 3600)).toList :=
    isPadded_padNat_of_lt (by decide) (by omega)
  have hminute : IsPadded 2 (east.natAbs / 60 % 60) (padNat 2 (east.natAbs / 60 % 60)).toList :=
    isPadded_padNat_of_lt (by decide) (by omega)
  have hsecond : IsSecondsText (east.natAbs % 60)
      (if east.natAbs % 60 = 0 then "" else ":" ++ padNat 2 (east.natAbs % 60)).toList := by
    split
    next hzero => rw [hzero]; exact .none
    next hpos =>
      rw [String.toList_append]
      exact .some (by omega) (isPadded_padNat_of_lt (by decide) (by omega))
  have htext := IsOffsetText.intro hhour hminute hsecond
  rw [Native.offsetText]
  by_cases hzero : east.natAbs % 60 = 0 <;> by_cases hneg : east < 0 <;>
    simpa [hzero, hneg] using htext

theorem IsSecondsText.unique {seconds seconds' : Nat} (h : IsSecondsText seconds cs)
    (h' : IsSecondsText seconds' cs) : seconds = seconds' := by
  cases h with
  | none => cases h'; rfl
  | some _ h =>
      cases h' with
      | some _ h' => exact h.unique h'

/-- A text is that of one offset. -/
theorem IsOffsetText.unique {east east' : Int} (h : IsOffsetText east cs)
    (h' : IsOffsetText east' cs) : east = east' := by
  cases h with
  | @intro hour minute second hhour hminute hsecond =>
      generalize hcs : (if east < 0 then '-' else '+') :: (hour ++ ':' :: minute ++ second) = cs
        at h'
      cases h' with
      | intro hhour' hminute' hsecond' =>
          obtain ⟨hsign, hrest⟩ := List.cons.inj hcs
          have hneg : east < 0 ↔ east' < 0 := by
            split at hsign <;> split at hsign
            · tauto
            · cases hsign
            · cases hsign
            · tauto
          -- The lengths are known from the front.
          simp only [List.append_assoc] at hrest
          obtain ⟨rfl, hafterHour⟩ := List.append_inj hrest
            (hhour.length_eq.trans hhour'.length_eq.symm)
          obtain ⟨hmiddle, rfl⟩ := List.append_inj hafterHour
            (by simp [hminute.length_eq, hminute'.length_eq])
          obtain rfl := (List.cons.inj hmiddle).2
          have hhours := hhour.unique hhour'
          have hminutes := hminute.unique hminute'
          have hseconds := hsecond.unique hsecond'
          omega

/-- Whether a character is the sign of an offset. -/
def isSign (c : Char) : Bool := c = '+' || c = '-'

theorem IsTimeText.isSign_eq_false {micros : Nat} (h : IsTimeText micros cs) :
    ∀ c ∈ cs, isSign c = false := by
  intro c hc
  rw [isSign, Bool.or_eq_false_iff, decide_eq_false_iff_not, decide_eq_false_iff_not]
  constructor
  · rintro rfl
    exact h.not_mem rfl (by decide) (by decide) hc
  · rintro rfl
    exact h.not_mem rfl (by decide) (by decide) hc

theorem IsOffsetText.exists_cons {east : Int} (h : IsOffsetText east cs) :
    ∃ c r, cs = c :: r ∧ isSign c = true := by
  cases h
  exact ⟨_, _, rfl, by split <;> rfl⟩

/-- Where a time of day ends and an offset begins is seen from the sign. -/
theorem append_offset_inj {micros micros' : Nat} {east east' : Int} {time time' offset offset' :
    List Char} (htime : IsTimeText micros time) (htime' : IsTimeText micros' time')
    (hoffset : IsOffsetText east offset) (hoffset' : IsOffsetText east' offset')
    (h : time ++ offset = time' ++ offset') : micros = micros' ∧ east = east' := by
  have hfront : ∀ {micros east time offset}, IsTimeText micros time → IsOffsetText east offset →
      (time ++ offset).takeWhile (!isSign ·) = time := by
    intro micros east time offset htime hoffset
    obtain ⟨c, r, rfl, hc⟩ := hoffset.exists_cons
    have hall : ∀ c ∈ time, (!isSign c) = true := fun c hmem => by
      rw [htime.isSign_eq_false c hmem, Bool.not_false]
    rw [List.takeWhile_append_of_pos hall, List.takeWhile_cons_of_neg (by simp [hc]),
      List.append_nil]
  have htimes : time = time' := by rw [← hfront htime hoffset, h, hfront htime' hoffset']
  subst htimes
  obtain rfl := List.append_cancel_left h
  exact ⟨htime.unique htime', hoffset.unique hoffset'⟩

end Calendar

namespace Wire

open Calendar Read

/-! ## Counts -/

theorem clockOf?_eq_none {m : Int} (h : ¬ (0 ≤ m ∧ m < 86400000000)) : clockOf? m = none := if_neg h

/-- The clock shows the time. -/
theorem exists_clockOf? {m : Int} (h : 0 ≤ m ∧ m < 86400000000) :
    ∃ t, clockOf? m = some t ∧ IsTimeText m.toNat (Native.timeText t).toList := by
  refine ⟨_, if_pos h, ?_⟩
  obtain ⟨m, rfl⟩ := Int.eq_ofNat_of_zero_le h.1
  obtain ⟨t, ht⟩ : ∃ t : ClockTime, t = ⟨((m : Int) / 1000000).toNat,
    ((m : Int) % 1000000).toNat * 1000⟩ := ⟨_, rfl⟩
  have hseconds : t.seconds = m / 1000000 := by rw [ht]; dsimp only; omega
  have hnanos : t.nanos = m % 1000000 * 1000 := by rw [ht]; dsimp only; omega
  have hfraction : IsFractionText (t.nanos / 1000)
      (if t.nanos / 1000 = 0 then "" else "." ++ Text.padNat 6 (t.nanos / 1000)).toList := by
    split
    next hzero => rw [hzero]; exact .none
    next hpos =>
      rw [String.toList_append]
      exact .some (by omega) (Text.isPadded_padNat_of_lt (by decide) (by omega))
  have htext := isTimeText_append (by omega) (by omega) hfraction
  have hmicros : t.seconds * 1000000 + t.nanos / 1000 = m := by omega
  rw [hmicros] at htext
  rw [← ht, Native.timeText]
  by_cases hzero : t.nanos / 1000 = 0 <;> simpa [hzero] using htext

/-- The end of the day is shown as the twenty-fourth hour. -/
theorem isTimeText_endOfDay : IsTimeText 86400000000 "24:00:00".toList := by
  have hhour : Text.IsPadded 2 24 ['2', '4'] :=
    Text.isPadded_padNat_of_lt (by decide) (by decide)
  have hzero : Text.IsPadded 2 0 ['0', '0'] := Text.isPadded_padNat_of_lt (by decide) (by decide)
  have htext : IsTimeText 86400000000
      (['2', '4'] ++ ':' :: ['0', '0'] ++ ':' :: ['0', '0'] ++ []) := .intro hhour hzero hzero .none
  exact htext

theorem exists_timeOf? {m : Int} (h : 0 ≤ m ∧ m ≤ 86400000000) :
    ∃ v s, timeOf? m = some v ∧ v.render = .str s ∧ IsTimeText m.toNat s.toList := by
  rw [timeOf?]
  split
  next hend =>
    subst hend
    exact ⟨_, _, rfl, rfl, isTimeText_endOfDay⟩
  next hend =>
    obtain ⟨t, ht, htext⟩ := exists_clockOf? (m := m) (by omega)
    rw [ht]
    exact ⟨_, _, rfl, rfl, htext⟩

theorem timeOf?_eq_none {m : Int} (h : ¬ (0 ≤ m ∧ m ≤ 86400000000)) : timeOf? m = none := by
  rw [timeOf?, if_neg (by omega), clockOf?_eq_none (by omega), Option.map_none]

/-- A time with an offset shows the same time as one without. -/
theorem exists_timeTzOf? {m west : Int} (h : 0 ≤ m ∧ m < 86400000000)
    (hwest : west.natAbs < 86400) :
    ∃ v time offset, timeTzOf? m west = some v ∧ v.render = .str (time ++ offset) ∧
      (timeOf? m).map Native.render = some (.str time) ∧ IsTimeText m.toNat time.toList ∧
      IsOffsetText (-west) offset.toList := by
  obtain ⟨t, ht, htext⟩ := exists_clockOf? h
  refine ⟨.timeTz t (-west), Native.timeText t, Native.offsetText (-west), ?_, rfl, ?_, htext,
    isOffsetText_offsetText (by omega)⟩
  · rw [timeTzOf?, if_pos hwest, ht, Option.map_some]
  · rw [timeOf?, if_neg (by omega), ht]
    rfl

theorem timeTzOf?_eq_none {m west : Int}
    (h : ¬ (0 ≤ m ∧ m < 86400000000 ∧ west.natAbs < 86400)) : timeTzOf? m west = none := by
  rw [timeTzOf?]
  split
  next hwest => rw [clockOf?_eq_none (by tauto), Option.map_none]
  next => rfl

/-! ## Payloads -/

section

variable {bs : List UInt8} {v : Native}

theorem decode_time (m : Int64) : decode 1083 (signed 8 m.toInt) = timeOf? m.toInt := by
  have hfinds : Finds int64 (signed 8 m.toInt) m := (finds_int64 m.toInt).congr m.ofInt_toInt
  change (int64 >>= fun m => _).whole _ = _
  rw [hfinds.whole_bind]
  cases timeOf? m.toInt <;> rfl

theorem decode_timeTz (m : Int64) (west : Int32) :
    decode 1266 (signed 8 m.toInt ++ signed 4 west.toInt) = timeTzOf? m.toInt west.toInt := by
  have hm : Finds int64 (signed 8 m.toInt) m := (finds_int64 m.toInt).congr m.ofInt_toInt
  have hwest : Finds int32 (signed 4 west.toInt) west :=
    (finds_int32 west.toInt).congr west.ofInt_toInt
  change (int64 >>= fun m => int32 >>= fun west => _).whole _ = _
  rw [hm.whole_bind_append, hwest.whole_bind]
  cases timeTzOf? m.toInt west.toInt <;> rfl

/-- The payload of a time is a count. -/
theorem exists_of_decode_time (h : decode 1083 bs = some v) :
    ∃ m : Int64, bs = signed 8 m.toInt ∧ timeOf? m.toInt = some v :=
  exists_signed_of_whole_int64 (fun m rest => by cases timeOf? m.toInt <;> rfl) h

/-- The payload of a time with an offset is two counts. -/
theorem exists_of_decode_timeTz (h : decode 1266 bs = some v) :
    ∃ (m : Int64) (west : Int32), bs = signed 8 m.toInt ++ signed 4 west.toInt ∧
      timeTzOf? m.toInt west.toInt = some v := by
  obtain ⟨m, mid, hm, hrest⟩ := bind_eq_some_iff.1 (whole_eq_some_iff.1 h)
  obtain ⟨west, hwest, hv⟩ := exists_signed_of_whole_int32
    (f := fun west => timeTzOf? m.toInt west.toInt)
    (fun west rest => by cases timeTzOf? m.toInt west.toInt <;> rfl) (whole_eq_some_iff.2 hrest)
  exact ⟨m, west, by rw [eq_of_int64 hm, hwest], hv⟩

end

/-- What is decoded has the text of its time. -/
theorem isTimeText_of_timeOf? {m : Int} {v : Native} (h : timeOf? m = some v) :
    0 ≤ m ∧ ∃ s, v.render = .str s ∧ IsTimeText m.toNat s.toList := by
  by_cases hday : 0 ≤ m ∧ m ≤ 86400000000
  · obtain ⟨w, s, hw, hs, htext⟩ := exists_timeOf? hday
    cases h.symm.trans hw
    exact ⟨hday.1, s, hs, htext⟩
  · rw [timeOf?_eq_none hday] at h
    cases h

theorem isTimeText_of_timeTzOf? {m west : Int} {v : Native} (h : timeTzOf? m west = some v) :
    0 ≤ m ∧ ∃ time offset, v.render = .str (time ++ offset) ∧ IsTimeText m.toNat time.toList ∧
      IsOffsetText (-west) offset.toList := by
  by_cases hday : 0 ≤ m ∧ m < 86400000000 ∧ west.natAbs < 86400
  · obtain ⟨w, time, offset, hw, hs, -, htime, hoffset⟩ :=
      exists_timeTzOf? ⟨hday.1, hday.2.1⟩ hday.2.2
    cases h.symm.trans hw
    exact ⟨hday.1, time, offset, hs, htime, hoffset⟩
  · rw [timeTzOf?_eq_none hday] at h
    cases h

/-- Payloads of one type that are shown alike are the same. -/
theorem eq_of_render_decode_time {oid : Nat} {bs bs' : List UInt8} {v v' : Native}
    (hoid : oid = 1083 ∨ oid = 1266) (hv : decode oid bs = some v) (hv' : decode oid bs' = some v')
    (h : v.render = v'.render) : bs = bs' := by
  rcases hoid with rfl | rfl
  · obtain ⟨m, rfl, ht⟩ := exists_of_decode_time hv
    obtain ⟨m', rfl, ht'⟩ := exists_of_decode_time hv'
    obtain ⟨hpos, s, hs, htext⟩ := isTimeText_of_timeOf? ht
    obtain ⟨hpos', s', hs', htext'⟩ := isTimeText_of_timeOf? ht'
    obtain rfl : s = s' := Json.str.inj (hs.symm.trans (h.trans hs'))
    have hm := htext.unique htext'
    rw [show m.toInt = m'.toInt by omega]
  · obtain ⟨m, west, rfl, ht⟩ := exists_of_decode_timeTz hv
    obtain ⟨m', west', rfl, ht'⟩ := exists_of_decode_timeTz hv'
    obtain ⟨hpos, time, offset, hs, htime, hoffset⟩ := isTimeText_of_timeTzOf? ht
    obtain ⟨hpos', time', offset', hs', htime', hoffset'⟩ := isTimeText_of_timeTzOf? ht'
    have htexts : time ++ offset = time' ++ offset' := Json.str.inj (hs.symm.trans (h.trans hs'))
    obtain ⟨hm, hwest⟩ := append_offset_inj htime htime' hoffset hoffset'
      (by rw [← String.toList_append, htexts, String.toList_append])
    rw [show m.toInt = m'.toInt by omega, show west.toInt = west'.toInt by omega]

/-- Times of day are decoded and shown as what they are. A count of microseconds is decoded if it is
in the day, the end of the day included, and is shown as hours, minutes and seconds, followed by the
microseconds unless there are none. A count before the end of the day with an offset of less than a
day is shown as the same time, followed by the offset east; with an offset, the end of the day is
not decoded. No other count is. Payloads of one type that are shown alike are the same. -/
theorem decode_times (m : Int64) (west : Int32) :
    (if 0 ≤ m.toInt ∧ m.toInt ≤ 86400000000 then
      ∃ v s, decode 1083 (signed 8 m.toInt) = some v ∧ v.render = .str s ∧
        IsTimeText m.toInt.toNat s.toList
    else decode 1083 (signed 8 m.toInt) = none) ∧
    (if 0 ≤ m.toInt ∧ m.toInt < 86400000000 ∧ west.toInt.natAbs < 86400 then
      ∃ v time offset, decode 1266 (signed 8 m.toInt ++ signed 4 west.toInt) = some v ∧
        v.render = .str (time ++ offset) ∧
        (decode 1083 (signed 8 m.toInt)).map Native.render = some (.str time) ∧
        IsTimeText m.toInt.toNat time.toList ∧ IsOffsetText (-west.toInt) offset.toList
    else decode 1266 (signed 8 m.toInt ++ signed 4 west.toInt) = none) ∧
    ∀ oid ∈ [1083, 1266], ∀ bs bs' v v', decode oid bs = some v → decode oid bs' = some v' →
      v.render = v'.render → bs = bs' := by
  refine ⟨?_, ?_, fun oid hoid bs bs' v v' hv hv' hrender => ?_⟩
  · rw [decode_time]
    split
    next hday => exact exists_timeOf? hday
    next hday => exact timeOf?_eq_none hday
  · rw [decode_timeTz, decode_time]
    split
    next hday => exact exists_timeTzOf? ⟨hday.1, hday.2.1⟩ hday.2.2
    next hday => exact timeTzOf?_eq_none hday
  · exact eq_of_render_decode_time (by simpa using hoid) hv hv' hrender

/-- Half a second before the end of the day, three and a half hours west. -/
theorem decode_times_west :
    (∃ v time offset, decode 1266 (signed 8 86399500000 ++ signed 4 12600) = some v ∧
      v.render = .str (time ++ offset) ∧ IsTimeText 86399500000 time.toList ∧
      IsOffsetText (-12600) offset.toList) ∧
    signed 8 86399500000 ++ signed 4 12600 =
      [0, 0, 0, 0x14, 0x1D, 0xCF, 0xBE, 0xE0, 0, 0, 0x31, 0x38] := by
  have hwest := (decode_times 86399500000 12600).2.1
  rw [if_pos (by decide)] at hwest
  obtain ⟨v, time, offset, hv, hrender, -, htime, hoffset⟩ := hwest
  have hv₁ : decode 1266 (signed 8 86399500000 ++ signed 4 12600) =
      some (.timeTz ⟨86399, 500000000⟩ (-12600)) := by rfl
  have hv₂ : decode 1266 [0, 0, 0, 0x14, 0x1D, 0xCF, 0xBE, 0xE0, 0, 0, 0x31, 0x38] =
      some (.timeTz ⟨86399, 500000000⟩ (-12600)) := by rfl
  exact ⟨⟨v, time, offset, hv, hrender, htime, hoffset⟩,
    (decode_times 86399500000 12600).2.2 1266 (by decide) _ _ _ _ hv₁ hv₂ rfl⟩

/-- The end of the day is a time, but with an offset it is not decoded. -/
theorem endOfDay_with_offset_refused :
    decode 1083 [0, 0, 0, 0x14, 0x1D, 0xD7, 0x60, 0] = some (.text "24:00:00") ∧
      [0, 0, 0, 0x14, 0x1D, 0xD7, 0x60, 0] = signed 8 86400000000 ∧
      decode 1266 ([0, 0, 0, 0x14, 0x1D, 0xD7, 0x60, 0] ++ signed 4 0) = none :=
  ⟨rfl, by decide, rfl⟩

end Wire

end SqlGate
