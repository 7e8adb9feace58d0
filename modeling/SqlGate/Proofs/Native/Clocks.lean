import SqlGate.Proofs.Wire.TimesOfDay

/-!
# Clock texts

A time of day is shown in three ways: alone, before an offset, and in a timestamp. The clock has the
same hours, minutes and seconds each time (`isWholeText_text`), so what may be different is the
fraction of the second. The rule for it is `IsClockText`: none where the second has no whole
microsecond, and six digits otherwise.

Two of the texts do not keep to the rule everywhere. Alone and before an offset, a leap second counts
the second before it among its microseconds, and they take seven digits then. In a timestamp, what is
less than a microsecond is shown as a fraction of zeros. `clock_texts` says that this is all.
-/

namespace SqlGate

/-! ## A digit more than the width -/

namespace Text

/-- A number that needs a digit more than the width, and this is a one. -/
theorem toList_padNat_add {width n : Nat} (hwidth : 0 < width) (h : n < 10 ^ width) :
    (padNat width (10 ^ width + n)).toList = '1' :: (padNat width n).toList := by
  have hpadded := isPadded_padNat_of_lt hwidth h
  generalize (padNat width n).toList = cs at hpadded
  have hvalue : Nat.ofDigitChars 10 ('1' :: cs) 0 = 10 ^ width + n := by
    rw [Nat.ofDigitChars_cons, Nat.ofDigitChars_eq_ofDigitChars_zero, hpadded.length_eq,
      hpadded.value_eq]
    exact congrArg (· + n) (Nat.mul_one _)
  have hdigits : digits (10 ^ width + n) = '1' :: cs := by
    rw [← hvalue]
    exact digits_ofDigitChars (List.cons_ne_nil _ _)
      (List.forall_mem_cons.2 ⟨rfl, hpadded.isDigit⟩) (.inr (by simp))
  rw [padNat, String.toList_ofList, hdigits, List.length_cons, hpadded.length_eq,
    Nat.sub_eq_zero_of_le (Nat.le_succ width)]
  rfl

end Text

/-! ## The rule -/

namespace Calendar

open Text

variable {t : ClockTime} {whole fraction cs : List Char}

/-- The whole microseconds beyond the second. -/
def ClockTime.microsOfSecond (t : ClockTime) : Nat := t.nanos % 1000000000 / 1000

/-- Hours, minutes and seconds in two digits each. A leap second is the sixty-first of its minute. -/
inductive IsWholeText (t : ClockTime) : List Char → Prop
  | intro {hour minute second : List Char} (hhour : IsPadded 2 (t.seconds / 3600) hour)
      (hminute : IsPadded 2 (t.seconds / 60 % 60) minute)
      (hsecond : IsPadded 2 (t.seconds % 60 + t.nanos / 1000000000) second) :
      IsWholeText t (hour ++ ':' :: minute ++ ':' :: second)

/-- The text of a time of day by the fraction rule: a point and six digits follow the seconds, unless
there is no whole microsecond beyond the second. -/
inductive IsClockText (t : ClockTime) : List Char → Prop
  | intro {whole fraction : List Char} (hwhole : IsWholeText t whole)
      (hfraction : IsFractionText t.microsOfSecond fraction) : IsClockText t (whole ++ fraction)

theorem isWholeText_text (hseconds : t.seconds < 86400) (hnanos : t.nanos < 2000000000) :
    IsWholeText t t.text.toList := by
  have hhour : IsPadded 2 (t.seconds / 3600) (padNat 2 (t.seconds / 3600)).toList :=
    isPadded_padNat_of_lt (by decide) (by omega)
  have hminute : IsPadded 2 (t.seconds / 60 % 60) (padNat 2 (t.seconds / 60 % 60)).toList :=
    isPadded_padNat_of_lt (by decide) (by omega)
  have hsecond : IsPadded 2 (t.seconds % 60 + t.nanos / 1000000000)
      (padNat 2 (t.seconds % 60 + t.nanos / 1000000000)).toList :=
    isPadded_padNat_of_lt (by decide) (by omega)
  have htext := IsWholeText.intro hhour hminute hsecond
  rw [ClockTime.text]
  simpa using htext

theorem IsWholeText.length_eq (h : IsWholeText t whole) : whole.length = 8 := by
  obtain ⟨hhour, hminute, hsecond⟩ := h
  simp [hhour.length_eq, hminute.length_eq, hsecond.length_eq]

/-- Where the seconds end is known from the front, so the rule is about the rest. -/
theorem IsWholeText.isClockText_append_iff (h : IsWholeText t whole) :
    IsClockText t (whole ++ fraction) ↔ IsFractionText t.microsOfSecond fraction := by
  constructor
  · intro hclock
    generalize hcs : whole ++ fraction = cs at hclock
    cases hclock with
    | intro hwhole hfraction =>
        obtain ⟨rfl, rfl⟩ := List.append_inj hcs (h.length_eq.trans hwhole.length_eq.symm)
        exact hfraction
  · exact .intro h

theorem isFractionText_nil_iff {micros : Nat} : IsFractionText micros [] ↔ micros = 0 := by
  constructor
  · rintro ⟨⟩
    rfl
  · rintro rfl
    exact .none

theorem isFractionText_cons_iff {micros : Nat} :
    IsFractionText micros ('.' :: cs) ↔ 0 < micros ∧ IsPadded 6 micros cs := by
  constructor
  · rintro (_ | ⟨hpos, h⟩)
    exact ⟨hpos, h⟩
  · rintro ⟨hpos, h⟩
    exact .some hpos h

theorem isPadded_microsOfSecond (t : ClockTime) :
    IsPadded 6 t.microsOfSecond (padNat 6 t.microsOfSecond).toList :=
  isPadded_padNat_of_lt (by decide) (by unfold ClockTime.microsOfSecond; omega)

/-! ## Moments -/

/-- The moment of a time of day. -/
def Moment.ofClock (day : Int) (t : ClockTime) : Moment := ⟨day * 86400 + t.seconds, t.nanos⟩

theorem Moment.day_ofClock (day : Int) (hseconds : t.seconds < 86400) :
    (Moment.ofClock day t).day = day := by
  simp only [Moment.day, Moment.ofClock]
  omega

theorem Moment.clock_ofClock (day : Int) (hseconds : t.seconds < 86400) :
    (Moment.ofClock day t).clock = t := by
  have hrest : ((day * 86400 + t.seconds) % 86400).toNat = t.seconds := by omega
  rw [Moment.clock, Moment.ofClock, hrest]

/-- The clock of a timestamp. -/
def ClockTime.stampText (t : ClockTime) : String :=
  t.text ++ if t.nanos = 0 then "" else "." ++ padNat 6 t.microsOfSecond

theorem Moment.text_ofClock (day : Int) (hseconds : t.seconds < 86400) :
    (Moment.ofClock day t).text = dateText (dateOfDay day) ++ "T" ++ t.stampText ++ "Z" := by
  rw [Moment.text, Moment.day_ofClock day hseconds, Moment.clock_ofClock day hseconds,
    ClockTime.stampText, ← String.append_assoc]
  rfl

end Calendar

namespace Native

open Calendar Text

variable {t : ClockTime}

/-! ## The three texts -/

theorem toList_timeText_of_lt (h : t.nanos < 1000) :
    (timeText t).toList = t.text.toList ++ [] := by
  rw [timeText, if_pos (Nat.div_eq_of_lt h), List.append_nil]

/-- Before a leap second the fraction holds the microseconds beyond the second. -/
theorem toList_timeText_of_le (h : 1000 ≤ t.nanos) (hnanos : t.nanos < 1000000000) :
    (timeText t).toList = t.text.toList ++ '.' :: (padNat 6 t.microsOfSecond).toList := by
  rw [timeText, if_neg (by omega), ClockTime.microsOfSecond, Nat.mod_eq_of_lt hnanos]
  simp

/-- In a leap second it holds a million more of them, and that takes another digit. -/
theorem toList_timeText_of_leap (h : 1000000000 ≤ t.nanos) (hnanos : t.nanos < 2000000000) :
    (timeText t).toList = t.text.toList ++ '.' :: '1' :: (padNat 6 t.microsOfSecond).toList := by
  have hmicros : t.nanos / 1000 = 10 ^ 6 + t.microsOfSecond := by
    unfold ClockTime.microsOfSecond
    omega
  have hlt : t.microsOfSecond < 10 ^ 6 := by
    unfold ClockTime.microsOfSecond
    omega
  rw [timeText, if_neg (by omega), hmicros, String.toList_append, String.toList_append,
    toList_padNat_add (by decide) hlt]
  simp

theorem toList_stampText_of_eq_zero (h : t.nanos = 0) :
    t.stampText.toList = t.text.toList ++ [] := by
  rw [ClockTime.stampText, if_pos h, String.toList_append]
  rfl

/-- In a timestamp the fraction holds the microseconds beyond the second, be there none. -/
theorem toList_stampText_of_ne_zero (h : t.nanos ≠ 0) :
    t.stampText.toList = t.text.toList ++ '.' :: (padNat 6 t.microsOfSecond).toList := by
  rw [ClockTime.stampText, if_neg h]
  simp

theorem isClockText_timeText_iff (hseconds : t.seconds < 86400) (hnanos : t.nanos < 2000000000) :
    IsClockText t (timeText t).toList ↔ t.nanos < 1000000000 := by
  have hwhole := isWholeText_text hseconds hnanos
  have hpadded := isPadded_microsOfSecond t
  rcases Nat.lt_or_ge t.nanos 1000000000 with hlt | hleap
  · refine iff_of_true ?_ hlt
    have hmicros : t.microsOfSecond = t.nanos / 1000 := by
      rw [ClockTime.microsOfSecond, Nat.mod_eq_of_lt hlt]
    rcases Nat.lt_or_ge t.nanos 1000 with hsmall | hlarge
    · rw [toList_timeText_of_lt hsmall, hwhole.isClockText_append_iff, isFractionText_nil_iff]
      omega
    · rw [toList_timeText_of_le hlarge hlt, hwhole.isClockText_append_iff, isFractionText_cons_iff]
      exact ⟨by omega, hpadded⟩
  · refine iff_of_false ?_ (Nat.not_lt.2 hleap)
    rw [toList_timeText_of_leap hleap hnanos, hwhole.isClockText_append_iff,
      isFractionText_cons_iff]
    rintro ⟨-, hseven⟩
    have hlength := hseven.length_eq
    rw [List.length_cons, hpadded.length_eq] at hlength
    omega

theorem isClockText_stampText_iff (hseconds : t.seconds < 86400) (hnanos : t.nanos < 2000000000) :
    IsClockText t t.stampText.toList ↔ t.nanos = 0 ∨ 1000 ≤ t.nanos % 1000000000 := by
  have hwhole := isWholeText_text hseconds hnanos
  rcases Nat.eq_zero_or_pos t.nanos with hzero | hpos
  · refine iff_of_true ?_ (.inl hzero)
    rw [toList_stampText_of_eq_zero hzero, hwhole.isClockText_append_iff, isFractionText_nil_iff,
      ClockTime.microsOfSecond, hzero]
  · rw [toList_stampText_of_ne_zero (Nat.ne_of_gt hpos), hwhole.isClockText_append_iff,
      isFractionText_cons_iff, and_iff_left (isPadded_microsOfSecond t), ClockTime.microsOfSecond]
    omega

theorem timeText_eq_stampText_iff (hnanos : t.nanos < 2000000000) :
    timeText t = t.stampText ↔ t.nanos = 0 ∨ 1000 ≤ t.nanos ∧ t.nanos < 1000000000 := by
  have hlength := (isPadded_microsOfSecond t).length_eq
  rw [← String.toList_inj]
  rcases Nat.eq_zero_or_pos t.nanos with hzero | hpos
  · refine iff_of_true ?_ (.inl hzero)
    rw [toList_timeText_of_lt (by omega), toList_stampText_of_eq_zero hzero]
  · rw [toList_stampText_of_ne_zero (Nat.ne_of_gt hpos)]
    rcases Nat.lt_or_ge t.nanos 1000 with hsmall | hlarge
    · rw [toList_timeText_of_lt hsmall, List.append_cancel_left_eq]
      exact iff_of_false (by simp) (by omega)
    · rcases Nat.lt_or_ge t.nanos 1000000000 with hlt | hleap
      · rw [toList_timeText_of_le hlarge hlt]
        exact iff_of_true rfl (.inr ⟨hlarge, hlt⟩)
      · rw [toList_timeText_of_leap hleap hnanos, List.append_cancel_left_eq]
        refine iff_of_false (fun h => ?_) (by omega)
        have hlengths := congrArg List.length h
        simp only [List.length_cons, hlength] at hlengths
        omega

/-- A time of day is shown with the same clock alone and before an offset. That keeps to the
fraction rule unless it is a leap second, of which it shows a million microseconds too many. In a
timestamp, on whatever day, the clock keeps to the rule unless there is something beyond the second
but less than a microsecond, and then it shows six zeros. So all three clocks are the same, and keep
to the rule, before a leap second and where there is nothing or a microsecond at least beyond the
second. -/
theorem clock_texts {t : ClockTime} {day east : Int} (hseconds : t.seconds < 86400)
    (hnanos : t.nanos < 2000000000) (heast : east.natAbs < 86400) :
    ∃ time date stamp offset : String,
      (Native.time t).render = .str time ∧
      (Native.timeTz t east).render = .str (time ++ offset) ∧
      (Native.timestamp (.finite (.ofClock day t))).render =
        .str (date ++ "T" ++ stamp ++ "Z") ∧
      IsOffsetText east offset.toList ∧ IsDateText (origin.plus day) date.toList ∧
      (IsClockText t time.toList ↔ t.nanos < 1000000000) ∧
      (IsClockText t stamp.toList ↔ t.nanos = 0 ∨ 1000 ≤ t.nanos % 1000000000) ∧
      (time = stamp ↔ t.nanos = 0 ∨ 1000 ≤ t.nanos ∧ t.nanos < 1000000000) ∧
      (1000000000 ≤ t.nanos → ∃ whole six, IsWholeText t whole ∧ IsPadded 6 t.microsOfSecond six ∧
        time.toList = whole ++ '.' :: '1' :: six) ∧
      (t.nanos ≠ 0 → t.nanos % 1000000000 < 1000 → ∃ whole, IsWholeText t whole ∧
        stamp.toList = whole ++ ".000000".toList) := by
  have hwhole := isWholeText_text hseconds hnanos
  have hdate := (valid_dateOfDay day).isDateText_dateText
  rw [dateOfDay_eq_plus] at hdate
  refine ⟨timeText t, dateText (origin.plus day), t.stampText, offsetText east, rfl, rfl, ?_,
    isOffsetText_offsetText heast, hdate, isClockText_timeText_iff hseconds hnanos,
    isClockText_stampText_iff hseconds hnanos, timeText_eq_stampText_iff hnanos,
    fun hleap => ⟨_, _, hwhole, isPadded_microsOfSecond t, toList_timeText_of_leap hleap hnanos⟩,
    fun hzero hsmall => ⟨_, hwhole, ?_⟩⟩
  · rw [← dateOfDay_eq_plus, ← Moment.text_ofClock day hseconds]
    rfl
  · have hnone : t.microsOfSecond = 0 := Nat.div_eq_of_lt hsmall
    rw [toList_stampText_of_ne_zero hzero, hnone]
    rfl

/-- A hundred and twenty microseconds after half past nine, five and a half hours west. -/
theorem clock_texts_west :
    let t : ClockTime := ⟨34200, 120000⟩
    t.seconds < 86400 ∧ t.nanos < 2000000000 ∧ Int.natAbs (-19800) < 86400 ∧
    ∃ time date offset : String,
      (Native.time t).render = .str time ∧
      (Native.timeTz t (-19800)).render = .str (time ++ offset) ∧
      (Native.timestamp (.finite (.ofClock 19791 t))).render = .str (date ++ "T" ++ time ++ "Z") ∧
      IsOffsetText (-19800) offset.toList ∧ IsDateText (origin.plus 19791) date.toList ∧
      IsClockText t time.toList := by
  intro t
  obtain ⟨time, date, stamp, offset, htime, htimeTz, hstamp, hoffset, hdate, hrule, -, hsame, -⟩ :=
    @clock_texts t 19791 (-19800) (by decide) (by decide) (by decide)
  obtain rfl := hsame.2 (by decide)
  exact ⟨by decide, by decide, by decide, time, date, offset, htime, htimeTz, hstamp, hoffset, hdate,
    hrule.2 (by decide)⟩

/-- In the middle of a leap second the time of day has seven digits, and the timestamp six. Seven
billionths of a second are no fraction in the time of day, and six zeros in the timestamp. -/
theorem clocks_differ :
    (Native.time ⟨86399, 1500000000⟩).render = .str "23:59:60.1500000" ∧
      (Native.timestamp (.finite (.ofClock 17166 ⟨86399, 1500000000⟩))).render =
        .str "2016-12-31T23:59:60.500000Z" ∧
      ¬ IsClockText ⟨86399, 1500000000⟩ "23:59:60.1500000".toList ∧
      (Native.time ⟨50707, 7⟩).render = .str "14:05:07" ∧
      (Native.timestamp (.finite (.ofClock 17166 ⟨50707, 7⟩))).render =
        .str "2016-12-31T14:05:07.000000Z" ∧
      ¬ IsClockText ⟨50707, 7⟩ "14:05:07.000000".toList := by
  have hleap := isClockText_timeText_iff (t := ⟨86399, 1500000000⟩) (by decide) (by decide)
  have hsmall := isClockText_stampText_iff (t := ⟨50707, 7⟩) (by decide) (by decide)
  have hseven : timeText ⟨86399, 1500000000⟩ = "23:59:60.1500000" := by decide +kernel
  have hzeros : ClockTime.stampText ⟨50707, 7⟩ = "14:05:07.000000" := by decide +kernel
  rw [hseven] at hleap
  rw [hzeros] at hsmall
  refine ⟨congrArg Json.str hseven, ?_, fun h => absurd (hleap.1 h) (by decide), ?_, ?_,
    fun h => absurd (hsmall.1 h) (by decide)⟩
  · exact congrArg Json.str (by decide +kernel)
  · exact congrArg Json.str (by decide +kernel)
  · exact congrArg Json.str (by decide +kernel)

end Native

end SqlGate
