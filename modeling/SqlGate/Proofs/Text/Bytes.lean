import SqlGate.Text.Bytes
import SqlGate.Text.Utf8

/-!
# Texts as bytes, and bytes as texts

## UTF-8

The bytes of a text are cut into the characters of the text again, so a text is read back from its
bytes, strictly and leniently. Bytes that are read as a text strictly are the bytes of it and of no
other (`decode?_eq_some_iff`).
-/

namespace SqlGate.Text.Utf8

theorem isTail_iff {b : UInt8} : isTail b = true ↔ 0x80 ≤ b.toNat ∧ b.toNat ≤ 0xBF := by
  simp [isTail, UInt8.le_iff_toNat_le]

theorem isSecondOfThree_iff {b b1 : UInt8} : isSecondOfThree b b1 = true ↔
    0x80 ≤ b1.toNat ∧ b1.toNat ≤ 0xBF ∧ (b.toNat = 0xE0 → 0xA0 ≤ b1.toNat) ∧
      (b.toNat = 0xED → b1.toNat ≤ 0x9F) := by
  unfold isSecondOfThree isTail
  simp only [beq_iff_eq, ← UInt8.toNat_inj, UInt8.le_iff_toNat_le, UInt8.reduceToNat]
  split
  · simp only [Bool.and_eq_true, decide_eq_true_eq]
    omega
  · split <;> simp only [Bool.and_eq_true, decide_eq_true_eq] <;> omega

theorem isSecondOfFour_iff {b b1 : UInt8} : isSecondOfFour b b1 = true ↔
    0x80 ≤ b1.toNat ∧ b1.toNat ≤ 0xBF ∧ (b.toNat = 0xF0 → 0x90 ≤ b1.toNat) ∧
      (b.toNat = 0xF4 → b1.toNat ≤ 0x8F) := by
  unfold isSecondOfFour isTail
  simp only [beq_iff_eq, ← UInt8.toNat_inj, UInt8.le_iff_toNat_le, UInt8.reduceToNat]
  split
  · simp only [Bool.and_eq_true, decide_eq_true_eq]
    omega
  · split <;> simp only [Bool.and_eq_true, decide_eq_true_eq] <;> omega

theorem isTail_ofNat (n : Nat) : isTail (UInt8.ofNat (n % 64 + 128)) = true := by
  rw [isTail_iff, UInt8.toNat_ofNat']
  omega

theorem tailBits_ofNat (n : Nat) : tailBits (UInt8.ofNat (n % 64 + 128)) = n % 64 := by
  simp only [tailBits, UInt8.toNat_ofNat']
  omega

/-- A first byte is told by the range it is in. -/
theorem between_iff {low high b : UInt8} :
    (decide (low ≤ b) && decide (b ≤ high)) = true ↔
      low.toNat ≤ b.toNat ∧ b.toNat ≤ high.toNat := by
  simp [UInt8.le_iff_toNat_le]

theorem lt_ascii_iff {b : UInt8} : b < 0x80 ↔ b.toNat < 0x80 := UInt8.lt_iff_toNat_lt

theorem pieces_one {b : UInt8} (h : b.toNat < 0x80) (r : List UInt8) :
    pieces (b :: r) = .char (Char.ofNat b.toNat) :: pieces r := by
  have hb : b < 0x80 := lt_ascii_iff.2 h
  rw [pieces.eq_def]
  simp only [hb, if_true]

theorem pieces_two {b b1 : UInt8} (h : 0xC2 ≤ b.toNat ∧ b.toNat ≤ 0xDF) (h1 : isTail b1 = true)
    (r : List UInt8) : pieces (b :: b1 :: r) =
      .char (Char.ofNat (b.toNat % 32 * 64 + tailBits b1)) :: pieces r := by
  have hone : ¬ b < 0x80 := mt lt_ascii_iff.1 (by omega)
  have htwo : (decide (0xC2 ≤ b) && decide (b ≤ 0xDF)) = true := between_iff.2 h
  rw [pieces.eq_def]
  simp only [hone, htwo, h1, if_true, if_false]

theorem pieces_three {b b1 b2 : UInt8} (h : 0xE0 ≤ b.toNat ∧ b.toNat ≤ 0xEF)
    (h1 : isSecondOfThree b b1 = true) (h2 : isTail b2 = true) (r : List UInt8) :
    pieces (b :: b1 :: b2 :: r) =
      .char (Char.ofNat (b.toNat % 16 * 4096 + tailBits b1 * 64 + tailBits b2)) :: pieces r := by
  have hone : ¬ b < 0x80 := mt lt_ascii_iff.1 (by omega)
  have htwo : ¬ (decide (0xC2 ≤ b) && decide (b ≤ 0xDF)) = true :=
    mt between_iff.1 (by simp only [UInt8.reduceToNat]; omega)
  have hthree : (decide (0xE0 ≤ b) && decide (b ≤ 0xEF)) = true := between_iff.2 h
  rw [pieces.eq_def]
  simp only [hone, htwo, hthree, h1, h2, if_true, if_false, Bool.false_eq_true]

theorem pieces_four {b b1 b2 b3 : UInt8} (h : 0xF0 ≤ b.toNat ∧ b.toNat ≤ 0xF4)
    (h1 : isSecondOfFour b b1 = true) (h2 : isTail b2 = true) (h3 : isTail b3 = true)
    (r : List UInt8) : pieces (b :: b1 :: b2 :: b3 :: r) =
      .char (Char.ofNat (b.toNat % 8 * 262144 + tailBits b1 * 4096 + tailBits b2 * 64 +
        tailBits b3)) :: pieces r := by
  have hone : ¬ b < 0x80 := mt lt_ascii_iff.1 (by omega)
  have htwo : ¬ (decide (0xC2 ≤ b) && decide (b ≤ 0xDF)) = true :=
    mt between_iff.1 (by simp only [UInt8.reduceToNat]; omega)
  have hthree : ¬ (decide (0xE0 ≤ b) && decide (b ≤ 0xEF)) = true :=
    mt between_iff.1 (by simp only [UInt8.reduceToNat]; omega)
  have hfour : (decide (0xF0 ≤ b) && decide (b ≤ 0xF4)) = true := between_iff.2 h
  rw [pieces.eq_def]
  simp only [hone, htwo, hthree, hfour, h1, h2, h3, if_true, if_false, Bool.false_eq_true]

/-- No character is a surrogate, so the first two of three bytes are not those of one. -/
theorem isSecondOfThree_ofNat {v : Nat} (hlow : 0x7FF < v) (hv : v < 0xD800 ∨ 0xDFFF < v)
    (hhigh : v ≤ 0xFFFF) : isSecondOfThree (UInt8.ofNat (v / 4096 % 16 + 224))
      (UInt8.ofNat (v / 64 % 64 + 128)) = true := by
  rw [isSecondOfThree_iff, UInt8.toNat_ofNat', UInt8.toNat_ofNat']
  omega

theorem isSecondOfFour_ofNat {v : Nat} (hlow : 0xFFFF < v) (hhigh : v < 0x110000) :
    isSecondOfFour (UInt8.ofNat (v / 262144 % 8 + 240))
      (UInt8.ofNat (v / 4096 % 64 + 128)) = true := by
  rw [isSecondOfFour_iff, UInt8.toNat_ofNat', UInt8.toNat_ofNat']
  omega

/-- The bytes of a character are cut off as one piece. -/
theorem pieces_append_char (c : Char) (r : List UInt8) :
    pieces (String.utf8EncodeChar c ++ r) = .char c :: pieces r := by
  have hvalid : c.val.toNat < 0xD800 ∨ 0xDFFF < c.val.toNat ∧ c.val.toNat < 0x110000 := c.valid
  have hchar : ∀ n, n = c.val.toNat → Char.ofNat n = c := by
    rintro n rfl
    exact Char.ofNat_toNat c
  unfold String.utf8EncodeChar
  dsimp only
  split
  next h1 =>
    rw [List.singleton_append, pieces_one (by rw [UInt8.toNat_ofNat']; omega), hchar]
    rw [UInt8.toNat_ofNat']
    omega
  next h1 =>
    split
    next h2 =>
      change pieces (_ :: _ :: r) = _
      rw [pieces_two (by rw [UInt8.toNat_ofNat']; omega) (isTail_ofNat _), hchar]
      rw [tailBits_ofNat, UInt8.toNat_ofNat']
      omega
    next h2 =>
      split
      next h3 =>
        change pieces (_ :: _ :: _ :: r) = _
        rw [pieces_three (by rw [UInt8.toNat_ofNat']; omega)
          (isSecondOfThree_ofNat (by omega) (by omega) (by omega)) (isTail_ofNat _), hchar]
        rw [tailBits_ofNat, tailBits_ofNat, UInt8.toNat_ofNat']
        omega
      next h3 =>
        change pieces (_ :: _ :: _ :: _ :: r) = _
        rw [pieces_four (by rw [UInt8.toNat_ofNat']; omega)
          (isSecondOfFour_ofNat (by omega) (by omega)) (isTail_ofNat _) (isTail_ofNat _), hchar]
        rw [tailBits_ofNat, tailBits_ofNat, tailBits_ofNat, UInt8.toNat_ofNat']
        omega

theorem pieces_flatMap (cs : List Char) :
    pieces (cs.flatMap String.utf8EncodeChar) = cs.map .char := by
  induction cs with
  | nil => rfl
  | cons c cs ih => rw [List.flatMap_cons, pieces_append_char, ih, List.map_cons]

theorem ofPieces_map_char (cs : List Char) (index : Nat) :
    ofPieces index (cs.map .char) = .ok cs := by
  induction cs generalizing index with
  | nil => rfl
  | cons c cs ih => rw [List.map_cons, ofPieces, ih]; rfl

theorem toList_eq (a : ByteArray) : a.toList = a.data.toList := by
  have hloop : ∀ n i acc, i + n = a.size →
      ByteArray.toList.loop a i acc = acc.reverse ++ a.data.toList.drop i := by
    intro n
    induction n with
    | zero =>
        intro i acc hi
        have hlen : a.data.toList.length ≤ i := Nat.le_of_eq hi.symm
        rw [ByteArray.toList.loop, if_neg (by omega), List.drop_eq_nil_of_le hlen,
          List.append_nil]
    | succ n ih =>
        intro i acc hi
        have hlt : i < a.data.toList.length := Nat.lt_of_lt_of_eq (by omega) hi
        have hget : a.get! i = a.data.toList[i] := getElem!_pos a.data i hlt
        rw [ByteArray.toList.loop, if_pos (by omega), ih (i + 1) _ (by omega),
          List.drop_eq_getElem_cons hlt, hget, List.reverse_cons, List.append_assoc]
        rfl
  exact hloop a.size 0 [] (Nat.zero_add _)

/-- The bytes of a text are those of its characters. -/
theorem encode_eq (s : String) : encode s = s.toList.flatMap String.utf8EncodeChar := by
  have hs : s.toByteArray = s.toList.utf8Encode :=
    (congrArg String.toByteArray (String.ofList_toList (s := s))).symm
  rw [encode, String.toUTF8, hs, toList_eq, List.utf8Encode, List.toList_data_toByteArray]

theorem pieces_encode (s : String) : pieces (encode s) = s.toList.map .char := by
  rw [encode_eq, pieces_flatMap]

/-- A text is read back from its bytes. -/
theorem decode?_encode (s : String) : decode? (encode s) = some s := by
  rw [decode?, decode, pieces_encode, ofPieces_map_char]
  exact congrArg some (String.ofList_toList (s := s))

theorem lossy_encode (s : String) : lossy (encode s) = s := by
  have hmap : (s.toList.map Piece.char).map Piece.toChar = s.toList := by
    rw [List.map_map]
    exact List.map_id s.toList
  rw [lossy, pieces_encode, hmap, String.ofList_toList]

/-! ### Bytes that are read -/

theorem val_ofNat {n : Nat} (h : n < 0xD800 ∨ 0xDFFF < n ∧ n < 0x110000) :
    (Char.ofNat n).val.toNat = n := by
  have hvalid : n.isValidChar := h
  rw [Char.ofNat, dif_pos hvalid]
  rfl

theorem utf8EncodeChar_one {b : UInt8} (h : b.toNat < 0x80) :
    String.utf8EncodeChar (Char.ofNat b.toNat) = [b] := by
  unfold String.utf8EncodeChar
  dsimp only
  rw [val_ofNat (.inl (by omega)), if_pos (by omega), UInt8.ofNat_toNat]

theorem utf8EncodeChar_two {b b1 : UInt8} (h : 0xC2 ≤ b.toNat ∧ b.toNat ≤ 0xDF)
    (h1 : isTail b1 = true) :
    String.utf8EncodeChar (Char.ofNat (b.toNat % 32 * 64 + tailBits b1)) = [b, b1] := by
  have hb1 := isTail_iff.1 h1
  unfold String.utf8EncodeChar tailBits
  dsimp only
  rw [val_ofNat (.inl (by omega)), if_neg (by omega), if_pos (by omega)]
  simp only [List.cons.injEq, ← UInt8.toNat_inj, UInt8.toNat_ofNat', and_true]
  omega

theorem utf8EncodeChar_three {b b1 b2 : UInt8} (h : 0xE0 ≤ b.toNat ∧ b.toNat ≤ 0xEF)
    (h1 : isSecondOfThree b b1 = true) (h2 : isTail b2 = true) :
    String.utf8EncodeChar
      (Char.ofNat (b.toNat % 16 * 4096 + tailBits b1 * 64 + tailBits b2)) = [b, b1, b2] := by
  have hb1 := isSecondOfThree_iff.1 h1
  have hb2 := isTail_iff.1 h2
  unfold String.utf8EncodeChar tailBits
  dsimp only
  rw [val_ofNat (by omega), if_neg (by omega), if_neg (by omega), if_pos (by omega)]
  simp only [List.cons.injEq, ← UInt8.toNat_inj, UInt8.toNat_ofNat', and_true]
  omega

theorem utf8EncodeChar_four {b b1 b2 b3 : UInt8} (h : 0xF0 ≤ b.toNat ∧ b.toNat ≤ 0xF4)
    (h1 : isSecondOfFour b b1 = true) (h2 : isTail b2 = true) (h3 : isTail b3 = true) :
    String.utf8EncodeChar (Char.ofNat (b.toNat % 8 * 262144 + tailBits b1 * 4096 +
      tailBits b2 * 64 + tailBits b3)) = [b, b1, b2, b3] := by
  have hb1 := isSecondOfFour_iff.1 h1
  have hb2 := isTail_iff.1 h2
  have hb3 := isTail_iff.1 h3
  unfold String.utf8EncodeChar tailBits
  dsimp only
  rw [val_ofNat (by omega), if_neg (by omega), if_neg (by omega), if_neg (by omega)]
  simp only [List.cons.injEq, ← UInt8.toNat_inj, UInt8.toNat_ofNat', and_true]
  omega

/-- The bytes of a character are put before those of the characters after it. -/
theorem flatMap_of_cons {c : Char} {ps : List Piece} {cs : List Char} {bs r : List UInt8}
    (h : .char c :: ps = cs.map Piece.char) (hc : String.utf8EncodeChar c ++ r = bs)
    (ih : ∀ {cs : List Char}, ps = cs.map Piece.char → cs.flatMap String.utf8EncodeChar = r) :
    cs.flatMap String.utf8EncodeChar = bs := by
  cases cs with
  | nil => cases h
  | cons x cs =>
      obtain ⟨⟨rfl⟩, hps⟩ := List.cons.inj h
      rw [List.flatMap_cons, ih hps, hc]

/-- Bytes of which all pieces are characters are the bytes of these. -/
theorem flatMap_of_pieces {bs : List UInt8} {cs : List Char} (h : pieces bs = cs.map .char) :
    cs.flatMap String.utf8EncodeChar = bs := by
  fun_induction pieces bs generalizing cs with
  | case1 =>
      obtain rfl := List.map_eq_nil_iff.1 h.symm
      rfl
  | case2 b r hb ih =>
      refine flatMap_of_cons h ?_ ih
      rw [utf8EncodeChar_one (UInt8.lt_iff_toNat_lt.1 hb), List.singleton_append]
  | case4 b _ hb b1 r h1 ih =>
      refine flatMap_of_cons h ?_ ih
      rw [utf8EncodeChar_two (by simpa [UInt8.le_iff_toNat_le] using hb) h1]
      rfl
  | case8 b _ _ hb b1 h1 b2 r h2 ih =>
      refine flatMap_of_cons h ?_ ih
      rw [utf8EncodeChar_three (by simpa [UInt8.le_iff_toNat_le] using hb) h1 h2]
      rfl
  | case14 b _ _ _ hb b1 h1 b2 h2 b3 r h3 ih =>
      refine flatMap_of_cons h ?_ ih
      rw [utf8EncodeChar_four (by simpa [UInt8.le_iff_toNat_le] using hb) h1 h2 h3]
      rfl
  | _ =>
      obtain ⟨c, _, -, ⟨⟩, -⟩ := List.map_eq_cons_iff.1 h.symm

theorem eq_map_of_ofPieces {ps : List Piece} {cs : List Char} {i : Nat}
    (h : ofPieces i ps = .ok cs) : ps = cs.map .char := by
  fun_induction ofPieces i ps generalizing cs with
  | case1 => cases h; rfl
  | case2 i c ps ih =>
      cases hps : ofPieces (i + c.utf8Size) ps with
      | error why => rw [hps] at h; cases h
      | ok cs' =>
          rw [hps] at h
          cases h
          rw [ih hps, List.map_cons]
  | case3 => cases h
  | case4 => cases h

/-- Bytes that are read as a text are its bytes. -/
theorem encode_of_decode? {bs : List UInt8} {s : String} (h : decode? bs = some s) :
    encode s = bs := by
  cases hcs : ofPieces 0 (pieces bs) with
  | error why => rw [decode?, decode, hcs] at h; cases h
  | ok cs =>
      rw [decode?, decode, hcs] at h
      obtain rfl : String.ofList cs = s := Option.some.inj h
      rw [encode_eq, String.toList_ofList, flatMap_of_pieces (eq_map_of_ofPieces hcs)]

theorem decode?_eq_some_iff {bs : List UInt8} {s : String} : decode? bs = some s ↔ bs = encode s :=
  ⟨fun h => (encode_of_decode? h).symm, fun h => h ▸ decode?_encode s⟩

theorem decode?_eq_none {bs : List UInt8} (h : ∀ s, bs ≠ encode s) : decode? bs = none :=
  Option.eq_none_iff_forall_ne_some.2 fun s hs => h s (decode?_eq_some_iff.1 hs)

/-- A text does not take more bytes than it was read from. -/
theorem length_encode_le_of_decode? {bs : List UInt8} {s : String} (h : decode? bs = some s) :
    (encode s).length ≤ bs.length :=
  Nat.le_of_eq (congrArg List.length (encode_of_decode? h))

end SqlGate.Text.Utf8

/-!
## Base64

The Base64 text of some bytes is of no others (`encode_injective`): the characters of a group tell
the bytes in it, and its padding how many they are.
-/

namespace SqlGate.Text.Base64

theorem digit_inj : ∀ m < 64, ∀ n < 64, digit m = digit n → m = n := by
  decide +kernel

theorem digit_ne_pad : ∀ n < 64, digit n ≠ '=' := by
  decide

theorem digit_mod_inj {m n : Nat} (h : digit (m % 64) = digit (n % 64)) : m % 64 = n % 64 :=
  digit_inj _ (Nat.mod_lt m (by decide)) _ (Nat.mod_lt n (by decide)) h

theorem digit_mod_ne_pad (n : Nat) : digit (n % 64) ≠ '=' :=
  digit_ne_pad _ (Nat.mod_lt n (by decide))

/-- The first two characters of a group tell its first twelve bits. -/
theorem div_eq_of_digits {m n : Nat} (hm : m < 16777216) (hn : n < 16777216)
    (h : digit (m / 262144) = digit (n / 262144))
    (h' : digit (m / 4096 % 64) = digit (n / 4096 % 64)) : m / 4096 = n / 4096 := by
  have hhigh := digit_inj _ (by omega) _ (by omega) h
  have hlow := digit_mod_inj h'
  omega

theorem encodeChars_injective {as bs : List UInt8} (h : encodeChars as = encodeChars bs) :
    as = bs := by
  induction as using encodeChars.induct generalizing bs with
  | case1 =>
      rcases bs with _ | ⟨a', _ | ⟨b', _ | ⟨c', r'⟩⟩⟩
      · rfl
      all_goals cases h
  | case2 a =>
      have ha := a.toNat_lt
      rcases bs with _ | ⟨a', _ | ⟨b', _ | ⟨c', r'⟩⟩⟩
      · cases h
      · have ha' := a'.toNat_lt
        simp only [encodeChars, List.cons.injEq] at h
        obtain ⟨h₁, h₂, -⟩ := h
        have hdiv := div_eq_of_digits (by omega) (by omega) h₁ h₂
        rw [UInt8.toNat_inj.1 (show a.toNat = a'.toNat by omega)]
      · simp only [encodeChars, List.cons.injEq] at h
        exact absurd h.2.2.1.symm (digit_mod_ne_pad _)
      · simp only [encodeChars, List.cons.injEq] at h
        exact absurd h.2.2.1.symm (digit_mod_ne_pad _)
  | case3 a b =>
      have ha := a.toNat_lt
      have hb := b.toNat_lt
      rcases bs with _ | ⟨a', _ | ⟨b', _ | ⟨c', r'⟩⟩⟩
      · cases h
      · simp only [encodeChars, List.cons.injEq] at h
        exact absurd h.2.2.1 (digit_mod_ne_pad _)
      · have ha' := a'.toNat_lt
        have hb' := b'.toNat_lt
        simp only [encodeChars, List.cons.injEq] at h
        obtain ⟨h₁, h₂, h₃, -⟩ := h
        have hdiv := div_eq_of_digits (by omega) (by omega) h₁ h₂
        have hmod := digit_mod_inj h₃
        rw [UInt8.toNat_inj.1 (show a.toNat = a'.toNat by omega),
          UInt8.toNat_inj.1 (show b.toNat = b'.toNat by omega)]
      · simp only [encodeChars, List.cons.injEq] at h
        exact absurd h.2.2.2.1.symm (digit_mod_ne_pad _)
  | case4 a b c r ih =>
      have ha := a.toNat_lt
      have hb := b.toNat_lt
      have hc := c.toNat_lt
      rcases bs with _ | ⟨a', _ | ⟨b', _ | ⟨c', r'⟩⟩⟩
      · cases h
      · simp only [encodeChars, List.cons.injEq] at h
        exact absurd h.2.2.1 (digit_mod_ne_pad _)
      · simp only [encodeChars, List.cons.injEq] at h
        exact absurd h.2.2.2.1 (digit_mod_ne_pad _)
      · have ha' := a'.toNat_lt
        have hb' := b'.toNat_lt
        have hc' := c'.toNat_lt
        simp only [encodeChars, List.cons.injEq] at h
        obtain ⟨h₁, h₂, h₃, h₄, hr⟩ := h
        have hdiv := div_eq_of_digits (by omega) (by omega) h₁ h₂
        have hmod := digit_mod_inj h₃
        have hmod' := digit_mod_inj h₄
        rw [UInt8.toNat_inj.1 (show a.toNat = a'.toNat by omega),
          UInt8.toNat_inj.1 (show b.toNat = b'.toNat by omega),
          UInt8.toNat_inj.1 (show c.toNat = c'.toNat by omega), ih hr]

theorem encode_injective {as bs : List UInt8} (h : encode as = encode bs) : as = bs :=
  encodeChars_injective (String.ofList_inj.1 h)

end SqlGate.Text.Base64
