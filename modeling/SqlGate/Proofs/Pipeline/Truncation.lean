import SqlGate.Proofs.Pipeline.Transparency
import SqlGate.Proofs.Text.Bytes

/-!
# Cutting long results

## Cutting texts

The bytes of a text may be cut between its characters and nowhere else (`isBoundary_flatMap_iff`).
So looking for such a place downwards finds one, at most three bytes below where it began, and what
is before it is the longest beginning of the text that so many bytes hold (`beginning?_eq`).
-/

namespace SqlGate.Text.Utf8

variable {bytes : List UInt8} {cs : List Char} {i : Nat}

theorem isTail_ofNat_of_lt {n : Nat} (h : n < 0x80) : isTail (UInt8.ofNat n) = false := by
  simp only [isTail, Bool.and_eq_false_iff, decide_eq_false_iff_not, UInt8.le_iff_toNat_le,
    UInt8.toNat_ofNat', UInt8.reduceToNat]
  omega

theorem isTail_ofNat_of_le {n : Nat} (h : 0xC0 ≤ n) (hn : n < 256) :
    isTail (UInt8.ofNat n) = false := by
  simp only [isTail, Bool.and_eq_false_iff, decide_eq_false_iff_not, UInt8.le_iff_toNat_le,
    UInt8.toNat_ofNat', UInt8.reduceToNat]
  omega

/-- A character begins with a byte that none goes on with, and goes on with bytes that none begins
with. -/
theorem exists_utf8EncodeChar_eq (c : Char) : ∃ b bs, String.utf8EncodeChar c = b :: bs ∧
    isTail b = false ∧ bs.length ≤ 3 ∧ ∀ x ∈ bs, isTail x = true := by
  have hone : ∀ n, ∀ x ∈ [UInt8.ofNat (n % 64 + 128)], isTail x = true := fun n =>
    List.forall_mem_singleton.2 (isTail_ofNat n)
  unfold String.utf8EncodeChar
  dsimp only
  split
  next h => exact ⟨_, [], rfl, isTail_ofNat_of_lt (by omega), Nat.zero_le 3, nofun⟩
  next =>
    split
    next =>
      exact ⟨_, _, rfl, isTail_ofNat_of_le (by omega) (by omega), Nat.le_add_left 1 2, hone _⟩
    next =>
      split
      next =>
        exact ⟨_, _, rfl, isTail_ofNat_of_le (by omega) (by omega), Nat.le_succ 2,
          List.forall_mem_cons.2 ⟨isTail_ofNat _, hone _⟩⟩
      next =>
        exact ⟨_, _, rfl, isTail_ofNat_of_le (by omega) (by omega), Nat.le_refl 3,
          List.forall_mem_cons.2 ⟨isTail_ofNat _, List.forall_mem_cons.2 ⟨isTail_ofNat _, hone _⟩⟩⟩

/-! ## Places to cut at -/

theorem isBoundary_zero (bytes : List UInt8) : isBoundary bytes 0 = true := rfl

theorem isBoundary_of_pos (bytes : List UInt8) (hi : 0 < i) :
    isBoundary bytes i = match bytes[i]? with
      | some b => !isTail b
      | none => decide (i = bytes.length) := by
  rw [isBoundary, decide_eq_false (Nat.ne_of_gt hi)]
  rfl

/-- No place is inside a character. -/
theorem isBoundary_append_of_lt (c : Char) (rest : List UInt8) (hi : 0 < i)
    (hlt : i < (String.utf8EncodeChar c).length) :
    isBoundary (String.utf8EncodeChar c ++ rest) i = false := by
  obtain ⟨b, bs, hc, -, -, htail⟩ := exists_utf8EncodeChar_eq c
  obtain ⟨k, rfl⟩ := Nat.exists_eq_add_of_le' hi
  rw [hc, List.length_cons, Nat.add_lt_add_iff_right] at hlt
  rw [isBoundary_of_pos _ hi, hc, List.cons_append, List.getElem?_cons_succ,
    List.getElem?_append_left hlt, List.getElem?_eq_getElem hlt]
  exact congrArg not (htail _ (List.getElem_mem hlt))

/-- Behind a character a place is one if it is one in the rest. -/
theorem isBoundary_append_of_le (c : Char) (cs : List Char)
    (hle : (String.utf8EncodeChar c).length ≤ i) :
    isBoundary (String.utf8EncodeChar c ++ cs.flatMap String.utf8EncodeChar) i =
      isBoundary (cs.flatMap String.utf8EncodeChar) (i - (String.utf8EncodeChar c).length) := by
  have hpos : 0 < i := Nat.lt_of_lt_of_le (by simp [Char.utf8Size_pos]) hle
  rw [isBoundary_of_pos _ hpos, List.getElem?_append_right hle, List.length_append]
  rcases Nat.eq_or_lt_of_le hle with rfl | hlt
  · rw [Nat.sub_self, isBoundary_zero]
    cases cs with
    | nil => simp
    | cons d cs =>
        obtain ⟨b, bs, hd, hb, -⟩ := exists_utf8EncodeChar_eq d
        rw [List.flatMap_cons, hd, List.cons_append, List.getElem?_cons_zero]
        exact congrArg not hb
  · rw [isBoundary_of_pos _ (Nat.sub_pos_of_lt hlt)]
    split
    · rfl
    · exact decide_eq_decide.2 (by omega)

/-- The bytes of a text may be cut between its characters and nowhere else. -/
theorem isBoundary_flatMap_iff (cs : List Char) (i : Nat) :
    isBoundary (cs.flatMap String.utf8EncodeChar) i = true ↔
      ∃ ps, ps <+: cs ∧ (ps.flatMap String.utf8EncodeChar).length = i := by
  induction cs generalizing i with
  | nil =>
      rcases Nat.eq_zero_or_pos i with rfl | hi
      · exact iff_of_true rfl ⟨[], List.nil_prefix, rfl⟩
      · refine iff_of_false ?_ ?_
        · rw [isBoundary_of_pos _ hi]
          simpa using Nat.ne_of_gt hi
        · rintro ⟨ps, hps, rfl⟩
          rw [List.prefix_nil.1 hps] at hi
          exact absurd hi (Nat.lt_irrefl 0)
  | cons c cs ih =>
      rw [List.flatMap_cons]
      rcases Nat.eq_zero_or_pos i with rfl | hi
      · exact iff_of_true rfl ⟨[], List.nil_prefix, rfl⟩
      · rcases Nat.lt_or_ge i (String.utf8EncodeChar c).length with hlt | hle
        · rw [isBoundary_append_of_lt c _ hi hlt]
          refine iff_of_false Bool.false_ne_true ?_
          rintro ⟨ps, hps, rfl⟩
          rcases List.prefix_cons_iff.1 hps with rfl | ⟨ps, rfl, -⟩
          · exact absurd hi (Nat.lt_irrefl 0)
          · rw [List.flatMap_cons, List.length_append] at hlt
            omega
        · rw [isBoundary_append_of_le c cs hle, ih]
          constructor
          · rintro ⟨ps, hps, hlen⟩
            refine ⟨c :: ps, List.cons_prefix_cons.2 ⟨rfl, hps⟩, ?_⟩
            rw [List.flatMap_cons, List.length_append]
            omega
          · rintro ⟨ps, hps, rfl⟩
            rcases List.prefix_cons_iff.1 hps with rfl | ⟨ps, rfl, hcs⟩
            · exact absurd hi (Nat.lt_irrefl 0)
            · refine ⟨ps, hcs, ?_⟩
              rw [List.flatMap_cons, List.length_append, Nat.add_sub_cancel_left]

/-! ## Looking for a place -/

/-- Downwards from any index there is a place, and the first one is found. -/
theorem exists_floorBoundary? (bytes : List UInt8) (maxBytes : Nat) :
    ∃ i ≤ maxBytes, floorBoundary? bytes maxBytes = some i ∧ isBoundary bytes i = true ∧
      ∀ j, isBoundary bytes j = true → j ≤ maxBytes → j ≤ i := by
  induction maxBytes with
  | zero => exact ⟨0, Nat.le_refl 0, rfl, rfl, fun j _ hj => hj⟩
  | succ n ih =>
      rw [floorBoundary?]
      split
      next h => exact ⟨n + 1, Nat.le_refl _, rfl, h, fun j _ hj => hj⟩
      next h =>
        obtain ⟨i, hi, hfound, hplace, hlast⟩ := ih
        refine ⟨i, Nat.le_succ_of_le hi, hfound, hplace, fun j hj hle => hlast j hj ?_⟩
        have hne : j ≠ n + 1 := fun heq => h (heq ▸ hj)
        omega

theorem length_encode (s : String) : (encode s).length = s.utf8ByteSize := by
  rw [encode, toList_eq, Array.length_toList]
  rfl

theorem encode_ofList (cs : List Char) :
    encode (String.ofList cs) = cs.flatMap String.utf8EncodeChar := by
  rw [encode_eq, String.toList_ofList]

/-- A beginning of a text takes up the bytes up to a place to cut at. -/
theorem isBoundary_encode {s p : String} (h : p.toList <+: s.toList) :
    isBoundary (encode s) p.utf8ByteSize = true := by
  rw [encode_eq, isBoundary_flatMap_iff]
  exact ⟨p.toList, h, by rw [← encode_eq, length_encode]⟩

/-- The longest beginning of a text that a number of bytes holds. -/
structure LongestBeginning (s : String) (maxBytes : Nat) (p : String) : Prop where
  begins : p.toList <+: s.toList
  fits : p.utf8ByteSize ≤ maxBytes
  longest : ∀ q : String, q.toList <+: s.toList → q.utf8ByteSize ≤ maxBytes →
    q.utf8ByteSize ≤ p.utf8ByteSize

/-- A character more than the longest beginning is too long, so at most three bytes are left
over. -/
theorem LongestBeginning.le_add_three {s p : String} {maxBytes : Nat}
    (h : LongestBeginning s maxBytes p) (hlong : maxBytes < s.utf8ByteSize) :
    maxBytes ≤ p.utf8ByteSize + 3 := by
  obtain ⟨rest, hrest⟩ := h.begins
  cases rest with
  | nil =>
      have hs : p = s := String.toList_inj.1 (by rw [← hrest, List.append_nil])
      exact absurd (hs ▸ h.fits) (Nat.not_le.2 hlong)
  | cons c rest =>
      let q := String.ofList (p.toList ++ [c])
      have hq : q.utf8ByteSize = p.utf8ByteSize + (String.utf8EncodeChar c).length := by
        rw [← length_encode, ← length_encode, encode_ofList, encode_eq, List.flatMap_append,
          List.length_append, List.flatMap_singleton]
      have hbegins : q.toList <+: s.toList := by
        rw [String.toList_ofList, ← hrest]
        exact ⟨rest, by rw [List.append_assoc, List.singleton_append]⟩
      obtain ⟨b, bs, hc, -, hlen, -⟩ := exists_utf8EncodeChar_eq c
      rw [hc, List.length_cons] at hq
      refine Nat.le_of_not_lt fun hlt => ?_
      have hlongest := h.longest q hbegins (by omega)
      omega

/-- A text that a number of bytes does not hold is cut at a place that is found, and what is before
it is the longest beginning that they hold. -/
theorem exists_beginning? {s : String} {maxBytes : Nat} (h : maxBytes < s.utf8ByteSize) :
    ∃ p, beginning? s maxBytes = some p ∧ LongestBeginning s maxBytes p ∧
      floorBoundary? (encode s) maxBytes = some p.utf8ByteSize := by
  obtain ⟨i, hi, hfound, hplace, hlast⟩ := exists_floorBoundary? (encode s) maxBytes
  rw [encode_eq, isBoundary_flatMap_iff] at hplace
  obtain ⟨ps, ⟨rest, hrest⟩, rfl⟩ := hplace
  have hsize : (String.ofList ps).utf8ByteSize = (ps.flatMap String.utf8EncodeChar).length := by
    rw [← length_encode, encode_ofList]
  have htake : (encode s).take (ps.flatMap String.utf8EncodeChar).length =
      encode (String.ofList ps) := by
    rw [encode_eq, ← hrest, List.flatMap_append, List.take_left, encode_ofList]
  refine ⟨String.ofList ps, ?_, ⟨?_, hsize ▸ hi, fun q hq hfits => ?_⟩, hsize ▸ hfound⟩
  · rw [beginning?, if_neg (by rw [length_encode]; omega), hfound, Option.bind_some, htake,
      decode?_encode]
  · rw [String.toList_ofList]
    exact ⟨rest, hrest⟩
  · rw [hsize]
    exact hlast _ (isBoundary_encode hq) hfits

end SqlGate.Text.Utf8

/-!
## Results that are too long

A result is left alone if the written form of its rows is not longer than the limit. Else its rows
go, and the longest beginning of their written form that the limit holds becomes its error. This is
done once the transaction is committed, and no call fails by it (`cap_exact`).
-/

namespace SqlGate.QueryResult

open Text.Utf8

variable {r : QueryResult} {maxBytes : Nat}

theorem cap_of_le (h : (rowsJson r.rows).text.utf8ByteSize ≤ maxBytes) : r.cap maxBytes = r :=
  if_pos h

theorem cap_of_lt {p : String} (h : maxBytes < (rowsJson r.rows).text.utf8ByteSize)
    (hp : beginning? (rowsJson r.rows).text maxBytes = some p) :
    r.cap maxBytes = { r with rows := [], error := some (p ++ cutMark) } := by
  rw [cap]
  simp only [if_neg (Nat.not_le.2 h), hp, Option.getD_some]

/-- The limit on the size of a result is exact. Rows whose written form is not longer leave the
result as it is. Else the rows are dropped, and the error is the longest beginning of the written
form that the limit holds, with the mark behind it: the search for its end never goes below the
first byte, and leaves over three bytes at most. What comes of a call that commits is what comes of
the commit, with such a result if it succeeds. -/
theorem cap_exact (r : QueryResult) (maxBytes : Nat) :
    let written := (rowsJson r.rows).text
    (written.utf8ByteSize ≤ maxBytes → r.cap maxBytes = r) ∧
    (maxBytes < written.utf8ByteSize → ∃ p, LongestBeginning written maxBytes p ∧
      r.cap maxBytes = ⟨r.columns, [], r.rowsAffected, some (p ++ cutMark)⟩ ∧
      floorBoundary? (encode written) maxBytes = some p.utf8ByteSize ∧
      maxBytes ≤ p.utf8ByteSize + 3) ∧
    ∀ (p : Pipeline) (c : Context) (b : Backend) (limit : Duration) (t : Instant),
      p.maxResultBytes = maxBytes →
      (Work.run c b none (p.close limit (.ok r)).run t).2.value? =
        (Work.reply? c b .commit t).map fun reply => (Pipeline.ofReply limit reply).map fun _ =>
          { r with rows := p.sanitizer.rows r.rows }.cap maxBytes := by
  intro written
  refine ⟨cap_of_le, fun hlong => ?_, ?_⟩
  · obtain ⟨p, hp, hlongest, hfound⟩ := exists_beginning? hlong
    exact ⟨p, hlongest, cap_of_lt hlong hp, hfound, hlongest.le_add_three hlong⟩
  · rintro p c b limit t rfl
    exact Pipeline.value?_close_ok limit r t

/-- A limit that ends inside a character: the character is left out. -/
theorem cap_exact_inside_character :
    let r : QueryResult := ⟨["a"], [[("a", .str "é€")]], 1, none⟩
    8 < (rowsJson r.rows).text.utf8ByteSize ∧
      ∃ p, LongestBeginning (rowsJson r.rows).text 8 p ∧ p.utf8ByteSize = 7 ∧
        r.cap 8 = ⟨["a"], [], 1, some (p ++ cutMark)⟩ := by
  intro r
  have hlong : 8 < (rowsJson r.rows).text.utf8ByteSize := by decide +kernel
  obtain ⟨p, hlongest, hcap, hfound, -⟩ := (cap_exact r 8).2.1 hlong
  have hseven : floorBoundary? (encode (rowsJson r.rows).text) 8 = some 7 := by decide +kernel
  exact ⟨hlong, p, hlongest, Option.some.inj (hfound.symm.trans hseven), hcap⟩

end SqlGate.QueryResult
