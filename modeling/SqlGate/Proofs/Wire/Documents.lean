import SqlGate.Native.Render
import SqlGate.Proofs.Json.Meaning
import SqlGate.Proofs.Text.Bytes
import SqlGate.Wire.Decode

/-!
# Columns of documents

A document comes as its text, or as a version and its text. Both are read as the same value if they
are read at all. What is not read is shown as it came, so the version stays before the text of a
refused document where there is one (`decode_documents`).
-/

namespace SqlGate.Wire

open Text

variable {bs : List UInt8} {s : String} {v : Json}

/-- The bytes of a text that is a document of a value. -/
def IsDocument (bs : List UInt8) (v : Json) : Prop :=
  ∃ s, bs = Utf8.encode s ∧ Json.IsDocument s.toList v

theorem jsonOf?_eq_some_iff {w : Native} :
    jsonOf? bs = some w ↔ ∃ v, IsDocument bs v ∧ w = .json v := by
  unfold jsonOf? IsDocument
  simp only [Option.map_eq_some_iff, Option.bind_eq_some_iff, Utf8.decode?_eq_some_iff,
    Json.ofString?_eq_some_iff]
  constructor
  · rintro ⟨v, hdocument, rfl⟩
    exact ⟨v, hdocument, rfl⟩
  · rintro ⟨v, hdocument, rfl⟩
    exact ⟨v, hdocument, rfl⟩

theorem jsonOf?_of_isDocument (h : IsDocument bs v) : jsonOf? bs = some (.json v) :=
  jsonOf?_eq_some_iff.2 ⟨v, h, rfl⟩

theorem jsonOf?_eq_none (h : ¬∃ v, IsDocument bs v) : jsonOf? bs = none := by
  refine Option.eq_none_iff_forall_ne_some.2 fun w hw => h ?_
  obtain ⟨v, hdocument, -⟩ := jsonOf?_eq_some_iff.1 hw
  exact ⟨v, hdocument⟩

theorem isDocument_encode_iff : IsDocument (Utf8.encode s) v ↔ Json.ofString? s = some v := by
  rw [Json.ofString?_eq_some_iff]
  constructor
  · rintro ⟨s', hs, h⟩
    obtain rfl : s' = s :=
      Option.some.inj ((Utf8.decode?_eq_some_iff.2 hs).symm.trans (Utf8.decode?_encode s))
    exact h
  · exact fun h => ⟨s, rfl, h⟩

theorem not_isDocument_encode (h : (Json.ofString? s).isNone) :
    ¬∃ v, IsDocument (Utf8.encode s) v := by
  rintro ⟨v, hv⟩
  rw [isDocument_encode_iff.1 hv] at h
  cases h

/-! ## What is shown of refused documents -/

theorem fallback_encode (s : String) : fallback (Utf8.encode s) = .text s := by
  rw [fallback, textOf?, Utf8.decode?_encode]
  rfl

theorem fallback_of_forall_ne (h : ∀ s, bs ≠ Utf8.encode s) : fallback bs = .bytes bs := by
  rw [fallback, textOf?, Utf8.decode?_eq_none h]
  rfl

theorem encode_version (s : String) : Utf8.encode ("\x01" ++ s) = 1 :: Utf8.encode s := by
  rw [Utf8.encode_eq, Utf8.encode_eq, String.toList_append]
  rfl

/-- A version before bytes that are no text does not make them one. -/
theorem forall_ne_version (h : ∀ s, bs ≠ Utf8.encode s) (s : String) : 1 :: bs ≠ Utf8.encode s := by
  intro hs
  have hpieces := congrArg Utf8.pieces hs
  rw [Utf8.pieces_encode, Utf8.pieces_one (by decide)] at hpieces
  obtain ⟨c, cs, hcs, -, hrest⟩ := List.map_eq_cons_iff.1 hpieces.symm
  refine h (String.ofList cs) ?_
  rw [Utf8.encode_eq, String.toList_ofList, Utf8.flatMap_of_pieces hrest.symm]

theorem render_of_forall_ne (h : ∀ s, bs ≠ Utf8.encode s) :
    (Native.bytes bs).render = .str (Base64.encode bs) := by
  rw [Native.render, Native.ofBytes, Utf8.decode?_eq_none h]
  rfl

/-- What is shown of a refused document differs where there is a version. -/
theorem render_fallback_version_ne (bs : List UInt8) :
    (fallback (1 :: bs)).render ≠ (fallback bs).render := by
  by_cases h : ∃ s, bs = Utf8.encode s
  · obtain ⟨s, rfl⟩ := h
    rw [← encode_version, fallback_encode, fallback_encode]
    intro hrender
    have hlength := congrArg String.length (Json.str.inj hrender)
    rw [String.length_append] at hlength
    exact absurd hlength (by simp)
  · have hbs := not_exists.1 h
    rw [fallback_of_forall_ne hbs, fallback_of_forall_ne (forall_ne_version hbs),
      render_of_forall_ne hbs, render_of_forall_ne (forall_ne_version hbs)]
    intro hrender
    exact List.cons_ne_self 1 bs (Base64.encode_injective (Json.str.inj hrender))

/-! ## The two types -/

theorem decodeOrFallback_of_isDocument (h : IsDocument bs v) :
    decodeOrFallback 114 bs = .json v ∧ decodeOrFallback 3802 (1 :: bs) = .json v := by
  have hjson : decode 114 bs = some (.json v) := jsonOf?_of_isDocument h
  have hjsonb : decode 3802 (1 :: bs) = some (.json v) := jsonOf?_of_isDocument h
  rw [decodeOrFallback, decodeOrFallback, hjson, hjsonb]
  exact ⟨rfl, rfl⟩

theorem decodeOrFallback_of_refused (h : ¬∃ v, IsDocument bs v) :
    decodeOrFallback 114 bs = fallback bs ∧
      decodeOrFallback 3802 (1 :: bs) = fallback (1 :: bs) := by
  have hjson : decode 114 bs = none := jsonOf?_eq_none h
  have hjsonb : decode 3802 (1 :: bs) = none := jsonOf?_eq_none h
  rw [decodeOrFallback, decodeOrFallback, hjson, hjsonb]
  exact ⟨rfl, rfl⟩

/-- A refused document that is a text is shown as this text. -/
theorem decodeOrFallback_encode (h : ¬∃ v, IsDocument (Utf8.encode s) v) :
    decodeOrFallback 114 (Utf8.encode s) = .text s ∧
      decodeOrFallback 3802 (1 :: Utf8.encode s) = .text ("\x01" ++ s) := by
  obtain ⟨hjson, hjsonb⟩ := decodeOrFallback_of_refused h
  rw [hjson, hjsonb, ← encode_version]
  exact ⟨fallback_encode s, fallback_encode _⟩

theorem render_eq_iff_isDocument (bs : List UInt8) :
    (decodeOrFallback 3802 (1 :: bs)).render = (decodeOrFallback 114 bs).render ↔
      ∃ v, IsDocument bs v := by
  constructor
  · intro h
    by_contra hrefused
    obtain ⟨hjson, hjsonb⟩ := decodeOrFallback_of_refused hrefused
    rw [hjson, hjsonb] at h
    exact render_fallback_version_ne bs h
  · rintro ⟨v, h⟩
    obtain ⟨hjson, hjsonb⟩ := decodeOrFallback_of_isDocument h
    rw [hjson, hjsonb]

/-- Bytes that come as a document, with and without a version, are shown alike if and only if they
are one that is read. Others are shown as the text that they are, or else as bytes, and the version
is shown with them. -/
theorem decode_documents (bs : List UInt8) :
    (∀ v, IsDocument bs v →
      decodeOrFallback 114 bs = .json v ∧ decodeOrFallback 3802 (1 :: bs) = .json v) ∧
    ((¬∃ v, IsDocument bs v) →
      (∀ s, bs = Utf8.encode s → decodeOrFallback 114 bs = .text s ∧
        decodeOrFallback 3802 (1 :: bs) = .text ("\x01" ++ s)) ∧
      ((∀ s, bs ≠ Utf8.encode s) → decodeOrFallback 114 bs = .bytes bs ∧
        decodeOrFallback 3802 (1 :: bs) = .bytes (1 :: bs))) ∧
    (decodeOrFallback 3802 (1 :: bs) = decodeOrFallback 114 bs ↔ ∃ v, IsDocument bs v) ∧
    ((decodeOrFallback 3802 (1 :: bs)).render = (decodeOrFallback 114 bs).render ↔
      ∃ v, IsDocument bs v) := by
  refine ⟨fun v h => decodeOrFallback_of_isDocument h, fun h => ?_, ⟨fun h => ?_, ?_⟩,
    render_eq_iff_isDocument bs⟩
  · constructor
    · rintro s rfl
      exact decodeOrFallback_encode h
    · intro hbs
      obtain ⟨hjson, hjsonb⟩ := decodeOrFallback_of_refused h
      rw [hjson, hjsonb]
      exact ⟨fallback_of_forall_ne hbs, fallback_of_forall_ne (forall_ne_version hbs)⟩
  · exact (render_eq_iff_isDocument bs).1 (congrArg Native.render h)
  · rintro ⟨v, h⟩
    obtain ⟨hjson, hjsonb⟩ := decodeOrFallback_of_isDocument h
    rw [hjson, hjsonb]

/-- An object with a member comes as the same value in both. -/
theorem decode_documents_member :
    let bs : List UInt8 := [0x7B, 0x22, 0x61, 0x22, 0x3A, 0x20, 0x31, 0x7D]
    let v := Json.obj [("a", .num (.int 1))]
    IsDocument bs v ∧ decodeOrFallback 114 bs = .json v ∧ decodeOrFallback 3802 (1 :: bs) = .json v ∧
      decodeOrFallback 3802 (1 :: bs) = decodeOrFallback 114 bs := by
  intro bs v
  have hencode : Utf8.encode "\x7b\"a\": 1\x7d" = bs := by
    rw [Utf8.encode_eq]
    decide +kernel
  have hdocument : IsDocument bs v := hencode ▸ isDocument_encode_iff.2 rfl
  obtain ⟨hread, -, hsame, -⟩ := decode_documents bs
  exact ⟨hdocument, (hread v hdocument).1, (hread v hdocument).2, hsame.2 ⟨v, hdocument⟩⟩

/-- An array inside of 127 others is not read, nor is a number that is out of range, and the version
is shown before their texts. -/
theorem documents_differ :
    let nested : List UInt8 := List.replicate 128 0x5B ++ List.replicate 128 0x5D
    let number : List UInt8 := [0x31, 0x65, 0x39, 0x39, 0x39]
    decodeOrFallback 3802 (1 :: nested) ≠ decodeOrFallback 114 nested ∧
    decodeOrFallback 3802 (1 :: number) ≠ decodeOrFallback 114 number ∧
    decodeOrFallback 114 number = .text "1e999" ∧
    decodeOrFallback 3802 (1 :: number) = .text "\x011e999" := by
  intro nested number
  have hnested : ¬∃ v, IsDocument nested v := by
    have hencode : Utf8.encode (String.ofList (List.replicate 128 '[' ++ List.replicate 128 ']')) =
        nested := by
      rw [Utf8.encode_eq, String.toList_ofList]
      decide +kernel
    refine hencode ▸ not_isDocument_encode ?_
    rw [Json.ofString?, Json.ofString, Json.ofStringDepth, Json.Cursor.ofString, String.toList_ofList]
    decide +kernel
  have hnumber : Utf8.encode "1e999" = number := by
    rw [Utf8.encode_eq]
    decide +kernel
  have hrange : ¬∃ v, IsDocument (Utf8.encode "1e999") v :=
    not_isDocument_encode (by decide +kernel)
  have hshown := decodeOrFallback_encode hrange
  rw [hnumber] at hrange hshown
  have hdiffer : ∀ bs, (¬∃ v, IsDocument bs v) →
      decodeOrFallback 3802 (1 :: bs) ≠ decodeOrFallback 114 bs :=
    fun bs hrefused h => hrefused ((render_eq_iff_isDocument bs).1 (congrArg Native.render h))
  exact ⟨hdiffer nested hnested, hdiffer number hrange, hshown⟩

end SqlGate.Wire
