import ShapedGraph.Scalar.Codec
import ShapedGraph.Proofs.Context
import ShapedGraph.Proofs.DateTime
import ShapedGraph.Proofs.FloatText
import ShapedGraph.Proofs.Outcome

/-! Scalar values that were read from a document: IRIs among them identify nodes, and what they are
written as is read as the same value again. -/

namespace ShapedGraph

theorem Scalar.toInt64?_toInt (n : Int64) : Scalar.toInt64? n.toInt = some n := by
  rw [Scalar.toInt64?, if_pos ⟨Int64.minValue_le_toInt n, Int64.toInt_le n⟩, Int64.ofInt_toInt]

namespace Scalar

theorem toInt64?_eq_some_iff {n : Int} {word : Int64} :
    toInt64? n = some word ↔ word.toInt = n := by
  constructor
  · intro h
    unfold toInt64? at h
    split at h
    · rename_i fits
      rw [← Option.some.inj h]
      exact Int64.toInt_ofInt_of_le fits.1 (Int.lt_of_le_of_lt fits.2 (by decide))
    · cases h
  · rintro rfl
    exact toInt64?_toInt word

theorem integerOfFloat_eq_ok_iff {path : Path} {x : Binary64} {word : Int64} :
    integerOfFloat path x = .ok word ↔ x.toInt? = some word.toInt := by
  have same : integerOfFloat path x = .ok word ↔ x.toInt?.bind toInt64? = some word := by
    unfold integerOfFloat
    split
    · rename_i h
      rw [h]
      simp
    · rename_i h
      rw [h]
      exact ⟨nofun, nofun⟩
  rw [same, Option.bind_eq_some_iff]
  simp only [toInt64?_eq_some_iff, exists_eq_right']

theorem decodeString_eq_ok {path : Path} {json : Json} {text : String} :
    decodeString path json = .ok text ↔ json = .string text := by
  cases json <;> simp [decodeString, failAt]

theorem decodeIri_eq_ok {context : Context} {path : Path} {json : Json} {iri : String} :
    decodeIri context path json = .ok iri ↔
      ∃ text, json = .string text ∧ context.expand text = iri ∧ isIdentifier iri = true := by
  simp only [decodeIri, Outcome.bind_eq_ok, decodeString_eq_ok]
  constructor
  · rintro ⟨text, rfl, h⟩
    split at h
    · rename_i shaped
      cases h
      exact ⟨text, rfl, rfl, shaped⟩
    · cases h
  · rintro ⟨text, rfl, rfl, shaped⟩
    exact ⟨text, rfl, if_pos shaped⟩

theorem decodeDateTime_eq_ok {required : Bool} {path : Path} {json : Json} {t : DateTime} :
    decodeDateTime required path json = .ok t ↔
      ∃ text, json = .string text ∧ DateTime.ofChars? required text.toList = some t := by
  simp only [decodeDateTime, Outcome.bind_eq_ok, decodeString_eq_ok]
  constructor
  · rintro ⟨text, rfl, h⟩
    split at h
    · rename_i read
      cases h
      exact ⟨text, rfl, read⟩
    · cases h
  · rintro ⟨text, rfl, read⟩
    exact ⟨text, rfl, by rw [read]⟩

end Scalar

namespace ScalarKind

/-- The value is one that some document writes in this kind. -/
def Reads (kind : ScalarKind) (context : Context) (value : Scalar) : Prop :=
  ∃ path json, kind.decode context path json = .ok value

/-- An IRI that was read identifies a node. -/
theorem Reads.isIdentifier {context : Context} {value : Scalar} (h : Reads .iri context value) :
    ∃ iri, value = .string iri ∧ isIdentifier iri = true := by
  obtain ⟨path, json, h⟩ := h
  obtain ⟨iri, read, rfl⟩ := Outcome.map_eq_ok.mp h
  obtain ⟨-, -, -, shaped⟩ := Scalar.decodeIri_eq_ok.mp read
  exact ⟨iri, rfl, shaped⟩

theorem decode_encode_dateTime {required : Bool} {path : Path} {json : Json} {t : DateTime}
    (h : Scalar.decodeDateTime required path json = .ok t) (path' : Path) :
    Scalar.decodeDateTime required path' (.string t.text) = .ok t := by
  obtain ⟨text, -, read⟩ := Scalar.decodeDateTime_eq_ok.mp h
  refine Scalar.decodeDateTime_eq_ok.mpr ⟨t.text, rfl, ?_⟩
  rw [DateTime.toList_text]
  exact DateTime.ofChars?_chars read required

/-- What a value that was read is written as is read as the same value again. -/
theorem Reads.decode_encode {kind : ScalarKind} {context : Context} {value : Scalar}
    (distinct : context.TokensDistinct) (h : kind.Reads context value) (path : Path) :
    kind.decode context path (kind.encode context value) = .ok value := by
  obtain ⟨path', json, h⟩ := h
  cases kind with
  | string =>
    obtain ⟨text, -, rfl⟩ := Outcome.map_eq_ok.mp h
    rfl
  | iri =>
    obtain ⟨iri, read, rfl⟩ := Outcome.map_eq_ok.mp h
    obtain ⟨text, -, expanded, shaped⟩ := Scalar.decodeIri_eq_ok.mp read
    have again : context.expand (context.compact iri) = iri := by
      rw [← expanded, Context.expand_compact_expand distinct]
    exact Outcome.map_eq_ok.mpr
      ⟨iri, Scalar.decodeIri_eq_ok.mpr ⟨context.compact iri, rfl, again, shaped⟩, rfl⟩
  | boolean =>
    obtain ⟨b, -, rfl⟩ := Outcome.map_eq_ok.mp h
    rfl
  | integer =>
    obtain ⟨n, -, rfl⟩ := Outcome.map_eq_ok.mp h
    simp only [decode, encode, Scalar.decodeInteger, Scalar.toInt64?_toInt]
    rfl
  | float =>
    obtain ⟨x, -, rfl⟩ := Outcome.map_eq_ok.mp h
    simp only [decode, encode, Scalar.decodeFloat, Binary64.parse?_text]
    rfl
  | dateTime =>
    obtain ⟨t, read, rfl⟩ := Outcome.map_eq_ok.mp h
    exact Outcome.map_eq_ok.mpr ⟨t, decode_encode_dateTime read path, rfl⟩
  | dateTimeStamp =>
    obtain ⟨t, read, rfl⟩ := Outcome.map_eq_ok.mp h
    exact Outcome.map_eq_ok.mpr ⟨t, decode_encode_dateTime read path, rfl⟩

end ScalarKind

end ShapedGraph
