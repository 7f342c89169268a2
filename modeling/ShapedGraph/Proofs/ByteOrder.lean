import Mathlib.Data.List.Lex
import Mathlib.Data.String.Basic
import ShapedGraph.Pattern.Utf8

/-! The order of texts. Texts are compared by their characters. That is the order of their bytes
too: of two characters the smaller one has the smaller bytes, whatever follows on either side. -/

namespace ShapedGraph.Utf8

/-- The bytes of a text, as numbers. -/
def octets (text : String) : List Nat := text.toUTF8.data.toList.map UInt8.toNat

/-- In the first place where their bytes differ the first text has the smaller byte, or none. -/
def Before (text text' : String) : Prop := List.Lex (· < ·) (octets text) (octets text')

theorem toNat_lt (c : Char) : c.toNat < 0x110000 := by
  have valid := c.valid
  simp only [UInt32.isValidChar, Nat.isValidChar] at valid
  show c.val.toNat < _
  omega

theorem map_utf8EncodeChar (c : Char) :
    (String.utf8EncodeChar c).map UInt8.toNat = bytes c.toNat := by
  have bound := toNat_lt c
  rw [String.utf8EncodeChar, show c.val.toNat = c.toNat from rfl, bytes]
  generalize c.toNat = code at bound
  simp only [← Nat.lt_succ_iff, Nat.reduceSucc]
  split_ifs <;>
    simp only [List.map_cons, List.map_nil, UInt8.toNat_ofNat', List.cons.injEq, and_true] <;> omega

theorem octets_eq (text : String) : octets text = text.toList.flatMap fun c => bytes c.toNat := by
  have encoded : text.toUTF8.data.toList = text.toList.flatMap String.utf8EncodeChar := by
    rw [String.toUTF8_eq_toByteArray]
    conv => lhs; rw [← String.ofList_toList (s := text)]
    exact List.toList_data_toByteArray
  simp only [octets, encoded, List.map_flatMap, map_utf8EncodeChar]

/-- The first byte in which two characters differ is smaller in the smaller one. -/
theorem lex_bytes_append {code code' : Nat} (less : code < code') (rest rest' : List Nat) :
    List.Lex (· < ·) (bytes code ++ rest) (bytes code' ++ rest') := by
  have twice : ∀ n, n / 4096 = n / 64 / 64 := by omega
  have thrice : ∀ n, n / 262144 = n / 64 / 64 / 64 := by omega
  unfold bytes
  split_ifs <;>
    simp only [List.cons_append, List.nil_append, List.cons_lex_cons_iff, twice, thrice] <;> omega

theorem lex_flatMap_bytes {cs cs' : List Char} (less : List.Lex (· < ·) cs cs') :
    List.Lex (· < ·) (cs.flatMap fun c => bytes c.toNat) (cs'.flatMap fun c => bytes c.toNat) := by
  induction less with
  | @nil c cs =>
    rw [List.flatMap_nil, List.flatMap_cons, bytes]
    split_ifs <;> exact .nil
  | @rel c cs c' cs' first => exact lex_bytes_append (show c.toNat < c'.toNat from first) _ _
  | cons _ ih => exact ih.append_left _ _

/-- Texts are in the order of their bytes. -/
theorem before_iff {text text' : String} : Before text text' ↔ text < text' := by
  have before : ∀ {text text' : String}, text < text' → Before text text' := by
    intro text text' less
    rw [Before, octets_eq, octets_eq]
    exact lex_flatMap_bytes (String.lt_iff_toList_lt.mp less)
  refine ⟨fun h => ?_, before⟩
  by_contra notLess
  rcases le_iff_lt_or_eq.mp (String.not_lt.mp notLess) with greater | rfl
  · exact List.lt_asymm h (before greater)
  · exact List.lt_irrefl _ h

end ShapedGraph.Utf8
