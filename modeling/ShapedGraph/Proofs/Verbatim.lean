import ShapedGraph.Json.Writer
import ShapedGraph.Object.Encode
import ShapedGraph.Proofs.Lookup
import ShapedGraph.Proofs.Rounding

/-! What values of undeclared members are written as after they were read. Strings, booleans,
numbers and lists of these are read wherever they stand, and each is written as it was, with one
exception: an integer above the signed range of 64 bits is kept as the floating point number that is
nearest to it, and written as that. -/

namespace ShapedGraph

namespace Json

/-- A value without null and without objects: strings, booleans, numbers that text can write, and
lists of such values. -/
inductive Simple : Json → Prop where
  | bool (b : Bool) : Simple (.bool b)
  | integer {n : Int} (lower : Int64.minValue.toInt ≤ n) (upper : n < UInt64.size) :
    Simple (.integer n)
  | float (negative : Bool) (rank : Fin rankCount) : Simple (.float (.finite negative rank))
  | string (s : String) : Simple (.string s)
  | list {items : List Json} (each : ∀ item ∈ items, Simple item) : Simple (.list items)

mutual

/-- A value with a floating point number for each integer above the signed range of 64 bits. -/
def narrowed (json : Json) : Json :=
  match json with
  | .integer n => if n ≤ Int64.maxValue.toInt then .integer n else .float (.ofInt n)
  | .list items => .list (narrowedItems items)
  | other => other
termination_by structural json

def narrowedItems (items : List Json) : List Json :=
  match items with
  | [] => []
  | item :: items => item.narrowed :: narrowedItems items
termination_by structural items

end

theorem narrowedItems_eq (items : List Json) : narrowedItems items = items.map narrowed := by
  induction items with
  | nil => rfl
  | cons item items ih => rw [narrowedItems, ih, List.map_cons]

@[simp] theorem narrowed_list (items : List Json) :
    (list items).narrowed = .list (items.map narrowed) := by
  rw [narrowed, narrowedItems_eq]

variable {json : Json}

/-- Each value inside a simple value is narrowed at the place where it stands. -/
theorem Simple.at?_narrowed (simple : json.Simple) (place : List Segment) :
    json.narrowed.at? place = (json.at? place).map narrowed := by
  induction simple generalizing place with
  | @list items each ih =>
    rw [narrowed_list]
    cases place with
    | nil => simp
    | cons segment place =>
      cases segment with
      | name => rfl
      | index position =>
        rw [at?_index, at?_index, List.getElem?_map]
        cases there : items[position]? with
        | none => rfl
        | some item => exact ih item (List.mem_of_getElem? there) place
  | integer =>
    cases place with
    | nil => simp
    | cons segment place =>
      rw [narrowed]
      split <;> cases segment <;> rfl
  | bool | float | string =>
    cases place with
    | nil => simp
    | cons segment => cases segment <;> rfl

/-- A simple value stays as it is if and only if the signed range has every integer in it. -/
theorem Simple.narrowed_eq_self_iff (simple : json.Simple) : json.narrowed = json ↔
    ∀ place n, json.at? place = some (.integer n) → n ≤ Int64.maxValue.toInt := by
  constructor
  · -- A value that is not changed is not changed anywhere inside.
    intro same place n there
    have inside := simple.at?_narrowed place
    rw [same, there] at inside
    replace inside := Option.some.inj inside
    rw [narrowed] at inside
    split at inside
    · assumption
    · cases inside
  · intro fits
    induction simple with
    | integer => exact if_pos (fits [] _ (at?_nil _))
    | list each ih =>
      rw [narrowed_list, Json.list.injEq]
      refine List.map_congr_left (fun item among => ?_) |>.trans (List.map_id _)
      obtain ⟨position, there⟩ := List.mem_iff_getElem?.mp among
      exact ih item among fun place n found =>
        fits (.index position :: place) n (by rw [at?_index, there]; exact found)
    | bool | float | string => rfl

end Json

namespace Decoder

variable {d : Decoder} {json : Json}

/-- Values that are read and written one by one are read and written as a list. -/
theorem encode_decodeExtensions {items : List Json} (path : Path) (position : Nat)
    (each : ∀ item ∈ items, ∀ path, ∃ value, d.decodeExtension path item = .ok value ∧
      ∀ seen, value.encode seen = (item.narrowed, seen)) :
    ∃ values, d.decodeExtensions path position items = .ok values ∧
      ∀ seen, encodeExtensionValues values seen = (items.map Json.narrowed, seen) := by
  induction items generalizing position with
  | nil => exact ⟨[], rfl, fun _ => rfl⟩
  | cons item items ih =>
    obtain ⟨here, later⟩ := List.forall_mem_cons.mp each
    obtain ⟨value, read, written⟩ := here (path.item position)
    obtain ⟨values, reads, writtens⟩ := ih (position + 1) later
    rw [decodeExtensions_eq] at reads ⊢
    refine ⟨value :: values, ?_, ?_⟩
    · exact decodeItems_cons read reads
    · simp only [encodeExtensionValues, written, writtens, List.map_cons, implies_true]

/-- A simple value can be read at every path, and is written narrowed. -/
theorem encode_decodeExtension_eq (simple : json.Simple) (path : Path) :
    ∃ value, d.decodeExtension path json = .ok value ∧
      ∀ seen, value.encode seen = (json.narrowed, seen) := by
  induction simple generalizing path with
  | bool | float | string => exact ⟨_, rfl, fun _ => rfl⟩
  | @integer n lower upper =>
    rw [decodeExtension, extensionOf, Json.narrowed]
    by_cases fits : n ≤ Int64.maxValue.toInt
    · have word : Scalar.toInt64? n = some (Int64.ofInt n) := if_pos ⟨lower, fits⟩
      have same : (Int64.ofInt n).toInt = n :=
        Int64.toInt_ofInt_of_le lower (Int.lt_of_le_of_lt fits (by decide))
      refine ⟨.integer (Int64.ofInt n), by rw [word], fun seen => ?_⟩
      rw [if_pos fits, Extension.encode, same]
    · have none : Scalar.toInt64? n = none := if_neg fun inside => fits inside.2
      obtain ⟨rank, finite⟩ := Binary64.ofInt_finite lower upper
      refine ⟨.float (.ofInt n), by rw [none], fun seen => ?_⟩
      rw [if_neg fits, finite, Extension.encode]
  | list each ih =>
    obtain ⟨values, read, written⟩ := encode_decodeExtensions path 0 ih
    refine ⟨.list values, Outcome.map_eq_ok.mpr ⟨values, read, rfl⟩, fun seen => ?_⟩
    rw [Extension.encode, written, Json.narrowed_list]

/-- A simple value can be read at every path, alone or in lists. It is written with each value
inside it narrowed at its place, and so as it was if and only if the signed range of 64 bits has
every integer in it. -/
theorem exists_decodeExtension_iff (d : Decoder) (simple : json.Simple) (path : Path) :
    ∃ value, d.decodeExtension path json = .ok value ∧
      ∀ seen, ∃ written, value.encode seen = (written, seen) ∧
        (∀ place, written.at? place = (json.at? place).map Json.narrowed) ∧
          (written = json ↔
            ∀ place n, json.at? place = some (.integer n) → n ≤ Int64.maxValue.toInt) := by
  obtain ⟨value, read, written⟩ := encode_decodeExtension_eq simple path
  exact ⟨value, read, fun seen => ⟨json.narrowed, written seen, simple.at?_narrowed,
    simple.narrowed_eq_self_iff⟩⟩

end Decoder

namespace Sample

/-- Serial numbers, the largest integer of the signed range among them, in lists. -/
def serials : Json :=
  .list [.integer 9223372036854775807, .list [.string "a7", .bool true, .integer (-1)], .list []]

theorem simple_serials : serials.Simple := by
  have inner : (Json.list [.string "a7", .bool true, .integer (-1)]).Simple := by
    refine .list ?_
    simp only [List.forall_mem_cons]
    exact ⟨.string _, .bool _, .integer (by decide) (by decide), nofun⟩
  refine .list ?_
  simp only [List.forall_mem_cons]
  exact ⟨.integer (by decide) (by decide), inner, .list nofun, nofun⟩

end Sample

/-- Integers of the signed range are written as they were read, at every depth. -/
theorem Sample.serials_kept : ∃ value,
    (Decoder.mk ⟨"", [], []⟩ 256).decodeExtension .root Sample.serials = .ok value ∧
      ∀ seen, value.encode seen = (Sample.serials, seen) := by
  have fits := Sample.simple_serials.narrowed_eq_self_iff.mp rfl
  obtain ⟨value, read, writes⟩ :=
    Decoder.exists_decodeExtension_iff ⟨⟨"", [], []⟩, 256⟩ Sample.simple_serials .root
  refine ⟨value, read, fun seen => ?_⟩
  obtain ⟨written, encoded, -, same⟩ := writes seen
  rw [encoded, same.mpr fits]

/-- A list with an integer just above the signed range is written with another number in its place,
from which the last digits are lost. -/
theorem Sample.serial_rounded : ∃ value,
    (Decoder.mk ⟨"", [], []⟩ 256).decodeExtension .root
        (.list [.integer 9223372036854775809]) = .ok value ∧
      (value.encode []).1 ≠ .list [.integer 9223372036854775809] ∧
        (value.encode []).1.text = "[9.223372036854776e+18]" := by
  have simple : (Json.list [.integer 9223372036854775809]).Simple :=
    .list (by simpa using .integer (by decide) (by decide))
  obtain ⟨value, read, written⟩ := Decoder.encode_decodeExtension_eq simple .root
  have narrowed : (Json.list [.integer 9223372036854775809]).narrowed =
      .list [.float (.ofInt 9223372036854775809)] := by
    rw [Json.narrowed_list, List.map_singleton, Json.narrowed, if_neg (by decide)]
  refine ⟨value, read, ?_, ?_⟩ <;> rw [written, narrowed]
  · intro same
    cases (List.cons.inj (Json.list.inj same)).1
  · decide +kernel

end ShapedGraph
