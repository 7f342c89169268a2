import ShapedGraph.Json.Reader
import ShapedGraph.Proofs.Json
import ShapedGraph.Proofs.Members

/-! What text can write: every number in a value that is read from text is an integer of 64 bits,
with or without a sign, or a finite floating point number. -/

namespace ShapedGraph

namespace Binary64

theorem ofRank_ne_nan (negative : Bool) (rank : Nat) : ofRank negative rank ≠ .nan := by
  unfold ofRank
  split <;> simp

theorem ofScaled_ne_nan (negative : Bool) (digits : Nat) (exponent : Int) :
    ofScaled negative digits exponent ≠ .nan := by
  unfold ofScaled
  dsimp only
  split
  · split
    · exact ofRank_ne_nan _ _
    · split
      · exact ofRank_ne_nan _ _
      · simp
  · exact ofRank_ne_nan _ _

end Binary64

namespace Json

/-- A number that is rounded is kept only if it is finite. -/
theorem representable_of_rounded {x : Binary64} (isNumber : x ≠ .nan)
    (finite : ∀ negative, x ≠ .infinite negative) : (Json.float x).Representable := by
  cases x with
  | nan => exact absurd rfl isNumber
  | infinite negative => exact absurd rfl (finite negative)
  | finite negative rank => exact .float negative rank

theorem representable_of_number? {negative : Bool} {whole fraction : List Char}
    {exponent : Option Int} {json : Json}
    (read : number? negative whole fraction exponent = some json) : json.Representable := by
  have size : (0 : Int) < UInt64.size := by decide
  have least : Int64.minValue.toInt ≤ 0 := by decide
  cases negative with
  | true =>
    simp only [number?, if_true] at read
    split at read
    · rename_i exact
      cases read
      exact .integer exact.2.2.2 (by omega)
    · split at read
      · cases read
      · rename_i finite
        cases read
        exact representable_of_rounded (Binary64.ofScaled_ne_nan _ _ _) finite
  | false =>
    simp only [number?, Bool.false_eq_true, if_false] at read
    split at read
    · rename_i exact
      cases read
      exact .integer (by omega) (Int.ofNat_lt.mpr exact.2.2)
    · split at read
      · cases read
      · rename_i finite
        cases read
        exact representable_of_rounded (Binary64.ofScaled_ne_nan _ _ _) finite

theorem representable_of_readUnsigned {negative : Bool} {cs rest : List Char} {json : Json}
    (read : readUnsigned negative cs = some (json, rest)) : json.Representable := by
  unfold readUnsigned at read
  dsimp only at read
  split at read
  · cases read
  all_goals
    obtain ⟨whole, -, read⟩ := Option.bind_eq_some_iff.mp read
    obtain ⟨⟨fraction, cs⟩, -, read⟩ := Option.bind_eq_some_iff.mp read
    obtain ⟨⟨exponent, cs⟩, -, read⟩ := Option.bind_eq_some_iff.mp read
    obtain ⟨number, numeral, same⟩ := Option.bind_eq_some_iff.mp read
    cases same
    exact representable_of_number? numeral

/-- What is read within a number of steps is representable if what was read before it is. -/
structure ReadsRepresentable (steps : Nat) : Prop where
  value : ∀ depth cs json rest, readValue steps depth cs = some (json, rest) → json.Representable
  items : ∀ depth cs done items rest, (∀ item ∈ done, item.Representable) →
    readItems steps depth cs done = some (items, rest) → ∀ item ∈ items, item.Representable
  members : ∀ depth cs done members rest, (∀ m ∈ done, m.2.Representable) →
    readMembers steps depth cs done = some (members, rest) → ∀ m ∈ members, m.2.Representable

theorem readsRepresentable (steps : Nat) : ReadsRepresentable steps := by
  induction steps with
  | zero => exact ⟨nofun, nofun, nofun⟩
  | succ steps ih =>
    refine ⟨fun depth cs json rest read => ?_, fun depth cs done items rest before read => ?_,
      fun depth cs done members rest before read => ?_⟩
    · unfold readValue at read
      split at read
      · cases read
        exact .null
      · cases read
        exact .bool _
      · cases read
        exact .bool _
      · obtain ⟨⟨text, rest⟩, -, same⟩ := Option.map_eq_some_iff.mp read
        cases same
        exact .string _
      · split at read
        · cases read
        · split at read
          · cases read
            exact .list nofun
          · obtain ⟨⟨items, rest⟩, inner, same⟩ := Option.map_eq_some_iff.mp read
            cases same
            exact .list (ih.items _ _ [] _ _ nofun inner)
      · split at read
        · cases read
        · split at read
          · cases read
            exact .object nofun
          · obtain ⟨⟨members, rest⟩, inner, same⟩ := Option.map_eq_some_iff.mp read
            cases same
            exact .object (ih.members _ _ [] _ _ nofun inner)
      · unfold readNumber at read
        split at read <;> exact representable_of_readUnsigned read
    · unfold readItems at read
      obtain ⟨⟨item, cs⟩, first, read⟩ := Option.bind_eq_some_iff.mp read
      have own : ∀ other ∈ item :: done, other.Representable :=
        List.forall_mem_cons.mpr ⟨ih.value _ _ _ _ first, before⟩
      dsimp only at read
      split at read
      · exact ih.items _ _ _ _ _ own read
      · cases read
        exact fun other among => own other (List.mem_reverse.mp among)
      · cases read
    · unfold readMembers at read
      split at read
      · obtain ⟨⟨key, cs⟩, -, read⟩ := Option.bind_eq_some_iff.mp read
        dsimp only at read
        split at read
        · obtain ⟨⟨value, cs⟩, first, read⟩ := Option.bind_eq_some_iff.mp read
          have own : ∀ m ∈ Members.insert done key value, m.2.Representable := by
            intro m among
            rcases Members.mem_insert among with rfl | among
            · exact ih.value _ _ _ _ first
            · exact before m among
          dsimp only at read
          split at read
          · exact ih.members _ _ _ _ _ own read
          · cases read
            exact own
          · cases read
        · cases read
      · cases read

/-- Text can write only numbers that are integers of 64 bits or finite. -/
theorem representable_of_ofBytes? {bytes : ByteArray} {json : Json}
    (read : ofBytes? bytes = some json) : json.Representable := by
  obtain ⟨text, -, read⟩ := Option.bind_eq_some_iff.mp read
  obtain ⟨⟨value, rest⟩, inner, read⟩ := Option.bind_eq_some_iff.mp read
  dsimp only at read
  split at read
  · cases read
    exact (readsRepresentable _).value _ _ _ _ inner
  · cases read

end Json

end ShapedGraph
