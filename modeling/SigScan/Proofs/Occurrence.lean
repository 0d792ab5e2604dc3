import Mathlib.Data.Set.Card
import SigScan.Pattern

namespace SigScan.Pattern

/-- The pattern fits between `offset` and the end, and each descriptor accepts the byte under it. -/
structure OccursAt (bytes : Array UInt8) (pattern : Pattern) (offset : Nat) : Prop where
  fits : offset + pattern.length ≤ bytes.size
  accepted : ∀ (i : Nat) (inside : i < pattern.length), pattern[i].accepts bytes[offset + i] = true

theorem occursAt_nil (bytes : Array UInt8) (offset : Nat) :
    OccursAt bytes [] offset ↔ offset ≤ bytes.size := by
  constructor
  · intro occurs
    exact occurs.fits
  · intro fits
    exact ⟨fits, by simp⟩

theorem occursAt_cons (bytes : Array UInt8) (descriptor : Descriptor) (rest : Pattern) (offset : Nat) :
    OccursAt bytes (descriptor :: rest) offset ↔
      (∃ byte, bytes[offset]? = some byte ∧ descriptor.accepts byte = true) ∧
        OccursAt bytes rest (offset + 1) := by
  constructor
  · intro occurs
    have fits := occurs.fits
    simp only [List.length_cons] at fits
    have first := occurs.accepted 0 (Nat.zero_lt_succ _)
    refine ⟨⟨bytes[offset], by simp, first⟩, by omega, ?_⟩
    intro i inside
    have next := occurs.accepted (i + 1) (Nat.succ_lt_succ inside)
    simp only [List.getElem_cons_succ] at next
    simpa only [Nat.add_assoc, Nat.add_comm 1 i] using next
  · intro laid
    obtain ⟨⟨byte, here, accepts⟩, tail⟩ := laid
    have fits := tail.fits
    obtain ⟨bound, rfl⟩ := Array.getElem?_eq_some_iff.mp here
    refine ⟨by simp only [List.length_cons]; omega, ?_⟩
    intro i inside
    cases i with
    | zero => exact accepts
    | succ i =>
      have next := tail.accepted i (Nat.lt_of_succ_lt_succ inside)
      simp only [List.getElem_cons_succ]
      simpa only [Nat.add_assoc, Nat.add_comm 1 i] using next

theorem acceptsAt_iff {bytes : Array UInt8} {pattern : Pattern} {offset : Nat}
    (fits : offset + pattern.length ≤ bytes.size) :
    pattern.acceptsAt bytes offset = true ↔ pattern.OccursAt bytes offset := by
  induction pattern generalizing offset with
  | nil => simpa [acceptsAt, occursAt_nil] using fits
  | cons descriptor rest ih =>
    simp only [List.length_cons] at fits
    have inside : offset < bytes.size := by omega
    have tail_fits : offset + 1 + rest.length ≤ bytes.size := by omega
    rw [occursAt_cons, ← ih tail_fits]
    simp [acceptsAt, inside]

instance (bytes : Array UInt8) (pattern : Pattern) (offset : Nat) :
    Decidable (pattern.OccursAt bytes offset) :=
  if fits : offset + pattern.length ≤ bytes.size then decidable_of_iff _ (acceptsAt_iff fits)
  else isFalse fun occurs => fits occurs.fits

def occurrences (bytes : Array UInt8) (pattern : Pattern) : List Nat :=
  (List.range (bytes.size + 1)).filter (pattern.OccursAt bytes ·)

theorem mem_occurrences {bytes : Array UInt8} {pattern : Pattern} {offset : Nat} :
    offset ∈ pattern.occurrences bytes ↔ pattern.OccursAt bytes offset := by
  simp only [occurrences, List.mem_filter, List.mem_range, decide_eq_true_eq, and_iff_right_iff_imp]
  intro occurs
  have := occurs.fits
  omega

theorem occurrences_ascend (bytes : Array UInt8) (pattern : Pattern) :
    (pattern.occurrences bytes).Pairwise (· < ·) :=
  List.pairwise_lt_range.filter _

theorem occurrences_length (bytes : Array UInt8) (pattern : Pattern) :
    (pattern.occurrences bytes).length = {offset | pattern.OccursAt bytes offset}.ncard := by
  have distinct : (pattern.occurrences bytes).Nodup :=
    (occurrences_ascend bytes pattern).imp fun below => Nat.ne_of_lt below
  rw [← List.toFinset_card_of_nodup distinct, ← Set.ncard_coe_finset]
  congr 1
  ext offset
  simp [mem_occurrences]

theorem occurrences_head {bytes : Array UInt8} {pattern : Pattern} {first : Nat} {others : List Nat}
    (found : pattern.occurrences bytes = first :: others) :
    IsLeast {offset | pattern.OccursAt bytes offset} first := by
  have ascend := occurrences_ascend bytes pattern
  rw [found] at ascend
  constructor
  · apply mem_occurrences.mp
    simp [found]
  · intro offset occurs
    have member := mem_occurrences.mpr occurs
    rw [found] at member
    rcases List.mem_cons.mp member with rfl | member
    · exact Nat.le_refl _
    · exact Nat.le_of_lt (List.rel_of_pairwise_cons ascend member)

theorem anchor?_getElem? {pattern : Pattern} {index : Nat} {value : UInt8}
    (anchored : pattern.anchor? = some (index, value)) :
    pattern[index]? = some (.exact value) := by
  induction pattern generalizing index with
  | nil => cases anchored
  | cons descriptor rest ih =>
    cases descriptor with
    | exact first =>
      cases anchored
      rfl
    | wildcard =>
      obtain ⟨⟨before, same⟩, inner, moved⟩ := Option.map_eq_some_iff.mp anchored
      cases moved
      exact ih inner

theorem OccursAt.anchor {bytes : Array UInt8} {pattern : Pattern} {offset index : Nat} {value : UInt8}
    (occurs : pattern.OccursAt bytes offset) (anchored : pattern.anchor? = some (index, value)) :
    index < pattern.length ∧ bytes[offset + index]? = some value := by
  obtain ⟨inside, same⟩ := List.getElem?_eq_some_iff.mp (anchor?_getElem? anchored)
  have fits := occurs.fits
  have accepted := occurs.accepted index inside
  rw [same] at accepted
  refine ⟨inside, Array.getElem?_eq_some_iff.mpr ⟨by omega, ?_⟩⟩
  exact (beq_iff_eq.mp accepted).symm

end SigScan.Pattern
