import SigScan.Proofs.Grammar
import SigScan.Proofs.Search

namespace SigScan

theorem Descriptor.eq_wildcard_of_accepts {descriptor : Descriptor} {value : UInt8}
    (accepts : descriptor.accepts value = true) (lax : descriptor ≠ .exact value) :
    descriptor = .wildcard := by
  cases descriptor with
  | wildcard => rfl
  | exact wanted =>
    have same : wanted = value := beq_iff_eq.mp accepts
    exact absurd (congrArg Descriptor.exact same) lax

def Descriptor.sample : Descriptor → UInt8
  | .exact value => value
  | .wildcard => 0

theorem Descriptor.accepts_sample (descriptor : Descriptor) :
    descriptor.accepts descriptor.sample = true := by
  cases descriptor with
  | exact value => exact beq_self_eq_true value
  | wildcard => rfl

namespace Pattern

/-- Wherever the search finds the pattern over a byte of this value, it finds it there still when
    that one byte is changed. -/
def Spares (pattern : Pattern) (value : UInt8) : Prop :=
  ∀ (bytes : Array UInt8) (offset i : Nat), offset ∈ (Cursor.start bytes pattern).rest →
    i < pattern.length → bytes[offset + i]? = some value →
    ∀ byte, offset ∈ (Cursor.start (bytes.setIfInBounds (offset + i) byte) pattern).rest

theorem OccursAt.change {bytes : Array UInt8} {pattern : Pattern} {offset i : Nat}
    (occurs : pattern.OccursAt bytes offset) (lax : pattern[i]? = some .wildcard) (byte : UInt8) :
    pattern.OccursAt (bytes.setIfInBounds (offset + i) byte) offset := by
  have size : (bytes.setIfInBounds (offset + i) byte).size = bytes.size := Array.size_setIfInBounds
  refine ⟨by rw [size]; exact occurs.fits, ?_⟩
  intro j inside
  rw [Array.getElem_setIfInBounds]
  split
  · rename_i here
    have same : i = j := Nat.add_left_cancel here
    obtain ⟨bound, wildcard⟩ := List.getElem?_eq_some_iff.mp lax
    subst same
    rw [wildcard]
    rfl
  · exact occurs.accepted j inside

def sample (pattern : Pattern) : Array UInt8 := (pattern.map Descriptor.sample).toArray

theorem occursAt_sample (pattern : Pattern) : pattern.OccursAt pattern.sample 0 := by
  refine ⟨by simp [sample], ?_⟩
  intro i inside
  simpa [sample] using pattern[i].accepts_sample

theorem spares_iff {pattern : Pattern} {value : UInt8} :
    pattern.Spares value ↔ .exact value ∉ pattern := by
  constructor
  · intro spares demanded
    obtain ⟨i, inside, demands⟩ := List.getElem_of_mem demanded
    have found := Cursor.mem_rest_start.mpr pattern.occursAt_sample
    have here : pattern.sample[0 + i]? = some value := by
      simp [sample, inside, demands, Descriptor.sample]
    have changed := Cursor.mem_rest_start.mp (spares pattern.sample 0 i found inside here (value + 1))
    have refused := changed.accepted i inside
    rw [demands, Array.getElem_setIfInBounds_self] at refused
    have same : value = value + 1 := beq_iff_eq.mp refused
    exact absurd same (by simp)
  · intro lax bytes offset i found inside here byte
    have occurs := Cursor.mem_rest_start.mp found
    obtain ⟨bound, same⟩ := Array.getElem?_eq_some_iff.mp here
    have accepts := occurs.accepted i inside
    rw [same] at accepts
    have other : pattern[i] ≠ .exact value := fun demands => lax (demands ▸ List.getElem_mem inside)
    have wildcard := Descriptor.eq_wildcard_of_accepts accepts other
    apply Cursor.mem_rest_start.mpr
    exact occurs.change (List.getElem?_eq_some_iff.mpr ⟨inside, wildcard⟩) byte

end Pattern

namespace Signature

theorem Piece.pairMeaning_ne (high low : Hex.Digit) :
    Piece.pairMeaning high low ≠ .exact wildcardByte := by
  simp only [pairMeaning]
  split
  · simp
  · rename_i other
    intro same
    exact other ((pair_is_star_iff high low).mp (Descriptor.exact.inj same))

theorem Piece.exact_not_mem_meaning (p : Piece) : .exact wildcardByte ∉ p.meaning := by
  obtain ⟨digits, signs⟩ := p
  cases digits with
  | none => simp [meaning]
  | some pair => simp [meaning, (pairMeaning_ne pair.1 pair.2).symm]

theorem exact_not_mem_of_compile {text : String} {pattern : Pattern}
    (compiled : compile text = .ok pattern) : .exact wildcardByte ∉ pattern := by
  obtain ⟨ps, -, rfl⟩ := readPieces_eq_ok_iff.mp (compile_eq_readPieces.mp compiled)
  intro demanded
  obtain ⟨p, -, inside⟩ := List.mem_flatMap.mp demanded
  exact p.exact_not_mem_meaning inside

/-- No signature demands the byte of the wildcard sign, in whatever way it is written: where its
    pattern is found over that byte, any other byte may stand instead. For a pattern at large,
    that a value is spared is the same as that no descriptor demands it. -/
theorem compiled_pattern_spares_wildcard_byte :
    (∀ text pattern, compile text = .ok pattern →
      .exact wildcardByte ∉ pattern ∧ pattern.Spares wildcardByte) ∧
    ∀ (pattern : Pattern) (value : UInt8), pattern.Spares value ↔ .exact value ∉ pattern := by
  refine ⟨?_, fun pattern value => Pattern.spares_iff⟩
  intro text pattern compiled
  have lax := exact_not_mem_of_compile compiled
  exact ⟨lax, Pattern.spares_iff.mpr lax⟩

theorem spellings_of_wildcard_byte_are_spared :
    let text := "2a\\x2A*\\x90"
    let pattern : Pattern := [.wildcard, .wildcard, .wildcard, .exact 0x90]
    let bytes : Array UInt8 := #[0x2A, 0x2A, 0x2A, 0x2A, 0x90]
    compile text = .ok pattern ∧ .exact wildcardByte ∉ pattern ∧
      (Cursor.start bytes pattern).rest = [1] ∧ bytes[1 + 1]? = some wildcardByte ∧
      1 ∈ (Cursor.start (bytes.setIfInBounds (1 + 1) 0x55) pattern).rest := by
  intro text pattern bytes
  have compiled : compile text = .ok pattern := by decide +kernel
  have found : (Cursor.start bytes pattern).rest = [1] := by decide +kernel
  have here : bytes[1 + 1]? = some wildcardByte := by decide
  obtain ⟨lax, spares⟩ := compiled_pattern_spares_wildcard_byte.1 text pattern compiled
  have member : 1 ∈ (Cursor.start bytes pattern).rest := by rw [found]; exact List.mem_singleton_self 1
  exact ⟨compiled, lax, found, here, spares bytes 1 1 member (by decide) here 0x55⟩

end Signature

end SigScan
