import SigScan.Proofs.Fate
import SigScan.Proofs.Search

namespace SigScan

structure Finding.IsHit (f : Finding) (bytes : Array UInt8) (pattern : Pattern) : Prop where
  found : f.found = true
  first : ∃ offset, f.offset = some offset ∧ IsLeast {o | pattern.OccursAt bytes o} offset ∧
    offset + pattern.length ≤ bytes.size
  occurrences : f.occurrences = {o | pattern.OccursAt bytes o}.ncard
  positive : 1 ≤ f.occurrences
  search : f.search = none

structure Finding.IsMiss (f : Finding) (bytes : Array UInt8) (pattern : Pattern) : Prop where
  found : f.found = false
  offset : f.offset = none
  occurrences : f.occurrences = 0
  search : f.search = some pattern.searchString
  absent : ∀ o, ¬ pattern.OccursAt bytes o

namespace Scan

theorem locate_name (s : Scan) (name : String) (pattern : Pattern) :
    (s.locate name pattern).name = name := by
  unfold locate
  split <;> rfl

/-- Counting goes on from the cursor that the first step left, so it misses the first occurrence
    only, which is added. -/
theorem locate_hit {s : Scan} {pattern : Pattern} {first : Nat} {others : List Nat}
    (occurs : pattern.occurrences s.binary = first :: others) (name : String) :
    s.locate name pattern = .hit name first (1 + others.length) := by
  rw [← Cursor.remaining_start] at occurs
  unfold locate
  split
  · rename_i offset moved found
    rw [Cursor.remaining_of_advance_some found] at occurs
    obtain ⟨rfl, rfl⟩ := List.cons.inj occurs
    rw [Cursor.count_remaining]
  · rename_i stopped found
    rw [Cursor.remaining_of_advance_none found] at occurs
    cases occurs

theorem locate_miss {s : Scan} {pattern : Pattern} (nowhere : pattern.occurrences s.binary = [])
    (name : String) : s.locate name pattern = .miss name pattern.searchString := by
  rw [← Cursor.remaining_start] at nowhere
  unfold locate
  split
  · rename_i offset moved found
    rw [Cursor.remaining_of_advance_some found] at nowhere
    cases nowhere
  · rfl

theorem locate_tells (s : Scan) (name : String) (pattern : Pattern) :
    Xor ((s.locate name pattern).IsHit s.binary pattern)
      ((s.locate name pattern).IsMiss s.binary pattern) := by
  cases occurs : pattern.occurrences s.binary with
  | nil =>
    rw [locate_miss occurs]
    right
    refine ⟨⟨rfl, rfl, rfl, rfl, ?_⟩, fun hit => Bool.noConfusion hit.found⟩
    intro offset here
    have member := Pattern.mem_occurrences.mpr here
    rw [occurs] at member
    cases member
  | cons first others =>
    rw [locate_hit occurs]
    left
    have least := Pattern.occurrences_head occurs
    have total := Pattern.occurrences_length s.binary pattern
    rw [occurs, List.length_cons] at total
    refine ⟨⟨rfl, ⟨first, rfl, least, least.1.fits⟩, ?_, ?_, rfl⟩,
      fun miss => Bool.noConfusion miss.found⟩
    · simp only [Finding.hit]
      omega
    · simp only [Finding.hit]
      omega

theorem Gives.tells {s : Scan} {e : Entry} {raw : String} {f : Finding} (gives : s.Gives (e, raw) f) :
    ∃ pattern, Signature.compile raw = .ok pattern ∧ f.name = e.name ∧
      Xor (f.IsHit s.binary pattern) (f.IsMiss s.binary pattern) := by
  obtain ⟨pattern, compiled, rfl⟩ := gives
  exact ⟨pattern, compiled, s.locate_name e.name pattern, s.locate_tells e.name pattern⟩

end Scan

theorem Finding.offset_eq_some_iff {f : Finding} {bytes : Array UInt8} {pattern : Pattern}
    (tells : Xor (f.IsHit bytes pattern) (f.IsMiss bytes pattern)) (offset : Nat) :
    f.offset = some offset ↔ IsLeast {o | pattern.OccursAt bytes o} offset := by
  rcases tells with ⟨hit, -⟩ | ⟨miss, -⟩
  · obtain ⟨first, placed, least, -⟩ := hit.first
    rw [placed, Option.some.injEq]
    constructor
    · intro same
      exact same ▸ least
    · exact least.unique
  · rw [miss.offset]
    constructor
    · intro placed
      cases placed
    · intro least
      exact absurd least.1 (miss.absent offset)

/-- Whatever a run hands on is of an applicable entry that compiles, and tells either its first
    occurrence and their number or that there is none. A run that nothing ends leaves out no
    entry that compiles. -/
theorem seen_tells_occurrences (s : Scan) (entries : List Entry) :
    (∀ f ∈ (s.run entries).seen, ∃ e raw pattern, (e, raw) ∈ s.options.applicable entries ∧
      Signature.compile raw = .ok pattern ∧ f.name = e.name ∧
      Xor (f.IsHit s.binary pattern) (f.IsMiss s.binary pattern) ∧
      ∀ offset, f.offset = some offset ↔ IsLeast {o | pattern.OccursAt s.binary o} offset) ∧
    ∀ report, (s.run entries).report = .ok report →
      ∀ e raw pattern, (e, raw) ∈ s.options.applicable entries →
        Signature.compile raw = .ok pattern →
        ∃ f ∈ (s.run entries).seen, f.name = e.name ∧
          Xor (f.IsHit s.binary pattern) (f.IsMiss s.binary pattern) := by
  rw [Scan.run_seen]
  constructor
  · intro f seen
    obtain ⟨e, member, given⟩ := List.mem_filterMap.mp ((s.findings_prefix entries).subset seen)
    obtain ⟨raw, bears, gives⟩ := Scan.finding?_eq_some_iff.mp given
    obtain ⟨pattern, compiled, name, tells⟩ := gives.tells
    exact ⟨e, raw, pattern, Scan.mem_applicable_iff.mpr ⟨member, bears⟩, compiled, name, tells,
      Finding.offset_eq_some_iff tells⟩
  · intro report done e raw pattern applies compiled
    have sound : (s.trail entries).fault = none := by
      cases fault : (s.trail entries).fault with
      | none => rfl
      | some error =>
        rw [Scan.run_of_fault fault] at done
        cases done
    obtain ⟨member, bears⟩ := Scan.mem_applicable_iff.mp applies
    have given := Scan.finding?_eq_some_iff.mpr ⟨raw, bears, pattern, compiled, rfl⟩
    refine ⟨s.locate e.name pattern, ?_, s.locate_name e.name pattern, s.locate_tells e.name pattern⟩
    rw [Scan.findings_of_no_fault sound]
    exact List.mem_filterMap.mpr ⟨e, member, given⟩

theorem seen_tells_overlapping_occurrences :
    let s : Scan := ⟨#[0x90, 0x90, 0x90], {}⟩
    let e : Entry := ⟨"Pad", "tf", "server", some "\\x90\\x90", none⟩
    let f : Finding := .hit "Pad" 0 2
    let p : Pattern := [.exact 0x90, .exact 0x90]
    (f ∈ (s.run [e]).seen ∧ ∃ e' raw pattern, (e', raw) ∈ s.options.applicable [e] ∧
      Signature.compile raw = .ok pattern ∧ f.name = e'.name ∧
      Xor (f.IsHit s.binary pattern) (f.IsMiss s.binary pattern) ∧
      ∀ offset, f.offset = some offset ↔ IsLeast {o | pattern.OccursAt s.binary o} offset) ∧
    (s.run [e]).report = .ok ⟨[f], []⟩ ∧ (e, "\\x90\\x90") ∈ s.options.applicable [e] ∧
      Signature.compile "\\x90\\x90" = .ok p ∧
      ∃ f' ∈ (s.run [e]).seen, f'.name = e.name ∧
        Xor (f'.IsHit s.binary p) (f'.IsMiss s.binary p) := by
  intro s e f p
  have seen : f ∈ (s.run [e]).seen := by decide +kernel
  have done : (s.run [e]).report = .ok ⟨[f], []⟩ := by decide +kernel
  have applies : (e, "\\x90\\x90") ∈ s.options.applicable [e] := by decide +kernel
  have compiled : Signature.compile "\\x90\\x90" = .ok p := by decide +kernel
  have both := seen_tells_occurrences s [e]
  exact ⟨⟨seen, both.1 f seen⟩, done, applies, compiled, both.2 _ done e _ p applies compiled⟩

end SigScan
