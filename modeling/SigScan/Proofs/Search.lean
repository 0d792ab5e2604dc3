import SigScan.Cursor
import SigScan.Proofs.Occurrence

namespace SigScan

theorem firstPosition?_eq_some_iff {bytes : Array UInt8} {value : UInt8} {start count position : Nat} :
    firstPosition? bytes value start count = some position ↔
      start ≤ position ∧ position < start + count ∧ bytes[position]? = some value ∧
        ∀ earlier, start ≤ earlier → earlier < position → bytes[earlier]? ≠ some value := by
  induction count generalizing start with
  | zero =>
    simp only [firstPosition?, reduceCtorEq, false_iff]
    omega
  | succ count ih =>
    by_cases here : bytes[start]? = some value
    · simp only [firstPosition?, here, ↓reduceIte, Option.some.injEq]
      constructor
      · intro same
        subst same
        exact ⟨Nat.le_refl _, by omega, here, fun earlier _ _ => by omega⟩
      · intro bounds
        obtain ⟨above, -, -, absent⟩ := bounds
        by_contra apart
        exact absent start (Nat.le_refl _) (by omega) here
    · simp only [firstPosition?, here, ↓reduceIte]
      rw [ih]
      constructor
      · intro bounds
        obtain ⟨above, below, there, absent⟩ := bounds
        refine ⟨by omega, by omega, there, ?_⟩
        intro earlier after before
        rcases Nat.eq_or_lt_of_le after with rfl | later
        · exact here
        · exact absent earlier later before
      · intro bounds
        obtain ⟨above, below, there, absent⟩ := bounds
        have apart : start ≠ position := by
          intro same
          subst same
          exact here there
        exact ⟨by omega, by omega, there, fun earlier after before => absent earlier (by omega) before⟩

theorem firstPosition?_eq_none_iff {bytes : Array UInt8} {value : UInt8} {start count : Nat} :
    firstPosition? bytes value start count = none ↔
      ∀ position, start ≤ position → position < start + count → bytes[position]? ≠ some value := by
  induction count generalizing start with
  | zero =>
    simp only [firstPosition?, true_iff]
    omega
  | succ count ih =>
    by_cases here : bytes[start]? = some value
    · simp only [firstPosition?, here, ↓reduceIte, reduceCtorEq, false_iff]
      intro absent
      exact absent start (Nat.le_refl _) (by omega) here
    · simp only [firstPosition?, here, ↓reduceIte]
      rw [ih]
      constructor
      · intro absent position above below
        rcases Nat.eq_or_lt_of_le above with rfl | later
        · exact here
        · exact absent position later (by omega)
      · intro absent position above below
        exact absent position (by omega) (by omega)

namespace Cursor

/-- The occurrences that the cursor has not passed, in ascending order. -/
def remaining (c : Cursor) : List Nat :=
  (List.range' c.next (c.bytes.size + 1 - c.next)).filter (c.pattern.OccursAt c.bytes ·)

theorem remaining_start (bytes : Array UInt8) (pattern : Pattern) :
    (start bytes pattern).remaining = pattern.occurrences bytes := by
  rw [Pattern.occurrences, List.range_eq_range']
  rfl

theorem last?_eq_some_iff {c : Cursor} {last : Nat} :
    c.last? = some last ↔ last + c.pattern.length = c.bytes.size := by
  unfold last?
  split
  · simp only [Option.some.injEq]
    omega
  · simp only [reduceCtorEq, false_iff]
    omega

theorem remaining_skip {c : Cursor} {further : Nat} (ahead : c.next ≤ further)
    (absent : ∀ offset, c.next ≤ offset → offset < further → ¬ c.pattern.OccursAt c.bytes offset) :
    { c with next := further }.remaining = c.remaining := by
  induction further, ahead using Nat.le_induction with
  | base => rfl
  | succ further ahead ih =>
    rw [← ih fun offset above below => absent offset above (by omega)]
    have nothing := absent further ahead (Nat.lt_succ_self _)
    simp only [remaining]
    by_cases inside : further ≤ c.bytes.size
    · have count : c.bytes.size + 1 - further = c.bytes.size + 1 - (further + 1) + 1 := by omega
      rw [count, List.range'_succ, List.filter_cons]
      simp [nothing]
    · have beyond : c.bytes.size + 1 - further = 0 := by omega
      have farther : c.bytes.size + 1 - (further + 1) = 0 := by omega
      simp [beyond, farther]

theorem remaining_occurrence {c : Cursor} (occurs : c.pattern.OccursAt c.bytes c.next) :
    c.remaining = c.next :: { c with next := c.next + 1 }.remaining := by
  have fits := occurs.fits
  have count : c.bytes.size + 1 - c.next = c.bytes.size + 1 - (c.next + 1) + 1 := by omega
  simp only [remaining]
  rw [count, List.range'_succ, List.filter_cons]
  simp [occurs]

theorem remaining_past {c : Cursor} {last : Nat} (fits : last + c.pattern.length = c.bytes.size)
    (past : last < c.next) : c.remaining = [] := by
  rw [remaining, List.filter_eq_nil_iff]
  intro offset member occurs
  have bound := (of_decide_eq_true occurs).fits
  have := (List.mem_range'_1.mp member).1
  omega

theorem candidate?_skips {c : Cursor} {last offset : Nat} (candidate : c.candidate? last = some offset) :
    ∀ earlier, c.next ≤ earlier → earlier < offset → ¬ c.pattern.OccursAt c.bytes earlier := by
  intro earlier above below occurs
  rw [candidate?] at candidate
  split at candidate
  · rename_i index value anchored
    obtain ⟨position, first, rfl⟩ := Option.map_eq_some_iff.mp candidate
    obtain ⟨-, -, -, absent⟩ := firstPosition?_eq_some_iff.mp first
    exact absent (earlier + index) (by omega) (by omega) (occurs.anchor anchored).2
  · cases candidate
    omega

theorem candidate?_none {c : Cursor} {last : Nat} (none_left : c.candidate? last = none) :
    ∀ offset, c.next ≤ offset → offset ≤ last → ¬ c.pattern.OccursAt c.bytes offset := by
  intro offset above below occurs
  rw [candidate?] at none_left
  split at none_left
  · rename_i index value anchored
    have absent := firstPosition?_eq_none_iff.mp (Option.map_eq_none_iff.mp none_left)
    exact absent (offset + index) (by omega) (by omega) (occurs.anchor anchored).2
  · cases none_left

theorem seek_remaining {c : Cursor} {last : Nat} (fits : last + c.pattern.length = c.bytes.size) :
    (c.seek last).1 = c.remaining.head? ∧ (c.seek last).2.remaining = c.remaining.tail := by
  fun_induction seek c last with
  | case1 c before exhausted =>
    have absent := candidate?_none exhausted
    have skipped : { c with next := last + 1 }.remaining = c.remaining :=
      remaining_skip (by omega) fun offset above below => absent offset above (by omega)
    have nothing : { c with next := last + 1 }.remaining = [] :=
      remaining_past fits (Nat.lt_succ_self _)
    rw [← skipped, nothing]
    exact ⟨rfl, rfl⟩
  | case2 c before offset candidate accepted =>
    have bounds := candidate?_le before candidate
    have skipped := remaining_skip bounds.1 (candidate?_skips candidate)
    have occurs := (Pattern.acceptsAt_iff (by omega)).mp accepted
    have here := remaining_occurrence (c := { c with next := offset }) occurs
    rw [← skipped, here]
    exact ⟨rfl, rfl⟩
  | case3 c before offset candidate refused ih =>
    have bounds := candidate?_le before candidate
    have skipped : { c with next := offset + 1 }.remaining = c.remaining := by
      apply remaining_skip (by omega)
      intro earlier above below
      rcases Nat.lt_succ_iff_lt_or_eq.mp below with below | rfl
      · exact candidate?_skips candidate earlier above below
      · intro occurs
        exact refused ((Pattern.acceptsAt_iff occurs.fits).mpr occurs)
    rw [← skipped]
    exact ih fits
  | case4 c past =>
    rw [remaining_past fits (by omega)]
    exact ⟨rfl, rfl⟩

theorem remaining_of_last?_eq_none {c : Cursor} (unfit : c.last? = none) : c.remaining = [] := by
  rw [remaining, List.filter_eq_nil_iff]
  intro offset member occurs
  have fits := (of_decide_eq_true occurs).fits
  rw [last?] at unfit
  split at unfit
  · cases unfit
  · omega

/-- One step hands out the first occurrence that remains and leaves the others. -/
theorem advance_remaining (c : Cursor) :
    c.advance.1 = c.remaining.head? ∧ c.advance.2.remaining = c.remaining.tail := by
  unfold advance
  split
  · rename_i unfit
    rw [remaining_of_last?_eq_none unfit]
    exact ⟨rfl, rfl⟩
  · rename_i last fits
    exact seek_remaining (last?_eq_some_iff.mp fits)

theorem remaining_of_advance_none {c moved : Cursor} (stopped : c.advance = (none, moved)) :
    c.remaining = [] := by
  have head := (advance_remaining c).1
  rw [stopped] at head
  exact List.head?_eq_none_iff.mp head.symm

theorem remaining_of_advance_some {c moved : Cursor} {offset : Nat}
    (found : c.advance = (some offset, moved)) : c.remaining = offset :: moved.remaining := by
  obtain ⟨head, tail⟩ := advance_remaining c
  rw [found] at head tail
  rw [tail]
  exact (List.cons_head?_tail head.symm).symm

theorem gather_remaining (c : Cursor) (seen : Array Nat) :
    (c.gather seen).toList = seen.toList ++ c.remaining := by
  fun_induction gather c seen with
  | case1 c seen moved stopped => simp [remaining_of_advance_none stopped]
  | case2 c seen offset moved found ih =>
    rw [ih, remaining_of_advance_some found]
    simp

theorem rest_remaining (c : Cursor) : c.rest = c.remaining := by
  simp [rest, gather_remaining]

theorem mem_rest_start {bytes : Array UInt8} {pattern : Pattern} {offset : Nat} :
    offset ∈ (start bytes pattern).rest ↔ pattern.OccursAt bytes offset := by
  rw [rest_remaining, remaining_start]
  exact Pattern.mem_occurrences

theorem tally_remaining (c : Cursor) (seen : Nat) : c.tally seen = seen + c.remaining.length := by
  fun_induction tally c seen with
  | case1 c seen moved stopped => simp [remaining_of_advance_none stopped]
  | case2 c seen offset moved found ih =>
    rw [ih, remaining_of_advance_some found, List.length_cons]
    omega

theorem count_remaining (c : Cursor) : c.count = c.remaining.length := by
  simp [count, tally_remaining]

end Cursor

/-- The jumping search gives what a sliding window gives: every offset at which the pattern occurs,
    once and in ascending order. The lowest one is what is found first. -/
theorem search_agrees_with_sliding_window (bytes : Array UInt8) (pattern : Pattern) :
    (Cursor.start bytes pattern).rest = pattern.occurrences bytes ∧
      ((Cursor.start bytes pattern).rest).Pairwise (· < ·) ∧
      (∀ offset, offset ∈ (Cursor.start bytes pattern).rest ↔ pattern.OccursAt bytes offset) ∧
      pattern.find? bytes = ((Cursor.start bytes pattern).rest).head? := by
  have whole : (Cursor.start bytes pattern).rest = pattern.occurrences bytes := by
    rw [Cursor.rest_remaining, Cursor.remaining_start]
  refine ⟨whole, ?_, ?_, ?_⟩
  · rw [whole]
    exact Pattern.occurrences_ascend bytes pattern
  · intro offset
    rw [whole]
    exact Pattern.mem_occurrences
  · rw [Pattern.find?, Cursor.rest_remaining]
    exact (Cursor.advance_remaining _).1

end SigScan
