import SigScan.Proofs.Search

namespace SigScan.Cursor

def taken (c : Cursor) : (n : Nat) → List Nat
  | 0 => []
  | n + 1 =>
    match c.advance with
    | (none, _) => []
    | (some offset, moved) => offset :: moved.taken n

def passes (c : Cursor) : Query → List Nat
  | .next => c.taken 1
  | .skip n => c.taken (n + 1)
  | .rest | .count => []

def after (c : Cursor) : List Query → Cursor
  | [] => c
  | query :: past => (c.ask query).2.after past

def passed (c : Cursor) : List Query → List Nat
  | [] => []
  | query :: past => c.passes query ++ (c.ask query).2.passed past

theorem taken_remaining (c : Cursor) (n : Nat) : c.taken n = c.remaining.take n := by
  induction n generalizing c with
  | zero => rfl
  | succ n ih =>
    unfold taken
    split
    · rename_i stopped found
      rw [remaining_of_advance_none found, List.take_nil]
    · rename_i offset moved found
      rw [remaining_of_advance_some found, List.take_succ_cons, ih]

theorem skip_remaining (c : Cursor) (n : Nat) :
    (c.skip n).1 = c.remaining[n]? ∧ (c.skip n).2.remaining = c.remaining.drop (n + 1) := by
  induction n generalizing c with
  | zero =>
    obtain ⟨head, tail⟩ := advance_remaining c
    rw [← List.head?_eq_getElem?, List.drop_one]
    exact ⟨head, tail⟩
  | succ n ih =>
    unfold skip
    split
    · rename_i stopped found
      have nothing := remaining_of_advance_none found
      have after := (advance_remaining c).2
      rw [found, nothing] at after
      rw [nothing]
      exact ⟨rfl, after⟩
    · rename_i offset moved found
      rw [remaining_of_advance_some found, List.getElem?_cons_succ, List.drop_succ_cons]
      exact ih moved

/-- A query takes what it leaves behind off the front of the occurrences that remain. -/
theorem ask_remaining (c : Cursor) (query : Query) :
    c.remaining = c.passes query ++ (c.ask query).2.remaining := by
  cases query with
  | next =>
    have tail := (advance_remaining c).2
    rw [passes, taken_remaining, ask, tail, ← List.drop_one, List.take_append_drop]
  | skip n =>
    have tail := (skip_remaining c n).2
    rw [passes, taken_remaining, ask, tail, List.take_append_drop]
  | rest => rfl
  | count => rfl

theorem after_remaining (c : Cursor) (past : List Query) :
    c.remaining = c.passed past ++ (c.after past).remaining := by
  induction past generalizing c with
  | nil => rfl
  | cons query past ih =>
    rw [passed, after, List.append_assoc, ← ih, ← ask_remaining]

theorem answers_snoc (c : Cursor) (past : List Query) (query : Query) :
    c.answers (past ++ [query]) = c.answers past ++ [((c.after past).ask query).1] := by
  induction past generalizing c with
  | nil => rfl
  | cons first past ih => simp only [List.cons_append, answers, after, ih]

theorem passed_snoc (c : Cursor) (past : List Query) (query : Query) :
    c.passed (past ++ [query]) = c.passed past ++ (c.after past).passes query := by
  induction past generalizing c with
  | nil => simp [passed, after]
  | cons first past ih => simp only [List.cons_append, passed, after, ih, List.append_assoc]

theorem ask_none {c : Cursor} {query : Query} (stopped : (c.ask query).1 = .offset none) :
    c.remaining.length ≤ (c.passes query).length := by
  cases query with
  | next =>
    have head := (advance_remaining c).1
    simp only [ask, Answer.offset.injEq] at stopped
    rw [stopped] at head
    simp [List.head?_eq_none_iff.mp head.symm]
  | skip n =>
    have given := (skip_remaining c n).1
    simp only [ask, Answer.offset.injEq] at stopped
    rw [stopped] at given
    have short := List.getElem?_eq_none_iff.mp given.symm
    rw [passes, taken_remaining, List.take_of_length_le (by omega)]
  | rest => cases stopped
  | count => cases stopped

theorem remaining_after_none {c : Cursor} {past : List Query}
    (stopped : .offset none ∈ c.answers past) : (c.after past).remaining = [] := by
  induction past generalizing c with
  | nil => cases stopped
  | cons query past ih =>
    rcases List.mem_cons.mp stopped with here | later
    · have split := congrArg List.length (ask_remaining c query)
      have covered := ask_none here.symm
      have onward := congrArg List.length (after_remaining (c.ask query).2 past)
      simp only [List.length_append] at split onward
      exact List.eq_nil_of_length_eq_zero (by simp only [after]; omega)
    · exact ih later

/-- At each point of a history the offsets given or skipped so far are the first of the
    occurrences. The others are what every query is answered from, and none is left once a query
    has found nothing. -/
theorem history_walks_occurrences (bytes : Array UInt8) (pattern : Pattern) (past : List Query) :
    let first := start bytes pattern
    let c := first.after past
    ∃ left, pattern.occurrences bytes = first.passed past ++ left ∧
      c.ask .rest = (.offsets left, c) ∧ c.ask .count = (.number left.length, c) ∧
      (c.ask .next).1 = .offset left.head? ∧ c.passes .next = left.take 1 ∧
      (∀ n, (c.ask (.skip n)).1 = .offset left[n]? ∧ c.passes (.skip n) = left.take (n + 1)) ∧
      (∀ query, first.answers (past ++ [query]) = first.answers past ++ [(c.ask query).1] ∧
        first.passed (past ++ [query]) = first.passed past ++ c.passes query) ∧
      (.offset none ∈ first.answers past → left = []) := by
  intro first c
  refine ⟨c.remaining, ?_, ?_, ?_, ?_, ?_, ?_, ?_, ?_⟩
  · rw [← remaining_start, after_remaining]
  · rw [ask, rest_remaining]
  · rw [ask, count_remaining]
  · exact congrArg Answer.offset (advance_remaining c).1
  · exact taken_remaining c 1
  · intro n
    exact ⟨congrArg Answer.offset (skip_remaining c n).1, taken_remaining c (n + 1)⟩
  · intro query
    exact ⟨answers_snoc first past query, passed_snoc first past query⟩
  · exact remaining_after_none

theorem exhausted_history_walks_occurrences :
    let first := start #[0x90, 0xEC, 0x90, 0xEC, 0x90] [.exact 0x90]
    let past : List Query := [.next, .rest, .skip 0, .skip 18446744073709551615, .next, .count]
    let c := first.after past
    .offset none ∈ first.answers past ∧ first.passed past = [0, 2, 4] ∧
      ∃ left, Pattern.occurrences #[0x90, 0xEC, 0x90, 0xEC, 0x90] [.exact 0x90] =
          first.passed past ++ left ∧
        c.ask .rest = (.offsets left, c) ∧ c.ask .count = (.number left.length, c) ∧
        (c.ask .next).1 = .offset left.head? ∧ c.passes .next = left.take 1 ∧
        (∀ n, (c.ask (.skip n)).1 = .offset left[n]? ∧ c.passes (.skip n) = left.take (n + 1)) ∧
        (∀ query, first.answers (past ++ [query]) = first.answers past ++ [(c.ask query).1] ∧
          first.passed (past ++ [query]) = first.passed past ++ c.passes query) ∧
        left = [] := by
  intro first past c
  have stopped : .offset none ∈ first.answers past := by decide +kernel
  have through : first.passed past = [0, 2, 4] := by decide +kernel
  obtain ⟨left, whole, rest, count, next, taken, skip, onward, ended⟩ :=
    history_walks_occurrences #[0x90, 0xEC, 0x90, 0xEC, 0x90] [.exact 0x90] past
  exact ⟨stopped, through, left, whole, rest, count, next, taken, skip, onward, ended stopped⟩

end SigScan.Cursor
