import SigScan.Proofs.Finding
import SigScan.Proofs.Grammar

namespace SigScan.Signature

def OnlyMarks (text : String) : Prop := ∃ n, text.toList = (List.replicate n ['\\', 'x']).flatten

theorem Piece.text_eq_nil {p : Piece} (meaningless : p.meaning = []) : p.text = [] := by
  obtain ⟨digits, signs⟩ := p
  cases digits with
  | none =>
    have unsigned : signs = 0 := by simpa [meaning] using meaningless
    simp [text, head, unsigned]
  | some pair => cases meaningless

theorem readPieces_replicate_nil (n : Nat) : readPieces (List.replicate n []) = .ok [] := by
  induction n with
  | zero => rfl
  | succ n ih =>
    rw [List.replicate_succ, readPieces, ih]
    rfl

theorem pieces_marks (n : Nat) :
    pieces (List.replicate n ['\\', 'x']).flatten = List.replicate (n + 1) [] := by
  induction n with
  | zero => rfl
  | succ n ih =>
    have plain : '\\' ∉ ([] : List Char) := by simp
    have front := pieces_append_mark plain (List.replicate n ['\\', 'x']).flatten
    rw [ih] at front
    exact front

theorem compile_eq_nil_iff {text : String} : compile text = .ok [] ↔ OnlyMarks text := by
  rw [compile_eq_readPieces]
  constructor
  · intro read
    obtain ⟨ps, split, meant⟩ := readPieces_eq_ok_iff.mp read
    have empty : ∀ piece ∈ pieces text.toList, piece = [] := by
      intro piece member
      rw [← split] at member
      obtain ⟨p, inside, rfl⟩ := List.mem_map.mp member
      exact p.text_eq_nil (List.flatMap_eq_nil_iff.mp meant p inside)
    cases listed : pieces text.toList with
    | nil => exact absurd listed (pieces_ne_nil _)
    | cons first others =>
      rw [listed] at empty
      obtain ⟨none_first, none_later⟩ := List.forall_mem_cons.mp empty
      refine ⟨others.length, ?_⟩
      rw [← join_pieces listed, none_first, List.eq_replicate_iff.mpr ⟨rfl, none_later⟩]
      simp [List.flatMap_replicate]
  · intro marks
    obtain ⟨n, written⟩ := marks
    rw [written, pieces_marks, readPieces_replicate_nil]

end SigScan.Signature

namespace SigScan

theorem Pattern.occurrences_nil (bytes : Array UInt8) :
    occurrences bytes [] = List.range (bytes.size + 1) := by
  rw [occurrences, List.filter_eq_self]
  intro offset member
  have inside := List.mem_range.mp member
  exact decide_eq_true ((occursAt_nil bytes offset).mpr (Nat.le_of_lt_succ inside))

theorem Scan.locate_nil (s : Scan) (name : String) :
    s.locate name [] = .hit name 0 (s.binary.size + 1) := by
  have everywhere := Pattern.occurrences_nil s.binary
  rw [List.range_succ_eq_map] at everywhere
  rw [locate_hit everywhere, List.length_map, List.length_range, Nat.add_comm]

open Signature

/-- An applicable value that compiles comes to at least one descriptor, unless it is made of marks
    only. Such a one comes to the empty pattern, and a run that nothing ends reports it as found at
    the start of the binary, whatever that is, and once more behind each of its bytes. -/
theorem applicable_pattern_nonempty_unless_only_marks (s : Scan) (entries : List Entry) :
    (∀ e raw pattern, (e, raw) ∈ s.options.applicable entries → compile raw = .ok pattern →
      (1 ≤ pattern.length ↔ ¬ OnlyMarks raw)) ∧
    ∀ report, (s.run entries).report = .ok report →
      ∀ e raw, (e, raw) ∈ s.options.applicable entries → OnlyMarks raw →
        .hit e.name 0 (s.binary.size + 1) ∈ report.findings := by
  constructor
  · intro e raw pattern _ compiled
    rw [← compile_eq_nil_iff, compiled, Except.ok.injEq, ← List.length_eq_zero_iff]
    exact Nat.one_le_iff_ne_zero
  · intro report done e raw applies marks
    obtain ⟨member, bears⟩ := Scan.mem_applicable_iff.mp applies
    have given : s.finding? e = some (.hit e.name 0 (s.binary.size + 1)) :=
      Scan.finding?_eq_some_iff.mpr
        ⟨raw, bears, [], compile_eq_nil_iff.mpr marks, s.locate_nil e.name⟩
    rw [Scan.findings_of_run_ok done]
    exact List.mem_filterMap.mpr ⟨e, member, given⟩

theorem only_marks_beside_signature :
    let s : Scan := ⟨#[0x90], ⟨"server", .linux, .skip⟩⟩
    let e : Entry := ⟨"Think", "tf", "server", none, some "\\x\\x"⟩
    let other : Entry := ⟨"Spawn", "tf", "server", none, some "\\x55"⟩
    let report : Report := ⟨[.miss "Spawn" "55", .hit "Think" 0 2], []⟩
    ((other, "\\x55") ∈ s.options.applicable [other, e] ∧
      compile "\\x55" = .ok [.exact 0x55] ∧ (1 ≤ 1 ↔ ¬ OnlyMarks "\\x55")) ∧
    (s.run [other, e]).report = .ok report ∧ (e, "\\x\\x") ∈ s.options.applicable [other, e] ∧
      OnlyMarks "\\x\\x" ∧ .hit e.name 0 (s.binary.size + 1) ∈ report.findings := by
  intro s e other report
  have signature : (other, "\\x55") ∈ s.options.applicable [other, e] := by decide +kernel
  have compiled : compile "\\x55" = .ok [.exact 0x55] := by rfl
  have done : (s.run [other, e]).report = .ok report := by decide +kernel
  have applies : (e, "\\x\\x") ∈ s.options.applicable [other, e] := by decide +kernel
  have marks : OnlyMarks "\\x\\x" := ⟨2, by decide⟩
  obtain ⟨lengths, everywhere⟩ := applicable_pattern_nonempty_unless_only_marks s [other, e]
  exact ⟨⟨signature, compiled, lengths other _ _ signature compiled⟩, done, applies, marks,
    everywhere report done e _ applies marks⟩

/-- A value that is one mark applies, compiles to nothing, and is reported as found in a binary that
    it says nothing about. -/
theorem bare_mark_is_reported_as_found :
    let s : Scan := ⟨#[0x90, 0xEC], {}⟩
    let e : Entry := ⟨"Think", "tf", "server", some "\\x", none⟩
    (e, "\\x") ∈ s.options.applicable [e] ∧ compile "\\x" = .ok [] ∧
      (s.run [e]).report = .ok ⟨[.hit "Think" 0 3], []⟩ := by
  decide +kernel

end SigScan
