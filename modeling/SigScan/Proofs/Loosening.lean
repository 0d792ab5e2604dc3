import Mathlib.Data.List.Forall2
import SigScan.Proofs.Blame
import SigScan.Proofs.Finding

namespace SigScan

namespace Pattern

/-- The patterns have one length, and each descriptor of the first is that of the second or accepts
    every byte. -/
def Loosens (loose tight : Pattern) : Prop :=
  List.Forall₂ (fun d d' => d' = d ∨ d' = .wildcard) tight loose

theorem Loosens.refl (pattern : Pattern) : pattern.Loosens pattern :=
  List.forall₂_same.mpr fun _ _ => .inl rfl

theorem Loosens.wildcard (descriptor : Descriptor) (rest : Pattern) :
    Loosens (.wildcard :: rest) (descriptor :: rest) :=
  .cons (.inr rfl) (Loosens.refl rest)

theorem Loosens.append {loose tight loose' tight' : Pattern} (front : loose.Loosens tight)
    (back : loose'.Loosens tight') : Loosens (loose ++ loose') (tight ++ tight') :=
  List.rel_append front back

theorem Loosens.trans {loosest loose tight : Pattern} (further : loosest.Loosens loose)
    (first : loose.Loosens tight) : loosest.Loosens tight := by
  induction first generalizing loosest with
  | nil => exact further
  | cons here later ih =>
    cases further with
    | cons here' later' =>
      refine .cons ?_ (ih later')
      rcases here' with rfl | rfl
      · exact here
      · exact .inr rfl

theorem Loosens.occursAt {loose tight : Pattern} {bytes : Array UInt8} {offset : Nat}
    (loosens : loose.Loosens tight) (occurs : tight.OccursAt bytes offset) :
    loose.OccursAt bytes offset := by
  induction loosens generalizing offset with
  | nil => exact occurs
  | cons here later ih =>
    obtain ⟨⟨byte, there, accepts⟩, rest⟩ := (occursAt_cons _ _ _ _).mp occurs
    refine (occursAt_cons _ _ _ _).mpr ⟨⟨byte, there, ?_⟩, ih rest⟩
    rcases here with rfl | rfl
    · exact accepts
    · rfl

theorem Loosens.occurrences_sublist {loose tight : Pattern} (loosens : loose.Loosens tight)
    (bytes : Array UInt8) :
    (tight.occurrences bytes).Sublist (loose.occurrences bytes) := by
  apply List.monotone_filter_right
  intro offset occurs
  exact decide_eq_true (loosens.occursAt (of_decide_eq_true occurs))

end Pattern

structure Finding.NoWorse (f other : Finding) : Prop where
  found : f.found = true
  offset : ∃ offset offset', f.offset = some offset ∧ other.offset = some offset' ∧ offset ≤ offset'
  occurrences : other.occurrences ≤ f.occurrences

theorem Scan.locate_loosened {s : Scan} {loose tight : Pattern} (loosens : loose.Loosens tight)
    {name : String} (found : (s.locate name tight).found = true) (name' : String) :
    (s.locate name' loose).NoWorse (s.locate name tight) := by
  have kept := loosens.occurrences_sublist s.binary
  cases occurs : tight.occurrences s.binary with
  | nil =>
    rw [locate_miss occurs] at found
    cases found
  | cons first others =>
    cases occurs' : loose.occurrences s.binary with
    | nil =>
      rw [occurs, occurs'] at kept
      cases kept
    | cons first' others' =>
      have here := (Pattern.occurrences_head occurs).1
      have least := (Pattern.occurrences_head occurs').2 (loosens.occursAt here)
      have fewer := kept.length_le
      rw [occurs, occurs', List.length_cons, List.length_cons] at fewer
      rw [locate_hit occurs, locate_hit occurs']
      refine ⟨rfl, ⟨first', first, rfl, rfl, least⟩, ?_⟩
      simp only [Finding.hit]
      omega

namespace Signature

inductive Loosened : List Char → List Char → Prop
  | done : Loosened [] []
  | keep (c : Char) {text text' : List Char} (after : Loosened text text') :
      Loosened (c :: text) (c :: text')
  | sign (high low : Hex.Digit) {text text' : List Char} (after : Loosened text text') :
      Loosened ('\\' :: 'x' :: high.sign :: low.sign :: text) ('*' :: text')

theorem exists_last_piece (before : List Char) :
    ∃ good last, ∀ after : List Char, after.head? ≠ some 'x' →
      pieces (before ++ after) = good ++ (pieces after).modifyHead (last ++ ·) := by
  obtain ⟨good, last, split⟩ :=
    (List.eq_nil_or_concat (pieces before)).resolve_left (pieces_ne_nil before)
  rw [List.concat_eq_append] at split
  have unmarked : ∀ piece ∈ good ++ [last], Unmarked piece := by
    intro piece member
    rw [← split] at member
    exact unmarked_of_mem_pieces member
  obtain ⟨unmarked_good, unmarked_last⟩ := List.forall_mem_append.mp unmarked
  have joined : before = closed good ++ last := by
    rw [text_eq_closed split]
    simp [marked]
  refine ⟨good, last, fun after apart => ?_⟩
  rw [joined, List.append_assoc, pieces_closed unmarked_good,
    pieces_append_of_unmarked (List.forall_mem_singleton.mp unmarked_last) apart]

def Piece.signed (p : Piece) (n : Nat) : Piece := { p with signs := p.signs + n }

theorem Piece.text_signed (p : Piece) (n : Nat) : (p.signed n).text = p.text ++ List.replicate n '*' := by
  rw [signed, text, text, List.append_assoc, ← List.replicate_add]
  rfl

theorem Piece.meaning_signed (p : Piece) (n : Nat) :
    (p.signed n).meaning = p.meaning ++ List.replicate n .wildcard := by
  obtain ⟨digits, signs⟩ := p
  cases digits <;> simp only [signed, meaning, List.replicate_add, List.cons_append]

theorem Piece.text_eq_pair {p : Piece} {high low : Hex.Digit} {tail : List Char}
    (written : p.text = high.sign :: low.sign :: tail) :
    ∃ descriptor n, tail = List.replicate n '*' ∧
      p.meaning = descriptor :: List.replicate n .wildcard := by
  obtain ⟨digits, signs⟩ := p
  cases digits with
  | none =>
    have sign : high.sign ≠ '*' := high.sign_ne rfl
    have first : high.sign ∈ List.replicate signs '*' := by
      change List.replicate signs '*' = _ at written
      simp [written]
    exact absurd (List.eq_of_mem_replicate first) sign
  | some pair =>
    change pair.1.sign :: pair.2.sign :: List.replicate signs '*' = _ at written
    have tails := (List.cons.inj (List.cons.inj written).2).2
    exact ⟨_, signs, tails.symm, rfl⟩

theorem readPieces_signed {good others : List (List Char)} {last tail : List Char}
    {high low : Hex.Digit} {pattern : Pattern}
    (read : readPieces (good ++ last :: (high.sign :: low.sign :: tail) :: others) = .ok pattern) :
    ∃ loose, readPieces (good ++ (last ++ '*' :: tail) :: others) = .ok loose ∧
      loose.Loosens pattern := by
  obtain ⟨ps, split, rfl⟩ := readPieces_eq_ok_iff.mp read
  obtain ⟨front, rest, rfl, rfl, behind⟩ := List.map_eq_append_iff.mp split
  obtain ⟨p, tokens, rfl, rfl, later⟩ := List.map_eq_cons_iff.mp behind
  obtain ⟨token, back, rfl, written, rfl⟩ := List.map_eq_cons_iff.mp later
  obtain ⟨descriptor, n, rfl, meaning⟩ := Piece.text_eq_pair written
  refine ⟨_, readPieces_eq_ok_iff.mpr ⟨front ++ p.signed (n + 1) :: back, ?_, rfl⟩, ?_⟩
  · rw [List.map_append, List.map_cons, Piece.text_signed, List.replicate_succ]
  · have behind := Pattern.Loosens.wildcard descriptor
      (List.replicate n .wildcard ++ back.flatMap Piece.meaning)
    have loosened := (Pattern.Loosens.refl (front.flatMap Piece.meaning ++ p.meaning)).append behind
    simpa [Piece.meaning_signed, meaning, List.replicate_succ] using loosened

theorem readPieces_token {before after : List Char} {high low : Hex.Digit} {pattern : Pattern}
    (read : readPieces (pieces (before ++ '\\' :: 'x' :: high.sign :: low.sign :: after)) =
      .ok pattern) :
    ∃ loose, readPieces (pieces (before ++ '*' :: after)) = .ok loose ∧ loose.Loosens pattern := by
  obtain ⟨good, last, behind⟩ := exists_last_piece before
  obtain ⟨tail, others, split⟩ := List.exists_cons_of_ne_nil (pieces_ne_nil after)
  have token : pieces (high.sign :: low.sign :: after) = (high.sign :: low.sign :: tail) :: others :=
    pieces_cons (high.sign_ne rfl) (pieces_cons (low.sign_ne rfl) split)
  have sign : pieces ('*' :: after) = ('*' :: tail) :: others := pieces_cons (by decide) split
  rw [behind _ (by simp), pieces, token] at read
  rw [behind _ (by simp), sign]
  apply readPieces_signed
  simpa using read

/-- In front of what is loosened stands text that is not, so one token at a time becomes a sign. -/
theorem Loosened.reads {text text' : List Char} (loosened : Loosened text text')
    (before : List Char) {pattern : Pattern}
    (read : readPieces (pieces (before ++ text)) = .ok pattern) :
    ∃ loose, readPieces (pieces (before ++ text')) = .ok loose ∧ loose.Loosens pattern := by
  induction loosened generalizing before pattern with
  | done => exact ⟨pattern, read, .refl pattern⟩
  | keep c after ih =>
    rw [List.append_cons] at read ⊢
    exact ih (before ++ [c]) read
  | sign high low after ih =>
    obtain ⟨loose, read, first⟩ := readPieces_token read
    rw [List.append_cons] at read ⊢
    obtain ⟨loosest, read, further⟩ := ih (before ++ ['*']) read
    exact ⟨loosest, read, further.trans first⟩

theorem Loosened.compiles {text text' : String} (loosened : Loosened text.toList text'.toList)
    {pattern : Pattern} (compiled : compile text = .ok pattern) :
    ∃ loose, compile text' = .ok loose ∧ loose.Loosens pattern := by
  obtain ⟨loose, read, loosens⟩ := loosened.reads [] (compile_eq_readPieces.mp compiled)
  exact ⟨loose, compile_eq_readPieces.mpr read, loosens⟩

end Signature

open Signature

/-- A pattern that is loosened is found wherever it was found before, so no later, and no less often.
    Writing tokens of a signature as wildcard signs loosens its pattern. -/
theorem loosened_signature_keeps_occurrences :
    (∀ loose tight : Pattern, loose.Loosens tight →
      (∀ bytes : Array UInt8, ∀ offset ∈ (Cursor.start bytes tight).rest,
        offset ∈ (Cursor.start bytes loose).rest) ∧
      ∀ (s : Scan) (name name' : String), (s.locate name tight).found = true →
        (s.locate name' loose).NoWorse (s.locate name tight)) ∧
    ∀ text text' : String, Loosened text.toList text'.toList →
      ∀ tight, compile text = .ok tight → ∃ loose, compile text' = .ok loose ∧ loose.Loosens tight := by
  constructor
  · intro loose tight loosens
    constructor
    · intro bytes offset found
      exact Cursor.mem_rest_start.mpr (loosens.occursAt (Cursor.mem_rest_start.mp found))
    · intro s name name' found
      exact Scan.locate_loosened loosens found name'
  · intro text text' loosened tight compiled
    exact loosened.compiles compiled

theorem sign_for_anchor_keeps_occurrence :
    let text := "\\x90\\xEC"
    let text' := "*\\xEC"
    let tight : Pattern := [.exact 0x90, .exact 0xEC]
    let loose : Pattern := [.wildcard, .exact 0xEC]
    let s : Scan := ⟨#[0xEC, 0xEC, 0x90, 0xEC], {}⟩
    Loosened text.toList text'.toList ∧ compile text = .ok tight ∧
      (∃ pattern, compile text' = .ok pattern ∧ pattern.Loosens tight) ∧
      loose.Loosens tight ∧ 2 ∈ (Cursor.start s.binary tight).rest ∧
      2 ∈ (Cursor.start s.binary loose).rest ∧ (s.locate "Think" tight).found = true ∧
      (s.locate "Think" loose).NoWorse (s.locate "Think" tight) ∧
      s.locate "Think" tight = .hit "Think" 2 1 ∧ s.locate "Think" loose = .hit "Think" 0 2 := by
  intro text text' tight loose s
  have first : text.toList = ['\\', 'x', '9', '0', '\\', 'x', 'E', 'C'] := by decide
  have second : text'.toList = ['*', '\\', 'x', 'E', 'C'] := by decide
  have loosened : Loosened text.toList text'.toList := by
    rw [first, second]
    exact .sign ⟨9, true⟩ ⟨0, true⟩ (.keep _ (.keep _ (.keep _ (.keep _ .done))))
  have compiled : compile text = .ok tight := by decide +kernel
  have loosens : loose.Loosens tight := .wildcard _ _
  have here : s.locate "Think" tight = .hit "Think" 2 1 := by decide +kernel
  have there : s.locate "Think" loose = .hit "Think" 0 2 := by decide +kernel
  have found : (s.locate "Think" tight).found = true := by rw [here]; rfl
  have occurs : 2 ∈ (Cursor.start s.binary tight).rest := by decide +kernel
  obtain ⟨kept, signs⟩ := loosened_signature_keeps_occurrences
  obtain ⟨offsets, findings⟩ := kept loose tight loosens
  exact ⟨loosened, compiled, signs text text' loosened tight compiled, loosens, occurs,
    offsets s.binary 2 occurs, found, findings s "Think" "Think" found, here, there⟩

end SigScan
