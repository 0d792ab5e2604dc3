import Mathlib.Data.List.Forall2
import SigScan.Proofs.Expansion

namespace SigScan.Signature

def startsWithDigits (piece : List Char) : Bool := piece.head?.any (· ≠ '*')

/-- How many marks have no digits directly behind them. -/
def idleMarks (text : String) : Nat :=
  ((pieces text.toList).drop 1).countP fun piece => !startsWithDigits piece

/-- How many pairs of digits have no mark in front of them: one at most, at the start. -/
def barePairs (text : String) : Nat := ((pieces text.toList).take 1).countP startsWithDigits

def IsTokenOf (token : List Char) (descriptor : Descriptor) : Prop :=
  ∃ high low : Hex.Digit, ['\\', 'x', high.sign, low.sign] = token ∧
    Piece.pairMeaning high low = descriptor

theorem expandSigns_append (left right : List Char) :
    expandSigns (left ++ right) = expandSigns left ++ expandSigns right :=
  List.flatMap_append

theorem expandSigns_of_plain {text : List Char} (plain : '*' ∉ text) : expandSigns text = text := by
  induction text with
  | nil => rfl
  | cons c text ih =>
    simp only [List.mem_cons, not_or] at plain
    have kept : expandSign c = [c] := if_neg (Ne.symm plain.1)
    rw [expandSigns, List.flatMap_cons, kept]
    exact congrArg (c :: ·) (ih plain.2)

theorem expandSigns_replicate (n : Nat) :
    expandSigns (List.replicate n '*') = (List.replicate n ['\\', 'x', '2', 'A']).flatten := by
  induction n with
  | zero => rfl
  | succ n ih =>
    rw [List.replicate_succ, List.replicate_succ, List.flatten_cons, ← ih]
    rfl

namespace Piece

theorem expandSigns_text (p : Piece) :
    expandSigns p.text = p.head ++ (List.replicate p.signs ['\\', 'x', '2', 'A']).flatten := by
  rw [text, expandSigns_append, expandSigns_of_plain (p.not_mem_head rfl), expandSigns_replicate]

theorem startsWithDigits_text (p : Piece) : startsWithDigits p.text = p.digits.isSome := by
  obtain ⟨digits, signs⟩ := p
  cases digits with
  | none => cases signs <;> simp [startsWithDigits, text, head, List.replicate_succ]
  | some pair =>
    have sign : pair.1.sign ≠ '*' := pair.1.sign_ne rfl
    simp [startsWithDigits, text, head, sign]

theorem length_expandSigns (p : Piece) :
    4 * p.meaning.length = (expandSigns p.text).length + 2 * p.digits.isSome.toNat := by
  rw [expandSigns_text]
  obtain ⟨digits, signs⟩ := p
  cases digits with
  | none => simp [meaning, head, Nat.mul_comm]
  | some pair =>
    simp [meaning, head]
    omega

theorem tokens_of_signs (n : Nat) :
    List.Forall₂ IsTokenOf (List.replicate n ['\\', 'x', '2', 'A'])
      (List.replicate n Descriptor.wildcard) := by
  induction n with
  | zero => exact .nil
  | succ n ih => exact .cons ⟨⟨2, true⟩, ⟨10, true⟩, rfl, rfl⟩ ih

theorem exists_tokens {p : Piece} (filled : p.digits.isSome) :
    ∃ tokens, tokens.flatten = '\\' :: 'x' :: expandSigns p.text ∧
      List.Forall₂ IsTokenOf tokens p.meaning := by
  obtain ⟨pair, digits⟩ := Option.isSome_iff_exists.mp filled
  refine ⟨['\\', 'x', pair.1.sign, pair.2.sign] :: List.replicate p.signs ['\\', 'x', '2', 'A'], ?_, ?_⟩
  · simp [expandSigns_text, head, digits]
  · simp only [meaning, digits]
    exact .cons ⟨pair.1, pair.2, rfl, rfl⟩ (tokens_of_signs p.signs)

end Piece

theorem expandSigns_marked_cons (text : List Char) (texts : List (List Char)) :
    expandSigns (marked (text :: texts)) =
      '\\' :: 'x' :: expandSigns text ++ expandSigns (marked texts) := by
  rw [marked, List.flatMap_cons, expandSigns_append]
  rfl

theorem length_expandSigns_marked (ps : List Piece) :
    4 * (ps.flatMap Piece.meaning).length + 2 * ps.countP (!·.digits.isSome) =
      (expandSigns (marked (ps.map Piece.text))).length := by
  induction ps with
  | nil => rfl
  | cons p ps ih =>
    have here := p.length_expandSigns
    rw [List.flatMap_cons, List.length_append, List.countP_cons, List.map_cons, expandSigns_marked_cons,
      List.length_append, List.length_cons, List.length_cons]
    cases filled : p.digits.isSome with
    | false =>
      simp only [filled, Bool.toNat_false, Bool.not_false, if_true] at here ⊢
      omega
    | true =>
      simp only [filled, Bool.toNat_true, Bool.not_true, Bool.false_eq_true, if_false] at here ⊢
      omega

theorem exists_tokens_marked {ps : List Piece} (filled : ∀ p ∈ ps, p.digits.isSome) :
    ∃ tokens, tokens.flatten = expandSigns (marked (ps.map Piece.text)) ∧
      List.Forall₂ IsTokenOf tokens (ps.flatMap Piece.meaning) := by
  induction ps with
  | nil => exact ⟨[], rfl, .nil⟩
  | cons p ps ih =>
    obtain ⟨here, later⟩ := List.forall_mem_cons.mp filled
    obtain ⟨front, front_text, front_means⟩ := Piece.exists_tokens here
    obtain ⟨tokens, text, means⟩ := ih later
    refine ⟨front ++ tokens, ?_, List.rel_append front_means means⟩
    rw [List.flatten_append, front_text, text, List.map_cons, expandSigns_marked_cons]

structure Composed (text : String) (pattern : Pattern) (first : Piece) (others : List Piece) : Prop where
  pieces : pieces text.toList = first.text :: others.map Piece.text
  meaning : first.meaning ++ others.flatMap Piece.meaning = pattern

theorem exists_composed {text : String} {pattern : Pattern} (compiled : compile text = .ok pattern) :
    ∃ first others, Composed text pattern first others := by
  obtain ⟨ps, split, meant⟩ := readPieces_eq_ok_iff.mp (compile_eq_readPieces.mp compiled)
  cases ps with
  | nil => exact absurd split.symm (pieces_ne_nil _)
  | cons first others => exact ⟨first, others, split.symm, meant⟩

namespace Composed

variable {text : String} {pattern : Pattern} {first : Piece} {others : List Piece}

theorem expanded_eq (composed : Composed text pattern first others) :
    (expanded text).toList =
      expandSigns first.text ++ expandSigns (marked (others.map Piece.text)) := by
  rw [expanded, String.toList_ofList, ← join_marked composed.pieces, expandSigns_append]

theorem idleMarks_eq (composed : Composed text pattern first others) :
    idleMarks text = others.countP (!·.digits.isSome) := by
  rw [idleMarks, composed.pieces, List.drop_one, List.tail_cons, List.countP_map]
  exact List.countP_congr fun p _ => by simp [Piece.startsWithDigits_text]

theorem barePairs_eq (composed : Composed text pattern first others) :
    barePairs text = first.digits.isSome.toNat := by
  rw [barePairs, composed.pieces]
  cases filled : first.digits.isSome <;> simp [Piece.startsWithDigits_text, filled]

end Composed

theorem barePairs_le_one (text : String) : barePairs text ≤ 1 :=
  Nat.le_trans List.countP_le_length (List.length_take_le 1 _)

theorem length_expanded {text : String} {pattern : Pattern} (compiled : compile text = .ok pattern) :
    4 * pattern.length + 2 * idleMarks text = (expanded text).length + 2 * barePairs text := by
  obtain ⟨first, others, composed⟩ := exists_composed compiled
  have here := first.length_expandSigns
  have later := length_expandSigns_marked others
  rw [← String.length_toList, composed.expanded_eq, composed.idleMarks_eq, composed.barePairs_eq,
    ← composed.meaning, List.length_append, List.length_append]
  omega

theorem tokens_of_expanded {text : String} {pattern : Pattern} (compiled : compile text = .ok pattern)
    (busy : idleMarks text = 0) (covered : barePairs text = 0) :
    ∃ tokens, tokens.flatten = (expanded text).toList ∧ List.Forall₂ IsTokenOf tokens pattern := by
  obtain ⟨first, others, composed⟩ := exists_composed compiled
  rw [composed.idleMarks_eq, List.countP_eq_zero] at busy
  rw [composed.barePairs_eq, Bool.toNat_eq_zero, Option.isSome_eq_false_iff] at covered
  have unpaired : first.digits = none := Option.isNone_iff_eq_none.mp covered
  have filled : ∀ p ∈ others, p.digits.isSome := by
    intro p member
    have busy := busy p member
    rwa [Bool.not_eq_true', Bool.not_eq_false] at busy
  obtain ⟨tokens, marked_text, means⟩ := exists_tokens_marked filled
  refine ⟨List.replicate first.signs ['\\', 'x', '2', 'A'] ++ tokens, ?_, ?_⟩
  · rw [List.flatten_append, marked_text, composed.expanded_eq, Piece.expandSigns_text]
    simp only [Piece.head, unpaired, List.nil_append]
  · have signs : first.meaning = List.replicate first.signs .wildcard := by
      simp only [Piece.meaning, unpaired]
    rw [← composed.meaning, signs]
    exact List.rel_append (Piece.tokens_of_signs first.signs) means

/-- A signature that is written with its signs as bytes has four characters for each descriptor,
    two more for each mark that is idle, and two less if a pair is bare. So the descriptors are
    as many as a fourth of the characters unless idle marks and bare pairs are out of step, and
    each of them has a token of four characters if there are none of either. -/
theorem length_is_fourth_of_expanded (text : String) (pattern : Pattern)
    (compiled : compile text = .ok pattern) :
    4 * pattern.length + 2 * idleMarks text = (expanded text).length + 2 * barePairs text ∧
    barePairs text ≤ 1 ∧
    (pattern.length = (expanded text).length / 4 ↔
      idleMarks text = barePairs text ∨ idleMarks text = barePairs text + 1) ∧
    (idleMarks text = 0 → barePairs text = 0 →
      ∃ tokens, tokens.flatten = (expanded text).toList ∧ List.Forall₂ IsTokenOf tokens pattern) := by
  have count := length_expanded compiled
  have bare := barePairs_le_one text
  exact ⟨count, bare, by omega, tokens_of_expanded compiled⟩

theorem length_of_signs_and_pair :
    let text := "**\\xec"
    let pattern : Pattern := [.wildcard, .wildcard, .exact 0xEC]
    compile text = .ok pattern ∧ idleMarks text = 0 ∧ barePairs text = 0 ∧
      pattern.length = (expanded text).length / 4 ∧
      ∃ tokens, tokens.flatten = (expanded text).toList ∧ List.Forall₂ IsTokenOf tokens pattern := by
  intro text pattern
  have compiled : compile text = .ok pattern := by decide +kernel
  have busy : idleMarks text = 0 := by decide +kernel
  have covered : barePairs text = 0 := by decide +kernel
  obtain ⟨-, -, fourth, tokens⟩ := length_is_fourth_of_expanded text pattern compiled
  exact ⟨compiled, busy, covered, fourth.mpr (.inl (busy.trans covered.symm)), tokens busy covered⟩

/-- A pair without a mark makes a descriptor out of half a token. -/
theorem bare_pair_is_half_a_token :
    compile "55" = .ok [.exact 0x55] ∧ (expanded "55").length / 4 = 0 ∧
      [Descriptor.exact 0x55].length ≠ (expanded "55").length / 4 := by
  decide

end SigScan.Signature
