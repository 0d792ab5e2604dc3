import SigScan.Proofs.Hex
import SigScan.Signature

namespace SigScan

theorem bind_eq_ok_iff {ε α β : Type} {action : Except ε α} {next : α → Except ε β} {result : β} :
    action >>= next = .ok result ↔ ∃ value, action = .ok value ∧ next value = .ok result := by
  cases action <;> simp [bind, Except.bind]

namespace Signature

/-- A piece by the grammar: at most one pair of digits, then wildcard signs. -/
structure Piece where
  digits : Option (Hex.Digit × Hex.Digit)
  signs : Nat
deriving DecidableEq, Repr

namespace Piece

def head (p : Piece) : List Char :=
  match p.digits with
  | some (high, low) => [high.sign, low.sign]
  | none => []

def text (p : Piece) : List Char := p.head ++ List.replicate p.signs '*'

def pairMeaning (high low : Hex.Digit) : Descriptor :=
  let value := 16 * high.value.val + low.value.val
  if value = 0x2A then .wildcard else .exact (UInt8.ofNat value)

def meaning (p : Piece) : Pattern :=
  match p.digits with
  | some (high, low) => pairMeaning high low :: List.replicate p.signs .wildcard
  | none => List.replicate p.signs .wildcard

theorem not_mem_head {c : Char} (plain : Hex.digit? c = none) (p : Piece) : c ∉ p.head := by
  obtain ⟨digits, signs⟩ := p
  cases digits with
  | none => simp [head]
  | some pair =>
    have high := pair.1.sign_ne plain
    have low := pair.2.sign_ne plain
    simp [head, high.symm, low.symm]

theorem backslash_not_mem_text (p : Piece) : '\\' ∉ p.text := by
  intro member
  rcases List.mem_append.mp member with inside | inside
  · exact p.not_mem_head rfl inside
  · cases (List.mem_replicate.mp inside).2

end Piece

structure Writing where
  first : Piece
  others : List Piece
deriving DecidableEq, Repr

def Writing.text (w : Writing) : List Char :=
  w.first.text ++ w.others.flatMap fun p => '\\' :: 'x' :: p.text

def Writing.meaning (w : Writing) : Pattern := w.first.meaning ++ w.others.flatMap Piece.meaning

theorem pieces_ne_nil (text : List Char) : pieces text ≠ [] := by
  fun_induction pieces text <;> simp_all

theorem pieces_cons {c : Char} {text : List Char} (plain : c ≠ '\\') {piece : List Char}
    {others : List (List Char)} (split : pieces text = piece :: others) :
    pieces (c :: text) = (c :: piece) :: others := by
  rw [pieces]
  · simp [split]
  · intro rest same
    exact absurd same plain

theorem pieces_append_mark {piece : List Char} (plain : '\\' ∉ piece) (text : List Char) :
    pieces (piece ++ '\\' :: 'x' :: text) = piece :: pieces text := by
  induction piece with
  | nil => rfl
  | cons c piece ih =>
    simp only [List.mem_cons, not_or] at plain
    exact pieces_cons (Ne.symm plain.1) (ih plain.2)

theorem pieces_of_plain {piece : List Char} (plain : '\\' ∉ piece) : pieces piece = [piece] := by
  induction piece with
  | nil => rfl
  | cons c piece ih =>
    simp only [List.mem_cons, not_or] at plain
    exact pieces_cons (Ne.symm plain.1) (ih plain.2)

theorem join_pieces {text piece : List Char} {others : List (List Char)}
    (split : pieces text = piece :: others) :
    piece ++ others.flatMap (fun p => '\\' :: 'x' :: p) = text := by
  fun_induction pieces text generalizing piece others with
  | case1 =>
    cases split
    rfl
  | case2 text ih =>
    cases split
    cases rest : pieces text with
    | nil => exact absurd rest (pieces_ne_nil text)
    | cons next later =>
      have joined := ih rest
      simp [joined]
  | case3 c text _ empty => exact absurd empty (pieces_ne_nil text)
  | case4 c text _ next later rest ih =>
    cases split
    rw [List.cons_append, ih rest]

theorem pieces_text (w : Writing) : pieces w.text = (w.first :: w.others).map Piece.text := by
  obtain ⟨first, others⟩ := w
  simp only [Writing.text]
  induction others generalizing first with
  | nil => simpa using pieces_of_plain first.backslash_not_mem_text
  | cons second others ih =>
    rw [List.flatMap_cons, List.cons_append, List.cons_append,
      pieces_append_mark first.backslash_not_mem_text, ih second]
    rfl

theorem pair_is_star_iff (high low : Hex.Digit) :
    UInt8.ofNat (16 * high.value.val + low.value.val) = wildcardByte ↔
      16 * high.value.val + low.value.val = 0x2A := by
  have first := high.value.isLt
  have second := low.value.isLt
  rw [← UInt8.toNat_inj, UInt8.toNat_ofNat']
  change _ % 2 ^ 8 = 42 ↔ _
  omega

theorem readByte_eq_ok_iff {token : List Char} {descriptor : Descriptor} :
    readByte token = .ok descriptor ↔
      ∃ high low : Hex.Digit, [high.sign, low.sign] = token ∧
        Piece.pairMeaning high low = descriptor := by
  constructor
  · intro read
    unfold readByte at read
    split at read
    · split at read
      · rename_i value written
        obtain ⟨high, low, rfl, rfl, rfl⟩ := Hex.byte?_eq_some_iff.mp written
        cases read
        exact ⟨high, low, rfl, by simp only [Piece.pairMeaning, pair_is_star_iff]⟩
      · cases read
    · cases read
  · intro written
    obtain ⟨high, low, signs, meant⟩ := written
    subst signs meant
    have written := Hex.byte?_eq_some_iff.mpr ⟨high, low, rfl, rfl, rfl⟩
    simp only [readByte, written, Piece.pairMeaning, pair_is_star_iff]

theorem readWildcards_eq_ok_iff {glued : List (List Char)} {pattern : Pattern} :
    readWildcards glued = .ok pattern ↔
      ∃ n, List.replicate n [] = glued ∧ List.replicate n .wildcard = pattern := by
  induction glued generalizing pattern with
  | nil =>
    simp only [readWildcards, List.replicate_eq_nil_iff, exists_eq_left, List.replicate_zero,
      Except.ok.injEq]
  | cons tail glued ih =>
    cases tail with
    | cons c tail =>
      apply iff_of_false
      · intro read
        cases read
      · intro written
        obtain ⟨n, same, -⟩ := written
        cases n <;> cases same
    | nil =>
      have step : readWildcards ([] :: glued) = .ok pattern ↔
          ∃ rest, readWildcards glued = .ok rest ∧ .wildcard :: rest = pattern := by
        simp only [readWildcards, bind_eq_ok_iff, pure, Except.pure, Except.ok.injEq]
      rw [step]
      constructor
      · intro written
        obtain ⟨rest, read, whole⟩ := written
        obtain ⟨n, rfl, rfl⟩ := ih.mp read
        exact ⟨n + 1, rfl, whole⟩
      · intro written
        obtain ⟨n, same, whole⟩ := written
        cases n with
        | zero => cases same
        | succ n => exact ⟨_, ih.mpr ⟨n, (List.cons.inj same).2, rfl⟩, whole⟩

theorem intercalate_stars (head : List Char) (n : Nat) :
    ['*'].intercalate (head :: List.replicate n []) = head ++ List.replicate n '*' := by
  induction n generalizing head with
  | zero => simp
  | succ n ih =>
    rw [List.replicate_succ, List.intercalate_cons_cons, ih]
    simp [List.replicate_succ]

theorem splitOn_text (p : Piece) : p.text.splitOn '*' = p.head :: List.replicate p.signs [] := by
  rw [Piece.text, ← intercalate_stars]
  apply List.splitOn_intercalate
  · intro part member
    rcases List.mem_cons.mp member with rfl | member
    · exact p.not_mem_head rfl
    · simp [List.eq_of_mem_replicate member]
  · simp

theorem text_of_splitOn {piece head : List Char} {n : Nat}
    (split : piece.splitOn '*' = head :: List.replicate n []) :
    piece = head ++ List.replicate n '*' := by
  rw [← intercalate_stars, ← split, List.intercalate_splitOn]

theorem readPiece_eq_ok_iff {piece : List Char} {pattern : Pattern} :
    readPiece piece = .ok pattern ↔ ∃ p : Piece, p.text = piece ∧ p.meaning = pattern := by
  constructor
  · intro read
    unfold readPiece at read
    split at read
    · rename_i split
      exact absurd split (List.splitOn_ne_nil _ _)
    · rename_i glued split
      obtain ⟨n, rfl, rfl⟩ := readWildcards_eq_ok_iff.mp read
      exact ⟨⟨none, n⟩, (text_of_splitOn split).symm, rfl⟩
    · rename_i digits glued filled split
      simp only [bind_eq_ok_iff, pure, Except.pure, Except.ok.injEq] at read
      obtain ⟨descriptor, byte, rest, wildcards, whole⟩ := read
      obtain ⟨high, low, rfl, rfl⟩ := readByte_eq_ok_iff.mp byte
      obtain ⟨n, rfl, rfl⟩ := readWildcards_eq_ok_iff.mp wildcards
      exact ⟨⟨some (high, low), n⟩, (text_of_splitOn split).symm, whole⟩
  · intro written
    obtain ⟨p, written, meant⟩ := written
    subst written meant
    have wildcards := readWildcards_eq_ok_iff.mpr ⟨p.signs, rfl, rfl⟩
    rw [readPiece, splitOn_text]
    obtain ⟨digits, signs⟩ := p
    cases digits with
    | none => exact wildcards
    | some pair =>
      have byte := readByte_eq_ok_iff.mpr ⟨pair.1, pair.2, rfl, rfl⟩
      simp only [Piece.head, bind_eq_ok_iff]
      exact ⟨_, byte, _, wildcards, rfl⟩

theorem readPieces_eq_ok_iff {texts : List (List Char)} {pattern : Pattern} :
    readPieces texts = .ok pattern ↔
      ∃ ps : List Piece, ps.map Piece.text = texts ∧ ps.flatMap Piece.meaning = pattern := by
  induction texts generalizing pattern with
  | nil =>
    simp only [readPieces, List.map_eq_nil_iff, exists_eq_left, List.flatMap_nil, Except.ok.injEq]
  | cons piece texts ih =>
    have step : readPieces (piece :: texts) = .ok pattern ↔
        ∃ first, readPiece piece = .ok first ∧
          ∃ others, readPieces texts = .ok others ∧ first ++ others = pattern := by
      simp only [readPieces, bind_eq_ok_iff, pure, Except.pure, Except.ok.injEq]
    rw [step]
    constructor
    · intro written
      obtain ⟨first, here, others, there, whole⟩ := written
      obtain ⟨p, rfl, rfl⟩ := readPiece_eq_ok_iff.mp here
      obtain ⟨ps, rfl, rfl⟩ := ih.mp there
      exact ⟨p :: ps, rfl, whole⟩
    · intro written
      obtain ⟨ps, same, whole⟩ := written
      cases ps with
      | nil => cases same
      | cons p ps =>
        obtain ⟨here, there⟩ := List.cons.inj same
        exact ⟨_, readPiece_eq_ok_iff.mpr ⟨p, here, rfl⟩, _, ih.mpr ⟨ps, there, rfl⟩, whole⟩

theorem compile_eq_readPieces {text : String} {pattern : Pattern} :
    compile text = .ok pattern ↔ readPieces (pieces text.toList) = .ok pattern := by
  unfold compile
  split
  · rename_i read
    rw [read, Except.ok.injEq, Except.ok.injEq]
  · rename_i read
    simp [read]

theorem compile_error_signature {raw : String} {error : Error}
    (failed : compile raw = .error error) : error.signature = raw := by
  unfold compile at failed
  split at failed
  · cases failed
  · cases failed
    rfl

/-- A text is a signature exactly if the grammar writes it, and then the pattern is what the pieces
    mean in their order. -/
theorem compile_eq_ok_iff (text : String) (pattern : Pattern) :
    Signature.compile text = .ok pattern ↔
      ∃ w : Writing, w.text = text.toList ∧ w.meaning = pattern := by
  rw [compile_eq_readPieces, readPieces_eq_ok_iff]
  constructor
  · intro written
    obtain ⟨ps, split, meant⟩ := written
    cases ps with
    | nil => exact absurd split.symm (pieces_ne_nil _)
    | cons first others =>
      refine ⟨⟨first, others⟩, ?_, meant⟩
      rw [← join_pieces split.symm]
      simp [Writing.text, List.flatMap_map]
  · intro written
    obtain ⟨w, same, meant⟩ := written
    refine ⟨w.first :: w.others, ?_, meant⟩
    rw [← same, pieces_text]

example : compile "55\\x" = .ok [.exact 0x55] := by rfl

example : compile "*55" = .error ⟨.malformed, "*55", "*55"⟩ := by rfl

end Signature

end SigScan
