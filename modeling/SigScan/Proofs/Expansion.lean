import SigScan.Proofs.Grammar

namespace SigScan.Signature

def expandSign (c : Char) : List Char := if c = '*' then ['\\', 'x', '2', 'A'] else [c]

def expandSigns (text : List Char) : List Char := text.flatMap expandSign

def expanded (text : String) : String := String.ofList (expandSigns text.toList)

def expandToken : List Char → List Char
  | '*' :: glued => '2' :: 'A' :: glued
  | token => token

def Error.expanded (e : Error) : Error :=
  ⟨e.defect, Signature.expanded e.signature, String.ofList (expandToken e.token.toList)⟩

/-- Reads a signature the plain way: writes the wildcard signs as bytes, splits at the marks, drops
    empty pieces, and wants a byte in each other one. -/
def readExpanded (text : List Char) : Except (Defect × List Char) Pattern :=
  ((pieces (expandSigns text)).filter (· ≠ [])).mapM readByte

def compileExpanded (text : String) : Except Error Pattern :=
  match readExpanded text.toList with
  | .ok pattern => .ok pattern
  | .error (defect, token) => .error ⟨defect, expanded text, String.ofList token⟩

def expandPiece (piece : List Char) : List (List Char) :=
  match piece.splitOn '*' with
  | [] => []
  | digits :: glued => digits :: glued.map (['2', 'A'] ++ ·)

def marked (texts : List (List Char)) : List Char := texts.flatMap fun p => '\\' :: 'x' :: p

section Split

variable {text : List Char}

theorem join_marked {piece : List Char} {others : List (List Char)}
    (split : pieces text = piece :: others) : piece ++ marked others = text := join_pieces split

theorem splitOn_cons (c : Char) (text : List Char) :
    (c :: text).splitOn '*' =
      if c = '*' then [] :: text.splitOn '*' else (text.splitOn '*').modifyHead (c :: ·) := by
  simp [List.splitOn_eq_splitOnP, List.splitOnP_cons_eq_if_modifyHead]

theorem splitOn_of_plain (plain : '*' ∉ text) : text.splitOn '*' = [text] := by
  rw [List.splitOn_eq_splitOnP]
  apply List.splitOnP_eq_singleton
  intro c member
  exact beq_eq_false_iff_ne.mpr fun same => plain (same ▸ member)

theorem head_ne_star {digits : List Char} {glued : List (List Char)}
    (split : text.splitOn '*' = digits :: glued) : digits.head? ≠ some '*' := by
  cases text with
  | nil =>
    cases split
    simp
  | cons c text =>
    rw [splitOn_cons] at split
    split at split
    · cases split
      simp
    · rename_i other
      obtain ⟨first, others, rest⟩ := List.exists_cons_of_ne_nil (List.splitOn_ne_nil '*' text)
      rw [rest] at split
      cases split
      simpa using other

theorem pieces_cons_inside {c : Char} (inside : ¬ ['\\', 'x'] <+: c :: text) :
    pieces (c :: text) = (pieces text).modifyHead (c :: ·) := by
  rw [pieces]
  · cases split : pieces text with
    | nil => exact absurd split (pieces_ne_nil text)
    | cons piece others => rfl
  · intro rest slash x
    subst slash x
    exact inside ⟨rest, rfl⟩

theorem mem_of_mem_pieces {piece : List Char} (member : piece ∈ pieces text) : piece ⊆ text := by
  cases split : pieces text with
  | nil => exact absurd split (pieces_ne_nil text)
  | cons first others =>
    rw [split] at member
    rw [← join_pieces split]
    intro c inside
    rcases List.mem_cons.mp member with rfl | later
    · exact List.mem_append_left _ inside
    · apply List.mem_append_right
      exact List.mem_flatMap.mpr ⟨piece, later, by simp [inside]⟩

end Split

theorem expandPiece_cons (c : Char) (piece : List Char) :
    expandPiece (c :: piece) =
      if c = '*' then [] :: (expandPiece piece).modifyHead (['2', 'A'] ++ ·)
      else (expandPiece piece).modifyHead (c :: ·) := by
  obtain ⟨digits, glued, split⟩ := List.exists_cons_of_ne_nil (List.splitOn_ne_nil '*' piece)
  rw [expandPiece, expandPiece, splitOn_cons, split]
  by_cases star : c = '*' <;> simp [star]

theorem star_not_mem_expandSigns (text : List Char) : '*' ∉ expandSigns text := by
  intro member
  obtain ⟨c, -, inside⟩ := List.mem_flatMap.mp member
  unfold expandSign at inside
  split at inside
  · simp at inside
  · rename_i other
    exact other (List.mem_singleton.mp inside).symm

/-- No mark comes to be where a sign is written as a byte, except the one in front of it. -/
theorem mark_not_prefix_expandSigns {c : Char} {text : List Char}
    (inside : ¬ ['\\', 'x'] <+: c :: text) : ¬ ['\\', 'x'] <+: c :: expandSigns text := by
  intro mark
  obtain ⟨slash, x⟩ := List.cons_prefix_cons.mp mark
  cases text with
  | nil => simp [expandSigns] at x
  | cons d text =>
    rw [expandSigns, List.flatMap_cons, expandSign] at x
    split at x
    · simp at x
    · obtain ⟨same, -⟩ := List.cons_prefix_cons.mp x
      subst slash same
      exact inside ⟨text, rfl⟩

theorem pieces_expandSigns (text : List Char) :
    pieces (expandSigns text) = (pieces text).flatMap expandPiece := by
  fun_induction pieces text with
  | case1 => rfl
  | case2 text ih =>
    have marked : expandSigns ('\\' :: 'x' :: text) = '\\' :: 'x' :: expandSigns text := rfl
    rw [marked, pieces, ih]
    rfl
  | case3 c text _ empty => exact absurd empty (pieces_ne_nil text)
  | case4 c text inside piece others rest ih =>
    obtain ⟨digits, glued, split⟩ := List.exists_cons_of_ne_nil (List.splitOn_ne_nil '*' piece)
    have unmarked : ¬ ['\\', 'x'] <+: c :: text := by
      intro mark
      obtain ⟨after, same⟩ := mark
      cases same
      exact inside after rfl rfl
    rw [rest, List.flatMap_cons] at ih
    rw [List.flatMap_cons, expandPiece_cons]
    by_cases star : c = '*'
    · subst star
      have signed : expandSigns ('*' :: text) = '\\' :: 'x' :: '2' :: 'A' :: expandSigns text := rfl
      have byte : pieces ('2' :: 'A' :: expandSigns text) =
          (pieces (expandSigns text)).modifyHead (['2', 'A'] ++ ·) := by
        rw [pieces_cons_inside (by simp), pieces_cons_inside (by simp), List.modifyHead_modifyHead]
        rfl
      rw [signed, pieces, byte, ih]
      simp [expandPiece, split]
    · have kept : expandSigns (c :: text) = c :: expandSigns text := by
        simp [expandSigns, expandSign, star]
      rw [kept, pieces_cons_inside (mark_not_prefix_expandSigns unmarked), ih]
      simp [expandPiece, split, star]

theorem mapError_bind {ε ε' α β : Type} (f : ε → ε') (action : Except ε α) (next : α → Except ε β) :
    (action >>= next).mapError f = action.mapError f >>= fun value => (next value).mapError f := by
  cases action <;> rfl

def expandFault (fault : Defect × List Char) : Defect × List Char := (fault.1, expandToken fault.2)

theorem readByte_expandFault {token : List Char} (plain : token.head? ≠ some '*') :
    (readByte token).mapError expandFault = readByte token := by
  have kept : expandToken token = token := by
    unfold expandToken
    split
    · simp at plain
    · rfl
  have unchanged (defect : Defect) : expandFault (defect, token) = (defect, token) := by
    rw [expandFault, kept]
  unfold readByte
  split
  · split
    · rfl
    · exact congrArg Except.error (unchanged _)
  · exact congrArg Except.error (unchanged _)

theorem readWildcards_expanded (glued : List (List Char)) :
    (glued.map (['2', 'A'] ++ ·)).mapM readByte = (readWildcards glued).mapError expandFault := by
  induction glued with
  | nil => rfl
  | cons tail glued ih =>
    cases tail with
    | nil =>
      have star : readByte ['2', 'A'] = .ok .wildcard := rfl
      have step : readWildcards ([] :: glued) =
          readWildcards glued >>= fun rest => .ok (.wildcard :: rest) := rfl
      rw [List.map_cons, List.mapM_cons, List.append_nil, star, ih, step, mapError_bind]
      rfl
    | cons c tail => rfl

theorem readPiece_expanded (piece : List Char) :
    ((expandPiece piece).filter (· ≠ [])).mapM readByte =
      (readPiece piece).mapError expandFault := by
  obtain ⟨digits, glued, split⟩ := List.exists_cons_of_ne_nil (List.splitOn_ne_nil '*' piece)
  have filled : (glued.map (['2', 'A'] ++ ·)).filter (· ≠ []) = glued.map (['2', 'A'] ++ ·) := by
    simp [List.filter_eq_self]
  have read := readWildcards_expanded glued
  cases digits with
  | nil =>
    have step : readPiece piece = readWildcards glued := by
      rw [readPiece, split]
    have first : expandPiece piece = [] :: glued.map (['2', 'A'] ++ ·) := by
      rw [expandPiece, split]
    rw [step, first, List.filter_cons_of_neg (by simp), filled, read]
  | cons c digits =>
    have plain := readByte_expandFault (head_ne_star split)
    have step : readPiece piece = readByte (c :: digits) >>= fun first =>
        readWildcards glued >>= fun rest => .ok (first :: rest) := by
      rw [readPiece, split]
      rfl
    have first : expandPiece piece = (c :: digits) :: glued.map (['2', 'A'] ++ ·) := by
      rw [expandPiece, split]
    rw [step, mapError_bind, plain, first, List.filter_cons_of_pos (by simp), filled, List.mapM_cons,
      read]
    simp only [mapError_bind]
    rfl

theorem readPieces_expanded (texts : List (List Char)) :
    ((texts.flatMap expandPiece).filter (· ≠ [])).mapM readByte =
      (readPieces texts).mapError expandFault := by
  induction texts with
  | nil => rfl
  | cons piece texts ih =>
    have step : readPieces (piece :: texts) = readPiece piece >>= fun first =>
        readPieces texts >>= fun others => .ok (first ++ others) := rfl
    rw [List.flatMap_cons, List.filter_append, List.mapM_append, readPiece_expanded, ih, step]
    simp only [mapError_bind]
    rfl

theorem readExpanded_eq (text : List Char) :
    readExpanded text = (readPieces (pieces text)).mapError expandFault := by
  rw [readExpanded, pieces_expandSigns, readPieces_expanded]

theorem readPiece_plain {piece : List Char} (plain : '*' ∉ piece) :
    readPiece piece = ([piece].filter (· ≠ [])).mapM readByte := by
  rw [readPiece, splitOn_of_plain plain]
  cases piece with
  | nil => rfl
  | cons c piece =>
    rw [List.filter_cons_of_pos (by simp), List.mapM_cons]
    rfl

theorem readPieces_plain {texts : List (List Char)} (plain : ∀ piece ∈ texts, '*' ∉ piece) :
    readPieces texts = (texts.filter (· ≠ [])).mapM readByte := by
  induction texts with
  | nil => rfl
  | cons piece texts ih =>
    obtain ⟨here, others⟩ := List.forall_mem_cons.mp plain
    have apart : piece :: texts = [piece] ++ texts := rfl
    rw [readPieces, readPiece_plain here, ih others, apart, List.filter_append, List.mapM_append]

/-- A wildcard sign may always be written as the byte with its code. The text then reads as the
    same pattern, or fails with the same defect at the same token, as that token is written then;
    and so it does when it is read the plain way. -/
theorem wildcard_sign_reads_as_its_byte (text : String) :
    compile (expanded text) = (compile text).mapError Error.expanded ∧
      compile (expanded text) = compileExpanded text := by
  have plain : ∀ piece ∈ pieces (expandSigns text.toList), '*' ∉ piece :=
    fun piece member star => star_not_mem_expandSigns _ (mem_of_mem_pieces member star)
  have whole : readPieces (pieces (expanded text).toList) = readExpanded text.toList := by
    rw [expanded, String.toList_ofList, readPieces_plain plain, readExpanded]
  have same : compile (expanded text) = compileExpanded text := by
    cases read : readExpanded text.toList <;> simp only [compile, compileExpanded, whole, read]
  refine ⟨?_, same⟩
  rw [same, compileExpanded, readExpanded_eq, compile]
  cases readPieces (pieces text.toList) with
  | ok pattern => rfl
  | error fault =>
    change Except.error _ = Except.error (Error.expanded ⟨fault.1, text, String.ofList fault.2⟩)
    rw [Error.expanded, String.toList_ofList]

example : compile "*x" = .error ⟨.malformed, "*x", "*x"⟩ ∧
    compile (expanded "*x") = .error ⟨.malformed, "\\x2Ax", "2Ax"⟩ := by
  constructor <;> rfl

end SigScan.Signature
