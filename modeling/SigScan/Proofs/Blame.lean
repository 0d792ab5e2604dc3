import Mathlib.Data.List.Infix
import SigScan.Proofs.Expansion

namespace SigScan

theorem bind_eq_error_iff {ε α β : Type} {action : Except ε α} {next : α → Except ε β} {error : ε} :
    action >>= next = .error error ↔
      action = .error error ∨ ∃ value, action = .ok value ∧ next value = .error error := by
  cases action <;> simp [bind, Except.bind]

theorem bind_ok_eq_error_iff {ε α β : Type} {action : Except ε α} {f : α → β} {error : ε} :
    (action >>= fun value => .ok (f value)) = .error error ↔ action = .error error := by
  cases action <;> simp [bind, Except.bind]

namespace Signature

inductive EndsToken : List Char → Prop
  | nothing : EndsToken []
  | sign (text : List Char) : EndsToken ('*' :: text)
  | mark (text : List Char) : EndsToken ('\\' :: 'x' :: text)

structure IsBad (defect : Defect) (token : List Char) : Prop where
  filled : token ≠ []
  kind : defect = if token.head? ≠ some '*' ∧ token.length = 2 then .notHex else .malformed
  digits : defect = .notHex → ∃ c ∈ token, ∀ d : Hex.Digit, d.sign ≠ c

/-- A reader passes over `before` and fails at the token behind it, whatever comes after that. -/
structure FailsBehind (read : List Char → Except (Defect × List Char) Pattern)
    (ends : List Char → Prop) (before : List Char) (fault : Defect × List Char) : Prop where
  clean : ∃ pattern, read before = .ok pattern
  fails : ∀ after, ends after → read (before ++ fault.2 ++ after) = .error fault
  bad : IsBad fault.1 fault.2

section Piece

def glue (tails : List (List Char)) : List Char := tails.flatMap ('*' :: ·)

def IsGlued (text : List Char) : Prop := ∃ tails, (∀ tail ∈ tails, '*' ∉ tail) ∧ text = glue tails

theorem intercalate_glue (head : List Char) (tails : List (List Char)) :
    ['*'].intercalate (head :: tails) = head ++ glue tails := by
  induction tails generalizing head with
  | nil => simp [glue]
  | cons tail tails ih =>
    rw [List.intercalate_cons_cons, ih tail]
    simp [glue]

theorem exists_glue (piece : List Char) :
    ∃ head tails, piece = head ++ glue tails ∧ '*' ∉ head ∧ ∀ tail ∈ tails, '*' ∉ tail := by
  induction piece with
  | nil => exact ⟨[], [], rfl, by simp, by simp⟩
  | cons c piece ih =>
    obtain ⟨head, tails, rfl, plain, apart⟩ := ih
    by_cases star : c = '*'
    · subst star
      exact ⟨[], head :: tails, rfl, by simp, List.forall_mem_cons.mpr ⟨plain, apart⟩⟩
    · exact ⟨c :: head, tails, rfl, by simp [Ne.symm star, plain], apart⟩

theorem isGlued_of_head {text : List Char} (starred : ∀ c ∈ text.head?, c = '*') : IsGlued text := by
  obtain ⟨head, tails, rfl, plain, apart⟩ := exists_glue text
  cases head with
  | nil => exact ⟨tails, apart, rfl⟩
  | cons c head =>
    have same := starred c rfl
    simp [same] at plain

theorem readPiece_glue {head : List Char} {tails : List (List Char)} (plain : '*' ∉ head)
    (apart : ∀ tail ∈ tails, '*' ∉ tail) :
    readPiece (head ++ glue tails) =
      if head = [] then readWildcards tails
      else readByte head >>= fun first => readWildcards tails >>= fun rest => .ok (first :: rest) := by
  have split : (head ++ glue tails).splitOn '*' = head :: tails := by
    rw [← intercalate_glue]
    apply List.splitOn_intercalate
    · exact List.forall_mem_cons.mpr ⟨plain, apart⟩
    · simp
  rw [readPiece, split]
  cases head <;> rfl

theorem readByte_eq_error {token : List Char} {fault : Defect × List Char} (filled : token ≠ [])
    (plain : '*' ∉ token) (failed : readByte token = .error fault) :
    fault.2 = token ∧ IsBad fault.1 token := by
  have unsigned : token.head? ≠ some '*' := fun same => plain (List.mem_of_head? same)
  unfold readByte at failed
  split at failed
  · rename_i high low
    split at failed
    · cases failed
    · rename_i unread
      cases failed
      refine ⟨rfl, filled, ?_, fun _ => ?_⟩
      · rw [if_pos ⟨unsigned, rfl⟩]
      · by_contra written
        push Not at written
        obtain ⟨h, high_sign⟩ := written high (by simp)
        obtain ⟨l, low_sign⟩ := written low (by simp)
        rw [Hex.byte?_eq_some_iff.mpr ⟨h, l, high_sign, low_sign, rfl⟩] at unread
        cases unread
  · rename_i other
    cases failed
    refine ⟨rfl, filled, ?_, fun same => by cases same⟩
    rw [if_neg]
    intro pair
    obtain ⟨high, low, rfl⟩ := List.length_eq_two.mp pair.2
    exact other high low rfl

theorem readWildcards_eq_error {tails : List (List Char)} {fault : Defect × List Char}
    (failed : readWildcards tails = .error fault) :
    ∃ n tail later, tails = List.replicate n [] ++ tail :: later ∧ tail ≠ [] ∧
      fault = (.malformed, '*' :: tail) := by
  induction tails with
  | nil => cases failed
  | cons tail tails ih =>
    cases tail with
    | nil =>
      obtain ⟨n, tail, later, rfl, filled, same⟩ := ih (bind_ok_eq_error_iff.mp failed)
      exact ⟨n + 1, tail, later, rfl, filled, same⟩
    | cons c tail =>
      cases failed
      exact ⟨0, c :: tail, tails, rfl, by simp, rfl⟩

theorem readWildcards_glued (n : Nat) {tail : List Char} (filled : tail ≠ [])
    (later : List (List Char)) :
    readWildcards (List.replicate n [] ++ tail :: later) = .error (.malformed, '*' :: tail) := by
  induction n with
  | zero =>
    obtain ⟨c, tail, rfl⟩ := List.exists_cons_of_ne_nil filled
    rfl
  | succ n ih =>
    rw [List.replicate_succ, List.cons_append, readWildcards, ih]
    rfl

def Leads (head : List Char) : Prop := head = [] ∨ ∃ descriptor, readByte head = .ok descriptor

theorem readPiece_leads {head : List Char} {tails : List (List Char)} (leads : Leads head)
    (plain : '*' ∉ head) (apart : ∀ tail ∈ tails, '*' ∉ tail) :
    ∃ front : Pattern, readPiece (head ++ glue tails) =
      readWildcards tails >>= fun rest => .ok (front ++ rest) := by
  rw [readPiece_glue plain apart]
  by_cases empty : head = []
  · refine ⟨[], ?_⟩
    rw [if_pos empty]
    cases readWildcards tails <;> rfl
  · obtain ⟨descriptor, read⟩ := leads.resolve_left empty
    refine ⟨[descriptor], ?_⟩
    rw [if_neg empty, read]
    rfl

theorem failsBehind_digits {head : List Char} {fault : Defect × List Char} (filled : head ≠ [])
    (plain : '*' ∉ head) (failed : readByte head = .error fault) :
    fault.2 = head ∧ FailsBehind readPiece IsGlued [] fault := by
  obtain ⟨same, bad⟩ := readByte_eq_error filled plain failed
  refine ⟨same, ⟨[], rfl⟩, ?_, same ▸ bad⟩
  intro after ends
  obtain ⟨tails, apart, rfl⟩ := ends
  rw [same, List.nil_append, readPiece_glue plain apart, if_neg filled, failed]
  rfl

theorem failsBehind_sign {head tail : List Char} (leads : Leads head) (plain : '*' ∉ head) (n : Nat)
    (filled : tail ≠ []) (unsigned : '*' ∉ tail) :
    FailsBehind readPiece IsGlued (head ++ glue (List.replicate n [])) (.malformed, '*' :: tail) := by
  have bare : ∀ none ∈ List.replicate n ([] : List Char), '*' ∉ none := by
    intro none member
    rw [List.eq_of_mem_replicate member]
    exact List.not_mem_nil
  refine ⟨?_, ?_, by simp, by simp, fun same => by cases same⟩
  · obtain ⟨front, read⟩ := readPiece_leads leads plain bare
    rw [read, readWildcards_eq_ok_iff.mpr ⟨n, rfl, rfl⟩]
    exact ⟨_, rfl⟩
  · intro after ends
    obtain ⟨tails, apart, rfl⟩ := ends
    have whole : head ++ glue (List.replicate n []) ++ '*' :: tail ++ glue tails =
        head ++ glue (List.replicate n [] ++ tail :: tails) := by
      simp [glue]
    have apart' : ∀ t ∈ List.replicate n [] ++ tail :: tails, '*' ∉ t :=
      List.forall_mem_append.mpr ⟨bare, List.forall_mem_cons.mpr ⟨unsigned, apart⟩⟩
    obtain ⟨front, read⟩ := readPiece_leads leads plain apart'
    rw [whole, read, readWildcards_glued n filled tails]
    rfl

/-- A piece fails at its digits, or at text that is glued to one of its signs. -/
theorem readPiece_failsBehind {piece : List Char} {fault : Defect × List Char}
    (failed : readPiece piece = .error fault) :
    ∃ before after, piece = before ++ fault.2 ++ after ∧ IsGlued after ∧
      FailsBehind readPiece IsGlued before fault := by
  obtain ⟨head, tails, rfl, plain, apart⟩ := exists_glue piece
  by_cases leads : Leads head
  · obtain ⟨front, read⟩ := readPiece_leads leads plain apart
    rw [read, bind_ok_eq_error_iff] at failed
    obtain ⟨n, tail, later, rfl, filled, rfl⟩ := readWildcards_eq_error failed
    obtain ⟨-, apart⟩ := List.forall_mem_append.mp apart
    obtain ⟨unsigned, apart⟩ := List.forall_mem_cons.mp apart
    refine ⟨head ++ glue (List.replicate n []), glue later, ?_, ⟨later, apart, rfl⟩,
      failsBehind_sign leads plain n filled unsigned⟩
    simp [glue]
  · obtain ⟨filled, unread⟩ := not_or.mp leads
    rw [readPiece_glue plain apart, if_neg filled] at failed
    rcases bind_eq_error_iff.mp failed with failed | ⟨descriptor, read, _⟩
    · obtain ⟨same, fails⟩ := failsBehind_digits filled plain failed
      exact ⟨[], glue tails, by rw [same, List.nil_append], ⟨tails, apart, rfl⟩, fails⟩
    · exact absurd ⟨descriptor, read⟩ unread

end Piece

section Text

variable {text : List Char}

theorem readPieces_cons (piece : List Char) (others : List (List Char)) :
    readPieces (piece :: others) = readPiece piece >>= fun first =>
      readPieces others >>= fun rest => .ok (first ++ rest) := rfl

theorem readPieces_append_error {good : List (List Char)} {bad : List Char}
    {fault : Defect × List Char} (clean : ∃ pattern, readPieces good = .ok pattern)
    (failed : readPiece bad = .error fault) (later : List (List Char)) :
    readPieces (good ++ bad :: later) = .error fault := by
  induction good with
  | nil =>
    rw [List.nil_append, readPieces_cons, failed]
    rfl
  | cons piece good ih =>
    obtain ⟨pattern, read⟩ := clean
    obtain ⟨first, here, read⟩ := bind_eq_ok_iff.mp read
    obtain ⟨rest, later, -⟩ := bind_eq_ok_iff.mp read
    rw [List.cons_append, readPieces_cons, here, ih ⟨rest, later⟩]
    rfl

theorem readPieces_append_ok {good : List (List Char)} {last : List Char}
    (clean : ∃ pattern, readPieces good = .ok pattern)
    (clean_last : ∃ pattern, readPiece last = .ok pattern) :
    ∃ pattern, readPieces (good ++ [last]) = .ok pattern := by
  induction good with
  | nil =>
    obtain ⟨pattern, read⟩ := clean_last
    exact ⟨_, by rw [List.nil_append, readPieces_cons, read]; rfl⟩
  | cons piece good ih =>
    obtain ⟨pattern, read⟩ := clean
    obtain ⟨first, here, read⟩ := bind_eq_ok_iff.mp read
    obtain ⟨rest, later, -⟩ := bind_eq_ok_iff.mp read
    obtain ⟨pattern, read⟩ := ih ⟨rest, later⟩
    exact ⟨_, by rw [List.cons_append, readPieces_cons, here, read]; rfl⟩

theorem readPieces_eq_error {texts : List (List Char)} {fault : Defect × List Char}
    (failed : readPieces texts = .error fault) :
    ∃ good bad later, texts = good ++ bad :: later ∧ (∃ pattern, readPieces good = .ok pattern) ∧
      readPiece bad = .error fault := by
  induction texts with
  | nil => cases failed
  | cons piece texts ih =>
    rw [readPieces_cons] at failed
    rcases bind_eq_error_iff.mp failed with failed | ⟨first, read, failed⟩
    · exact ⟨[], piece, texts, rfl, ⟨[], rfl⟩, failed⟩
    · obtain ⟨good, bad, later, rfl, ⟨pattern, clean⟩, failed⟩ := ih (bind_ok_eq_error_iff.mp failed)
      exact ⟨piece :: good, bad, later, rfl, ⟨_, by rw [readPieces_cons, read, clean]; rfl⟩, failed⟩

def Unmarked (piece : List Char) : Prop := ¬ ['\\', 'x'] <:+: piece

theorem unmarked_of_mem_pieces {piece : List Char} (member : piece ∈ pieces text) :
    Unmarked piece := by
  fun_induction pieces text generalizing piece with
  | case1 =>
    cases List.mem_singleton.mp member
    simp [Unmarked]
  | case2 text ih =>
    rcases List.mem_cons.mp member with rfl | later
    · simp [Unmarked]
    · exact ih later
  | case3 c text _ empty => exact absurd empty (pieces_ne_nil text)
  | case4 c text inside first others rest ih =>
    rw [rest] at ih
    rcases List.mem_cons.mp member with rfl | later
    · intro mark
      rcases List.infix_cons_iff.mp mark with front | mark
      · obtain ⟨slash, after, same⟩ := List.cons_prefix_cons.mp front
        have joined := join_pieces rest
        rw [← same] at joined
        exact inside _ slash.symm joined.symm
      · exact ih List.mem_cons_self mark
    · exact ih (List.mem_cons_of_mem _ later)

/-- No mark comes to be where text follows a piece, unless the text starts with the end of one. -/
theorem pieces_append_of_unmarked {piece : List Char} (unmarked : Unmarked piece)
    (apart : text.head? ≠ some 'x') :
    pieces (piece ++ text) = (pieces text).modifyHead (piece ++ ·) := by
  induction piece with
  | nil =>
    cases split : pieces text <;> simp [split]
  | cons c piece ih =>
    have inside : ¬ ['\\', 'x'] <+: c :: (piece ++ text) := by
      intro mark
      obtain ⟨rfl, x⟩ := List.cons_prefix_cons.mp mark
      cases piece with
      | nil =>
        obtain ⟨after, rfl⟩ := x
        exact apart rfl
      | cons d piece =>
        obtain ⟨rfl, -⟩ := List.cons_prefix_cons.mp x
        exact unmarked ⟨[], piece, rfl⟩
    have shorter : Unmarked piece := fun mark => unmarked (List.infix_cons mark)
    rw [List.cons_append, pieces_cons_inside inside, ih shorter, List.modifyHead_modifyHead]
    rfl

def closed (good : List (List Char)) : List Char := good.flatMap (· ++ ['\\', 'x'])

theorem pieces_closed {good : List (List Char)} (unmarked : ∀ piece ∈ good, Unmarked piece)
    (text : List Char) : pieces (closed good ++ text) = good ++ pieces text := by
  induction good with
  | nil => rfl
  | cons piece good ih =>
    obtain ⟨here, later⟩ := List.forall_mem_cons.mp unmarked
    have apart : ('\\' :: 'x' :: (closed good ++ text)).head? ≠ some 'x' := by simp
    have front : closed (piece :: good) ++ text = piece ++ '\\' :: 'x' :: (closed good ++ text) := by
      simp [closed]
    rw [front, pieces_append_of_unmarked here apart, pieces, ih later]
    simp

theorem join_closed (piece : List Char) (good : List (List Char)) (bad : List Char)
    (later : List (List Char)) :
    piece ++ marked (good ++ bad :: later) = closed (piece :: good) ++ bad ++ marked later := by
  induction good generalizing piece with
  | nil => simp [closed, marked]
  | cons next good ih =>
    have step : marked (next :: (good ++ bad :: later)) =
        '\\' :: 'x' :: (next ++ marked (good ++ bad :: later)) := rfl
    rw [List.cons_append, step, ih next]
    simp [closed]

theorem text_eq_closed {good later : List (List Char)} {bad : List Char}
    (split : pieces text = good ++ bad :: later) :
    text = closed good ++ bad ++ marked later := by
  cases good with
  | nil => exact (join_marked split).symm
  | cons piece good =>
    rw [← join_closed]
    exact (join_marked split).symm

theorem EndsToken.first_piece {after : List Char} (ends : EndsToken after) :
    after.head? ≠ some 'x' ∧
      ∃ tails others, pieces after = tails :: others ∧ IsGlued tails := by
  cases ends with
  | nothing => exact ⟨by simp, [], [], rfl, [], by simp, rfl⟩
  | mark text => exact ⟨by simp, [], pieces text, rfl, [], by simp, rfl⟩
  | sign text =>
    obtain ⟨piece, others, split⟩ := List.exists_cons_of_ne_nil (pieces_ne_nil text)
    refine ⟨by simp, '*' :: piece, others, pieces_cons (by decide) split, ?_⟩
    exact isGlued_of_head fun c first => (Option.some.inj first).symm

theorem endsToken_append {tails : List Char} (glued : IsGlued tails) (later : List (List Char)) :
    EndsToken (tails ++ marked later) := by
  obtain ⟨tails, -, rfl⟩ := glued
  cases tails with
  | cons tail tails => exact .sign _
  | nil =>
    cases later with
    | nil => exact .nothing
    | cons piece later => exact .mark _

theorem text_failsBehind {fault : Defect × List Char}
    (failed : readPieces (pieces text) = .error fault) :
    ∃ before after, text = before ++ fault.2 ++ after ∧ EndsToken after ∧
      FailsBehind (fun text => readPieces (pieces text)) EndsToken before fault := by
  obtain ⟨good, bad, later, split, clean, failed⟩ := readPieces_eq_error failed
  obtain ⟨before, after, whole, glued, fails⟩ := readPiece_failsBehind failed
  have unmarked : ∀ piece ∈ good ++ bad :: later, Unmarked piece := by
    intro piece member
    rw [← split] at member
    exact unmarked_of_mem_pieces member
  obtain ⟨unmarked_good, unmarked_later⟩ := List.forall_mem_append.mp unmarked
  have unmarked_bad := unmarked_later bad List.mem_cons_self
  have unmarked_token : Unmarked (before ++ fault.2) := by
    intro mark
    rw [whole] at unmarked_bad
    exact unmarked_bad (mark.trans (List.prefix_append _ _).isInfix)
  have unmarked_before : Unmarked before := fun mark =>
    unmarked_token (mark.trans (List.prefix_append _ _).isInfix)
  refine ⟨closed good ++ before, after ++ marked later, ?_, endsToken_append glued later, ?_, ?_,
    fails.bad⟩
  · rw [text_eq_closed split, whole]
    simp
  · have alone : pieces before = [before] := by
      have split := @pieces_append_of_unmarked [] before unmarked_before (by simp)
      simpa [pieces] using split
    simp only [pieces_closed unmarked_good, alone]
    exact readPieces_append_ok clean fails.clean
  · intro after' ends
    obtain ⟨apart, tails, others, first, glued'⟩ := ends.first_piece
    have same : closed good ++ before ++ fault.2 ++ after' =
        closed good ++ (before ++ fault.2 ++ after') := by simp
    simp only [same, pieces_closed unmarked_good, pieces_append_of_unmarked unmarked_token apart, first]
    exact readPieces_append_error clean (fails.fails tails glued') others

end Text

theorem compile_eq_error_iff {text : String} {error : Error} :
    compile text = .error error ↔ error.signature = text ∧
      readPieces (pieces text.toList) = .error (error.defect, error.token.toList) := by
  obtain ⟨defect, signature, token⟩ := error
  unfold compile
  split
  · rename_i read
    simp [read]
  · rename_i kind found read
    rw [read]
    simp only [Except.error.injEq, Error.mk.injEq, Prod.mk.injEq]
    constructor
    · intro same
      obtain ⟨rfl, rfl, rfl⟩ := same
      simp
    · intro same
      obtain ⟨rfl, rfl, rfl⟩ := same
      simp

/-- A text that does not compile fails at its first token that is bad: what stands before it
    compiles. The error names the token and what is wrong with it, and that depends on nothing
    behind the token, only on the signs of the token itself. -/
theorem compile_error_blames_first_bad_token (text : String) (error : Error)
    (failed : compile text = .error error) :
    error.signature = text ∧ ∃ before after : String, text = before ++ error.token ++ after ∧
      error.token ≠ "" ∧ (∃ pattern, compile before = .ok pattern) ∧ EndsToken after.toList ∧
      error.defect = (if error.token.toList.head? ≠ some '*' ∧ error.token.length = 2 then .notHex
        else .malformed) ∧
      (error.defect = .notHex → ∃ c ∈ error.token.toList, ∀ d : Hex.Digit, d.sign ≠ c) ∧
      ∀ after' : String, EndsToken after'.toList →
        compile (before ++ error.token ++ after') =
          .error ⟨error.defect, before ++ error.token ++ after', error.token⟩ := by
  obtain ⟨signature, read⟩ := compile_eq_error_iff.mp failed
  obtain ⟨before, after, whole, ends, fails⟩ := text_failsBehind read
  obtain ⟨pattern, clean⟩ := fails.clean
  have bad := fails.bad
  refine ⟨signature, String.ofList before, String.ofList after, ?_, ?_, ⟨pattern, ?_⟩, ?_, ?_,
    bad.digits, ?_⟩
  · rw [← String.toList_inj]
    simpa using whole
  · intro empty
    exact bad.filled (by simp [empty])
  · rw [compile_eq_readPieces, String.toList_ofList]
    exact clean
  · rwa [String.toList_ofList]
  · rw [← String.length_toList]
    exact bad.kind
  · intro after' ends'
    rw [compile_eq_error_iff]
    refine ⟨rfl, ?_⟩
    simpa using fails.fails after'.toList ends'

theorem compile_error_blames_accented_token :
    let text := "55*\\xé5*7\\x"
    let error : Error := ⟨.notHex, text, "é5"⟩
    compile text = .error error ∧ text = "55*\\x" ++ error.token ++ "*7\\x" ∧
      compile "55*\\x" = .ok [.exact 0x55, .wildcard] ∧ EndsToken "\\x1".toList ∧
      error.signature = text ∧ ∃ before after : String, text = before ++ error.token ++ after ∧
        (∃ pattern, compile before = .ok pattern) ∧
        (error.defect = .notHex ∧ ∃ c ∈ error.token.toList, ∀ d : Hex.Digit, d.sign ≠ c) ∧
        compile (before ++ error.token ++ "\\x1") =
          .error ⟨.notHex, before ++ error.token ++ "\\x1", error.token⟩ := by
  intro text error
  have failed : compile text = .error error := by decide +kernel
  have whole : text = "55*\\x" ++ error.token ++ "*7\\x" := by decide +kernel
  have clean : compile "55*\\x" = .ok [.exact 0x55, .wildcard] := by decide +kernel
  have ends : EndsToken "\\x1".toList := .mark ['1']
  obtain ⟨signature, before, after, split, -, compiles, -, -, digits, same⟩ :=
    compile_error_blames_first_bad_token text error failed
  exact ⟨failed, whole, clean, ends, signature, before, after, split, compiles,
    ⟨rfl, digits rfl⟩, same "\\x1" ends⟩

end Signature

end SigScan
