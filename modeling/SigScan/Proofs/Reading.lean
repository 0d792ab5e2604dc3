import SigScan.Gamedata
import SigScan.Proofs.Layout
import SigScan.Proofs.Tree

namespace SigScan.KeyValues

mutual

def Node.lexemes : Node → List Lexeme
  | .text value => [.text value]
  | .object entries => .opening :: (lexemesWithin entries ++ [.closing])

def lexemesWithin : List (String × Node) → List Lexeme
  | [] => []
  | (key, node) :: entries => .text key :: (node.lexemes ++ lexemesWithin entries)

end

def Document.lexemes (d : Document) : List Lexeme := .text d.key :: d.value.lexemes

theorem spelt_cons {tokens : List Token} {lexeme : Lexeme} {lexemes : List Lexeme}
    (spelt : tokens.map Token.lexeme = lexeme :: lexemes) :
    ∃ start rest others, tokens = ⟨lexeme, start, rest⟩ :: others ∧
      others.map Token.lexeme = lexemes := by
  obtain ⟨token, others, rfl, same, after⟩ := List.map_eq_cons_iff.mp spelt
  subst same
  exact ⟨token.start, token.rest, others, rfl, after⟩

/-- The reader goes through the pairs of an object and puts them, with sorted values, on top of the
    entries that it has, whatever comes after them and around them. -/
theorem readObject_within : (entries : List (String × Node)) → ∀ (key : String)
    (done : List (String × Node)) (around : List Enclosing) (tokens more : List Token),
    tokens.map Token.lexeme = lexemesWithin entries →
      readObject key done around (tokens ++ more) =
        readObject key ((sortedWithin entries).reverse ++ done) around more
  | [] => by
    intro key done around tokens more spelt
    have nothing := List.map_eq_nil_iff.mp spelt
    rw [nothing]
    rfl
  | (name, .text value) :: entries => by
    intro key done around tokens more spelt
    obtain ⟨start, rest, tail, rfl, pair⟩ := spelt_cons spelt
    obtain ⟨start', rest', tokens, rfl, others⟩ := spelt_cons pair
    have read := readObject_within entries key ((name, .text value) :: done) around tokens more others
    rw [List.cons_append, List.cons_append, readObject, read]
    simp [sortedWithin, Node.sorted]
  | (name, .object inner) :: entries => by
    intro key done around tokens more spelt
    obtain ⟨start, rest, tail, rfl, pair⟩ := spelt_cons spelt
    obtain ⟨start', rest', body, rfl, object⟩ := spelt_cons pair
    obtain ⟨opened, tokens, rfl, braced, others⟩ := List.map_eq_append_iff.mp object
    obtain ⟨inside, closed, rfl, pairs, brace⟩ := List.map_eq_append_iff.mp braced
    obtain ⟨start'', rest'', ended, rfl, none_left⟩ := spelt_cons brace
    have nothing := List.map_eq_nil_iff.mp none_left
    subst nothing
    have value := readObject_within inner name [] (⟨key, done⟩ :: around) inside
      (⟨.closing, start'', rest''⟩ :: (tokens ++ more)) pairs
    have read := readObject_within entries key ((name, (Node.object inner).sorted) :: done) around
      tokens more others
    have built : Node.ofEntries ((sortedWithin inner).reverse ++ []).reverse = (Node.object inner).sorted := by
      simp [Node.sorted]
    simp only [List.cons_append, List.append_assoc, List.nil_append]
    rw [readObject, value, readObject, built, read]
    simp [sortedWithin]

theorem readPair_spelt {tokens : List Token} {d : Document} (spells : Spells tokens d.lexemes) :
    ∃ rest, Blank rest ∧ readPair tokens = .ok (⟨d.key, d.value.sorted⟩, rest) := by
  obtain ⟨key, value⟩ := d
  obtain ⟨start, rest, tail, rfl, spelt⟩ := spelt_cons spells.lexemes
  cases value with
  | text value =>
    obtain ⟨start', rest', ended, rfl, none_left⟩ := spelt_cons spelt
    have nothing := List.map_eq_nil_iff.mp none_left
    subst nothing
    exact ⟨rest', spells.rest _ rfl, rfl⟩
  | object entries =>
    obtain ⟨start', rest', body, rfl, braced⟩ := spelt_cons spelt
    obtain ⟨inside, closed, rfl, pairs, brace⟩ := List.map_eq_append_iff.mp braced
    obtain ⟨start'', rest'', ended, rfl, none_left⟩ := spelt_cons brace
    have nothing := List.map_eq_nil_iff.mp none_left
    subst nothing
    refine ⟨rest'', spells.rest ⟨.closing, start'', rest''⟩ (by simp [List.getLast?_cons]), ?_⟩
    rw [readPair, readObject_within entries key [] [] inside _ pairs, readObject]
    simp [Node.sorted]

theorem dropBases_written {lexeme : Lexeme} (writable : lexeme.Writable) (after : List Char) :
    dropBases (lexeme.written ++ after) = (lexeme.written ++ after, none) := by
  cases lexeme with
  | text value => simp [Lexeme.written, dropBases]
  | opening => simp [Lexeme.written, dropBases]
  | closing => simp [Lexeme.written, dropBases]
  | unclosed => cases writable

theorem dropEnd_blank {gap : List Char} (clean : Blank gap) : dropEnd gap = [] := by
  have all := dropGap_blank clean []
  rw [List.append_nil] at all
  rw [dropEnd, all]
  rfl

theorem Document.read_laid {d : Document} {text : List Char} (laid : Laid Blank d.lexemes text) :
    Document.read text = .ok ⟨d.key, d.value.sorted⟩ := by
  cases laid with
  | @next gap after _ _ clean writable laid =>
    have front : dropGap false (gap ++ (Lexeme.text d.key).written ++ after) =
        (Lexeme.text d.key).written ++ after := by
      rw [List.append_assoc, dropGap_blank clean, dropGap_written writable]
    have body : Laid Blank d.lexemes ([] ++ (Lexeme.text d.key).written ++ after) :=
      .next (by simp [Blank]) writable laid
    obtain ⟨rest, blank, read⟩ := readPair_spelt body.spells
    rw [List.nil_append] at read
    simp only [Document.read, front, dropBases_written writable, read, dropEnd_blank blank]

theorem ofText_written {d : Document} {text : String} (sorted : d.value.Sorted)
    (written : text.toList = d.lexemes.flatMap Lexeme.written)
    (writable : ∀ lexeme ∈ d.lexemes, lexeme.Writable) :
    Gamedata.ofText text = .ok (Gamedata.ofDocument d) := by
  have read := Document.read_laid (Laid.flatMap_written .nil writable).uncomment
  rw [← written, sorted.sorted_eq] at read
  simp only [Gamedata.ofText, read]

theorem Node.sorted_ofEntries {entries : List (String × Node)}
    (within : ∀ entry ∈ entries, entry.2.Sorted) : (Node.ofEntries entries).Sorted :=
  .object (sortEntries_ascending entries) fun entry member =>
    within entry ((sortEntries_perm entries).mem_iff.mp member)

theorem readObject_sorted {key : String} {entries : List (String × Node)} {around : List Enclosing}
    {tokens : List Token} {d : Document} {rest : List Char}
    (here : ∀ entry ∈ entries, entry.2.Sorted)
    (outside : ∀ outer ∈ around, ∀ entry ∈ outer.entries, entry.2.Sorted)
    (read : readObject key entries around tokens = .ok (d, rest)) : d.value.Sorted := by
  fun_induction readObject key entries around tokens with
  | case1 key entries start rest' tokens node =>
    cases read
    exact Node.sorted_ofEntries fun entry member => here entry (List.mem_reverse.mp member)
  | case2 key entries start rest' tokens node outer around ih =>
    have value : node.Sorted :=
      Node.sorted_ofEntries fun entry member => here entry (List.mem_reverse.mp member)
    obtain ⟨inner, others⟩ := List.forall_mem_cons.mp outside
    exact ih (List.forall_mem_cons.mpr ⟨value, inner⟩) others read
  | case3 key entries around inner start rest' value start' rest'' tokens ih =>
    exact ih (List.forall_mem_cons.mpr ⟨.text value, here⟩) outside read
  | case4 key entries around inner start rest' start' rest'' tokens ih =>
    exact ih (by simp) (List.forall_mem_cons.mpr ⟨here, outside⟩) read
  | case5 => cases read
  | case6 => cases read

theorem readPair_sorted {tokens : List Token} {d : Document} {rest : List Char}
    (read : readPair tokens = .ok (d, rest)) : d.value.Sorted := by
  unfold readPair at read
  split at read
  · cases read
    exact .text _
  · exact readObject_sorted (by simp) (by simp) read
  · cases read
  · cases read

theorem Document.read_eq_ok_iff {text : List Char} {d : Document} : Document.read text = .ok d ↔
    ∃ rest, readPair (tokens (dropBases (dropGap false text)).1) = .ok (d, rest) ∧
      dropEnd rest = [] := by
  simp only [Document.read]
  cases readPair (tokens (dropBases (dropGap false text)).1) with
  | error c => simp
  | ok pair =>
    obtain ⟨document, rest⟩ := pair
    cases ended : dropEnd rest with
    | nil => simp [ended]
    | cons c left => simp [ended]

theorem Document.read_sorted {text : List Char} {d : Document} (read : Document.read text = .ok d) :
    d.value.Sorted := by
  obtain ⟨rest, found, -⟩ := Document.read_eq_ok_iff.mp read
  exact readPair_sorted found

/-- Gamedata that writes a tree out is read back as that tree, keys sorted, whatever its comments
    hold. Gaps may be left out: quotes and braces end their tokens. -/
theorem ofText_reads_back_document (d : Document) (text : String)
    (laid : Laid Gap d.lexemes text.toList) :
    ∃ tree, d.value.Arranged tree ∧
      Gamedata.ofText text = .ok (Gamedata.ofDocument ⟨d.key, tree⟩) := by
  refine ⟨d.value.sorted, d.value.arranged_sorted, ?_⟩
  have read := Document.read_laid laid.uncomment
  simp only [Gamedata.ofText, read]

theorem ofText_reads_back_commented_document :
    let d : Document := ⟨"Games", .object [("b", .text "//"), ("a", .text "\\")]⟩
    let text := "\"Games\"/*\"*/\x7b\"b\"\t\"//\"// \"c\" \x7b\n\"a\" \"\\\" \x7d\r\n"
    Laid Gap d.lexemes text.toList ∧ ∃ tree, d.value.Arranged tree ∧
      Gamedata.ofText text = .ok (Gamedata.ofDocument ⟨d.key, tree⟩) := by
  intro d text
  have quote : Gap ((Text.Segment.block ['"'] true).text ++ []) := .block (by decide) .nil
  have note : Gap ((Text.Segment.line " \"c\" \x7b".toList).text ++ '\n' :: []) := .line (by decide) .nil
  have tab : Gap ['\t'] := .blank rfl .nil
  have space : Gap [' '] := .blank rfl .nil
  have ending : Laid Gap [] ['\r', '\n'] := .done (.blank rfl (.blank rfl .nil))
  have closing : Laid Gap [.closing] _ := .next space (by decide) ending
  have slash : Laid Gap (.text "\\" :: _) _ := .next space (by decide) closing
  have second : Laid Gap (.text "a" :: _) _ := .next note (by decide) slash
  have slashes : Laid Gap (.text "//" :: _) _ := .next tab (by decide) second
  have first : Laid Gap (.text "b" :: _) _ := .next .nil (by decide) slashes
  have opening : Laid Gap (.opening :: _) _ := .next quote (by decide) first
  have root : Laid Gap (.text "Games" :: _) _ := .next .nil (by decide) opening
  obtain ⟨chars, written, laid⟩ : ∃ chars, text.toList = chars ∧ Laid Gap d.lexemes chars :=
    ⟨_, by decide, root⟩
  rw [← written] at laid
  exact ⟨laid, ofText_reads_back_document d text laid⟩

end SigScan.KeyValues
