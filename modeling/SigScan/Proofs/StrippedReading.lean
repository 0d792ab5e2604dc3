import SigScan.Proofs.Stripped

namespace SigScan.KeyValues

/-- Both readings fail, or both give one document, and what is left of the second text is what is
    left of the first without its line comments. -/
inductive SameReading :
    Except Complaint (Document × List Char) → Except Complaint (Document × List Char) → Prop
  | ok {d : Document} {rest rest' : List Char} (after : Stripped true rest rest') :
      SameReading (.ok (d, rest)) (.ok (d, rest'))
  | error {c c' : Complaint} : SameReading (.error c) (.error c')

theorem same_cons {t : Token} {tokens tokens' : List Token}
    (same : List.Forall₂ SameToken (t :: tokens) tokens') :
    ∃ start rest others, tokens' = ⟨t.lexeme, start, rest⟩ :: others ∧ Stripped true t.rest rest ∧
      List.Forall₂ SameToken tokens others := by
  obtain ⟨t', others, here, there, rfl⟩ := List.forall₂_cons_left_iff.mp same
  exact ⟨t'.start, t'.rest, others, by rw [here.lexeme], here.rest, there⟩

theorem read_without_value {tokens tokens' : List Token}
    (no_text : ∀ value start rest others, tokens = ⟨.text value, start, rest⟩ :: others → False)
    (no_object : ∀ start rest others, tokens = ⟨.opening, start, rest⟩ :: others → False)
    (same : List.Forall₂ SameToken tokens tokens') {inner : String} {start rest : List Char} :
    (∀ key entries around, readObject key entries around (⟨.text inner, start, rest⟩ :: tokens') =
        .error ⟨[.object, .quotedText, .word], leftAt tokens'⟩) ∧
      readPair (⟨.text inner, start, rest⟩ :: tokens') =
        .error ⟨[.object, .quotedText, .word], leftAt tokens'⟩ := by
  cases tokens with
  | nil =>
    cases same
    exact ⟨fun _ _ _ => rfl, rfl⟩
  | cons t tokens =>
    obtain ⟨_, _, others, rfl, -, -⟩ := same_cons same
    obtain ⟨lexeme, start, rest⟩ := t
    cases lexeme with
    | text value => exact absurd rfl (no_text value start rest tokens)
    | opening => exact absurd rfl (no_object start rest tokens)
    | closing => exact ⟨fun _ _ _ => rfl, rfl⟩
    | unclosed => exact ⟨fun _ _ _ => rfl, rfl⟩

theorem readObject_same {key : String} {entries : List (String × Node)} {around : List Enclosing}
    {tokens tokens' : List Token} (same : List.Forall₂ SameToken tokens tokens') :
    SameReading (readObject key entries around tokens) (readObject key entries around tokens') := by
  fun_induction readObject key entries around tokens generalizing tokens' with
  | case1 key entries start rest tokens =>
    obtain ⟨start', rest', others, rfl, after, -⟩ := same_cons same
    exact .ok after
  | case2 =>
    rename_i ih
    obtain ⟨start', rest', others, rfl, -, same⟩ := same_cons same
    exact ih same
  | case3 key entries around inner start rest value start' rest' tokens ih =>
    obtain ⟨_, _, others, rfl, -, same⟩ := same_cons same
    obtain ⟨_, _, others, rfl, -, same⟩ := same_cons same
    exact ih same
  | case4 key entries around inner start rest start' rest' tokens ih =>
    obtain ⟨_, _, others, rfl, -, same⟩ := same_cons same
    obtain ⟨_, _, others, rfl, -, same⟩ := same_cons same
    exact ih same
  | case5 key entries around inner start rest tokens no_text no_object =>
    obtain ⟨_, _, others, rfl, -, same⟩ := same_cons same
    rw [(read_without_value no_text no_object same).1]
    exact .error
  | case6 key entries around tokens no_closing _ _ no_text =>
    cases tokens with
    | nil =>
      cases same
      exact .error
    | cons t tokens =>
      obtain ⟨_, _, others, rfl, -, -⟩ := same_cons same
      obtain ⟨lexeme, start, rest⟩ := t
      cases lexeme with
      | text value => exact absurd rfl (no_text value start rest tokens)
      | opening => exact .error
      | closing => exact absurd rfl (no_closing start rest tokens)
      | unclosed => exact .error

theorem readPair_same {tokens tokens' : List Token} (same : List.Forall₂ SameToken tokens tokens') :
    SameReading (readPair tokens) (readPair tokens') := by
  fun_cases readPair tokens with
  | case1 key start rest value start' rest' tokens =>
    obtain ⟨_, _, others, rfl, -, same⟩ := same_cons same
    obtain ⟨_, _, others, rfl, after, -⟩ := same_cons same
    exact .ok after
  | case2 key start rest start' rest' tokens =>
    obtain ⟨_, _, others, rfl, -, same⟩ := same_cons same
    obtain ⟨_, _, others, rfl, -, same⟩ := same_cons same
    exact readObject_same same
  | case3 key start rest tokens no_text no_object =>
    obtain ⟨_, _, others, rfl, -, same⟩ := same_cons same
    rw [(read_without_value no_text no_object same).2]
    exact .error
  | case4 tokens _ _ no_text =>
    cases tokens with
    | nil =>
      cases same
      exact .error
    | cons t tokens =>
      obtain ⟨_, _, others, rfl, -, -⟩ := same_cons same
      obtain ⟨lexeme, start, rest⟩ := t
      cases lexeme with
      | text value => exact absurd rfl (no_text value start rest tokens)
      | opening => exact .error
      | closing => exact .error
      | unclosed => exact .error

theorem dropBases_argument {after : List Char} {argument : Token}
    (found : baseArgument? (dropGap false after) = some argument) :
    dropBases ('#' :: 'b' :: 'a' :: 's' :: 'e' :: after) = dropBases (dropGap false argument.rest) := by
  rw [dropBases]
  split
  · rename_i found'
    rw [found] at found'
    cases found'
    rfl
  · rename_i missing
    rw [found] at missing
    cases missing

theorem dropBases_missing {after : List Char} (missing : baseArgument? (dropGap false after) = none) :
    dropBases ('#' :: 'b' :: 'a' :: 's' :: 'e' :: after) =
      ('#' :: 'b' :: 'a' :: 's' :: 'e' :: after, some ⟨[.baseArgument, .word], dropGap false after⟩) := by
  rw [dropBases]
  split
  · rename_i found
    rw [missing] at found
    cases found
  · rfl

theorem dropBases_other {text : List Char}
    (other : ∀ after, text = '#' :: 'b' :: 'a' :: 's' :: 'e' :: after → False) :
    dropBases text = (text, none) := by
  rw [dropBases]
  exact other

namespace Stripped

variable {text kept : List Char}

theorem cons_left {c : Char} (bare : isBare c = true) (stripped : Stripped false (c :: text) kept) :
    ∃ after, kept = c :: after ∧ Stripped false text after := by
  cases stripped with
  | plain unquoted alone after =>
    rw [bare] at after
    exact ⟨_, rfl, after⟩
  | quoted => cases bare
  | unclosed => cases bare

theorem append_left {word : List Char} (bare : ∀ c ∈ word, isBare c = true)
    (stripped : Stripped false (word ++ text) kept) :
    ∃ after, kept = word ++ after ∧ Stripped false text after := by
  induction word generalizing kept with
  | nil => exact ⟨kept, rfl, stripped⟩
  | cons c word ih =>
    obtain ⟨here, later⟩ := List.forall_mem_cons.mp bare
    obtain ⟨tail, rfl, behind⟩ := stripped.cons_left here
    obtain ⟨after, rfl, left⟩ := ih later behind
    exact ⟨after, rfl, left⟩

theorem prefix_right {word : List Char} (bare : ∀ c ∈ word, isBare c = true)
    (stripped : Stripped false text (word ++ kept)) : word <+: text := by
  have taken := stripped.word.1
  rw [List.takeWhile_append_of_pos bare] at taken
  have front : word <+: text.takeWhile isBare := ⟨_, taken.symm⟩
  exact front.trans (List.takeWhile_prefix isBare)

theorem baseArgument? (stripped : Stripped true text kept) :
    Option.Rel SameToken (baseArgument? (KeyValues.dropGap false text))
      (baseArgument? (KeyValues.dropGap false kept)) := by
  have same := stripped.dropGap.token? (dropGap_front false text)
  rw [KeyValues.baseArgument?, KeyValues.baseArgument?]
  generalize KeyValues.token? (KeyValues.dropGap false text) = found at same
  generalize KeyValues.token? (KeyValues.dropGap false kept) = found' at same
  cases same with
  | none => exact .none
  | @some t t' same =>
    obtain ⟨lexeme, start, rest⟩ := t
    obtain ⟨lexeme', start', rest'⟩ := t'
    obtain ⟨rfl, after⟩ := same
    cases lexeme with
    | text value => exact .some ⟨rfl, after⟩
    | opening => exact .none
    | closing => exact .none
    | unclosed => exact .none

theorem dropBases (stripped : Stripped false text kept) :
    Stripped false (dropBases text).1 (dropBases kept).1 := by
  have word : ['#', 'b', 'a', 's', 'e'].all isBare = true := by decide
  have bare := List.all_eq_true.mp word
  fun_induction KeyValues.dropBases text generalizing kept with
  | case1 after argument found ih =>
    obtain ⟨after', rfl, left⟩ := append_left bare stripped
    have same := left.weaken.baseArgument?
    rw [found] at same
    generalize found' : KeyValues.baseArgument? (KeyValues.dropGap false after') = taken at same
    cases same with
    | some same =>
      simp only [List.cons_append, List.nil_append]
      rw [dropBases_argument found']
      exact ih same.rest.dropGap
  | case2 after missing =>
    obtain ⟨after', rfl, left⟩ := append_left bare stripped
    have same := left.weaken.baseArgument?
    rw [missing] at same
    generalize missing' : KeyValues.baseArgument? (KeyValues.dropGap false after') = taken at same
    cases same
    simp only [List.cons_append, List.nil_append] at stripped ⊢
    rw [dropBases_missing missing']
    exact stripped
  | case3 text other =>
    rw [dropBases_other]
    · exact stripped
    · intro after same
      subst same
      obtain ⟨before, rfl⟩ := prefix_right bare stripped
      exact other before rfl

theorem dropEnd (stripped : Stripped true text kept) :
    Stripped false (dropEnd text) (dropEnd kept) := by
  have gap := stripped.dropGap
  rw [KeyValues.dropEnd, KeyValues.dropEnd]
  generalize KeyValues.dropGap false text = left at gap
  generalize KeyValues.dropGap false kept = left' at gap
  by_cases ended : left.head? = some '\x00'
  · obtain ⟨rest, rfl⟩ := List.head?_eq_some_iff.mp ended
    obtain ⟨rest', rfl, after⟩ := gap.cons_left (by decide)
    exact after.dropGap
  · have ended' : left'.head? ≠ some '\x00' := gap.head?_eq ▸ ended
    split
    · exact absurd rfl ended
    · split
      · exact absurd rfl ended'
      · exact gap

end Stripped

theorem SameReading.ends_iff {r r' : Except Complaint (Document × List Char)} (same : SameReading r r')
    (d : Document) : (∃ rest, r = .ok (d, rest) ∧ dropEnd rest = []) ↔
      ∃ rest, r' = .ok (d, rest) ∧ dropEnd rest = [] := by
  cases same with
  | ok after =>
    have ends := after.dropEnd.nil_iff
    constructor
    · rintro ⟨rest, same, ended⟩
      cases same
      exact ⟨_, rfl, ends.mp ended⟩
    · rintro ⟨rest, same, ended⟩
      cases same
      exact ⟨_, rfl, ends.mpr ended⟩
  | error => simp

theorem Document.read_stripped {text kept : List Char} (stripped : Stripped true text kept)
    (d : Document) : Document.read text = .ok d ↔ Document.read kept = .ok d := by
  rw [Document.read_eq_ok_iff, Document.read_eq_ok_iff]
  exact (readPair_same stripped.dropGap.dropBases.weaken.tokens).ends_iff d

/-- The reader passes over line comments that stand apart from words as if they were erased: it reads
    the same document in the text as it stands and without comments, or none in either, and the same
    entries are drawn. Carriage returns may stand anywhere. -/
theorem tidy_text_reads_alike_uncommented (text : String) (tidy : Text.Tidy text.toList) :
    (∀ d, Document.read text.toList = .ok d ↔ Document.read (Text.uncomment text).toList = .ok d) ∧
      ∀ extract, Gamedata.ofText text = .ok extract ↔
        ∃ d, Document.read text.toList = .ok d ∧ Gamedata.ofDocument d = extract := by
  have alike := Document.read_stripped tidy.stripped
  constructor
  · intro d
    rw [Text.uncomment, String.toList_ofList]
    exact alike d
  · intro extract
    simp only [alike, Gamedata.ofText]
    cases Document.read (Text.uncommentFrom .plain text.toList) with
    | error complaint => simp
    | ok d => simp

theorem uncommented_reading_of_crowded_text :
    let text := "//\"\n\"Games\"\x7b//\x7d\n\"a\" \" //\"//\"\r\nb c\t//\n\x7d//"
    Text.Tidy text.toList ∧
      (∀ d, Document.read text.toList = .ok d ↔ Document.read (Text.uncomment text).toList = .ok d) ∧
      ∀ extract, Gamedata.ofText text = .ok extract ↔
        ∃ d, Document.read text.toList = .ok d ∧ Gamedata.ofDocument d = extract := by
  intro text
  have tidy : Text.Tidy text.toList := Text.tidy_of_marks (by decide +kernel) (by decide +kernel)
  exact ⟨tidy, tidy_text_reads_alike_uncommented text tidy⟩

end SigScan.KeyValues
