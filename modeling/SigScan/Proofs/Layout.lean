import SigScan.KeyValues.Node
import SigScan.KeyValues.Token
import SigScan.Proofs.Segment

namespace SigScan.KeyValues

open Text

def Lexeme.written : Lexeme → List Char
  | .text value => '"' :: value.toList ++ ['"']
  | .opening => ['\x7b']
  | .closing => ['\x7d']
  | .unclosed => ['"']

/-- Quotes have no escapes, so a text that holds one cannot be written. -/
def Lexeme.Writable : Lexeme → Prop
  | .text value => '"' ∉ value.toList
  | .opening | .closing => True
  | .unclosed => False

instance (lexeme : Lexeme) : Decidable lexeme.Writable :=
  match lexeme with
  | .text value => inferInstanceAs (Decidable ('"' ∉ value.toList))
  | .opening | .closing => isTrue trivial
  | .unclosed => isFalse id

inductive Gap : List Char → Prop
  | nil : Gap []
  | blank {c : Char} {gap : List Char} (blank : isBlank c = true) (after : Gap gap) : Gap (c :: gap)
  | block {inside gap : List Char} (unmarked : ¬ ['*', '/'] <:+: inside) (after : Gap gap) :
      Gap ((Segment.block inside true).text ++ gap)
  | line {inside gap : List Char} (plain : '\n' ∉ inside) (after : Gap gap) :
      Gap ((Segment.line inside).text ++ '\n' :: gap)

def Blank (gap : List Char) : Prop := ∀ c ∈ gap, isBlank c = true

/-- The text writes the lexemes out with gaps around them. -/
inductive Laid (Between : List Char → Prop) : List Lexeme → List Char → Prop
  | done {gap : List Char} (between : Between gap) : Laid Between [] gap
  | next {gap rest : List Char} {lexeme : Lexeme} {lexemes : List Lexeme} (between : Between gap)
      (writable : lexeme.Writable) (after : Laid Between lexemes rest) :
      Laid Between (lexeme :: lexemes) (gap ++ lexeme.written ++ rest)

theorem Laid.flatMap_written {Between : List Char → Prop} (nothing : Between []) {lexemes : List Lexeme}
    (writable : ∀ lexeme ∈ lexemes, lexeme.Writable) :
    Laid Between lexemes (lexemes.flatMap Lexeme.written) := by
  induction lexemes with
  | nil => exact .done nothing
  | cons lexeme lexemes ih =>
    obtain ⟨here, others⟩ := List.forall_mem_cons.mp writable
    exact .next nothing here (ih others)

theorem Gap.uncomment {gap : List Char} (g : Gap gap) :
    ∃ blanks, Blank blanks ∧
      ∀ after, uncommentFrom .plain (gap ++ after) = blanks ++ uncommentFrom .plain after := by
  induction g with
  | nil => exact ⟨[], by simp [Blank], fun after => rfl⟩
  | @blank c gap blank _ ih =>
    obtain ⟨blanks, clean, erased⟩ := ih
    refine ⟨c :: blanks, List.forall_mem_cons.mpr ⟨blank, clean⟩, fun after => ?_⟩
    have fits : (Segment.plain c).Fits (gap ++ after) := by
      constructor <;> intro same <;> subst same <;> cases blank
    rw [List.cons_append, uncommentFrom_plain_cons fits, erased, List.cons_append]
  | @block inside gap unmarked _ ih =>
    obtain ⟨blanks, clean, erased⟩ := ih
    refine ⟨List.replicate (inside.count '\n') '\n' ++ blanks, ?_, fun after => ?_⟩
    · intro c member
      rcases List.mem_append.mp member with feed | member
      · rw [List.eq_of_mem_replicate feed]
        rfl
      · exact clean c member
    · have fits : (Segment.block inside true).Fits (gap ++ after) := ⟨unmarked, nofun⟩
      rw [List.append_assoc, uncommentFrom_segment fits, erased, Segment.kept, List.append_assoc]
  | @line inside gap plain _ ih =>
    obtain ⟨blanks, clean, erased⟩ := ih
    refine ⟨'\n' :: blanks, List.forall_mem_cons.mpr ⟨rfl, clean⟩, fun after => ?_⟩
    have fits : (Segment.line inside).Fits ('\n' :: gap ++ after) := ⟨plain, by simp⟩
    have feed : (Segment.plain '\n').Fits (gap ++ after) := ⟨by simp, by simp⟩
    rw [List.append_assoc, uncommentFrom_segment fits, List.cons_append, uncommentFrom_plain_cons feed,
      erased]
    rfl

theorem Lexeme.uncomment {lexeme : Lexeme} (writable : lexeme.Writable) (after : List Char) :
    uncommentFrom .plain (lexeme.written ++ after) = lexeme.written ++ uncommentFrom .plain after := by
  cases lexeme with
  | text value => exact uncommentFrom_segment (s := .quoted value.toList true) ⟨writable, nofun⟩
  | opening => exact uncommentFrom_plain_cons ⟨by simp, by simp⟩
  | closing => exact uncommentFrom_plain_cons ⟨by simp, by simp⟩
  | unclosed => cases writable

theorem Laid.uncomment {lexemes : List Lexeme} {text : List Char} (laid : Laid Gap lexemes text) :
    Laid Blank lexemes (uncommentFrom .plain text) := by
  induction laid with
  | done gap =>
    obtain ⟨blanks, clean, erased⟩ := gap.uncomment
    have all := erased []
    rw [List.append_nil, uncommentFrom, List.append_nil] at all
    exact all ▸ .done clean
  | next gap writable _ ih =>
    obtain ⟨blanks, clean, erased⟩ := gap.uncomment
    rw [List.append_assoc, erased, Lexeme.uncomment writable, ← List.append_assoc]
    exact .next clean writable ih

theorem dropGap_blank {gap : List Char} (clean : Blank gap) (after : List Char) :
    dropGap false (gap ++ after) = dropGap false after := by
  induction gap with
  | nil => rfl
  | cons c gap ih =>
    obtain ⟨blank, others⟩ := List.forall_mem_cons.mp clean
    rw [List.cons_append, dropGap, if_pos blank, ih others]
    intro rest slash
    subst slash
    cases blank

theorem dropGap_written {lexeme : Lexeme} (writable : lexeme.Writable) (after : List Char) :
    dropGap false (lexeme.written ++ after) = lexeme.written ++ after := by
  cases lexeme with
  | text value => rfl
  | opening => rfl
  | closing => rfl
  | unclosed => cases writable

theorem token?_written {lexeme : Lexeme} (writable : lexeme.Writable) (after : List Char) :
    token? (lexeme.written ++ after) = some ⟨lexeme, lexeme.written ++ after, after⟩ := by
  cases lexeme with
  | text value =>
    have inside : ∀ c ∈ value.toList, decide (c ≠ '"') = true := by
      intro c member
      exact decide_eq_true fun same => writable (same ▸ member)
    have left : (value.toList ++ '"' :: after).dropWhile (· ≠ '"') = '"' :: after := by
      rw [List.dropWhile_append_of_pos inside]
      rfl
    have taken : (value.toList ++ '"' :: after).takeWhile (· ≠ '"') = value.toList := by
      rw [List.takeWhile_append_of_pos inside]
      simp
    simp only [Lexeme.written, List.cons_append, List.append_assoc, List.nil_append, token?, left,
      taken, String.ofList_toList]
  | opening => rfl
  | closing => rfl
  | unclosed => cases writable

theorem tokens_of_token? {text : List Char} {token : Token}
    (read : token? (dropGap false text) = some token) : tokens text = token :: tokens token.rest := by
  rw [tokens]
  split
  · rename_i stopped
    rw [read] at stopped
    cases stopped
  · rename_i found
    rw [read] at found
    cases found
    rfl

theorem tokens_of_token?_eq_none {text : List Char} (stopped : token? (dropGap false text) = none) :
    tokens text = [] := by
  rw [tokens]
  split
  · rfl
  · rename_i found
    rw [stopped] at found
    cases found

theorem tokens_blank {gap : List Char} (clean : Blank gap) : tokens gap = [] := by
  have nothing : dropGap false gap = [] := by
    have all := dropGap_blank clean []
    rwa [List.append_nil] at all
  apply tokens_of_token?_eq_none
  rw [nothing]
  rfl

theorem tokens_next {gap : List Char} {lexeme : Lexeme} (clean : Blank gap) (writable : lexeme.Writable)
    (rest : List Char) : tokens (gap ++ lexeme.written ++ rest) =
      ⟨lexeme, lexeme.written ++ rest, rest⟩ :: tokens rest := by
  apply tokens_of_token?
  rw [List.append_assoc, dropGap_blank clean, dropGap_written writable, token?_written writable]

structure Spells (tokens : List Token) (lexemes : List Lexeme) : Prop where
  lexemes : tokens.map Token.lexeme = lexemes
  rest : ∀ last ∈ tokens.getLast?, Blank last.rest

theorem Laid.spells {lexemes : List Lexeme} {text : List Char} (laid : Laid Blank lexemes text) :
    Spells (tokens text) lexemes := by
  induction laid with
  | done clean =>
    rw [tokens_blank clean]
    exact ⟨rfl, by simp⟩
  | @next gap rest lexeme lexemes clean writable after ih =>
    rw [tokens_next clean writable]
    refine ⟨by rw [List.map_cons, ih.lexemes], ?_⟩
    intro last isLast
    cases after with
    | done blank =>
      rw [tokens_blank blank] at isLast
      cases isLast
      exact blank
    | next clean' writable' after' =>
      rw [tokens_next clean' writable'] at isLast
      apply ih.rest
      rw [tokens_next clean' writable']
      simpa using isLast

end SigScan.KeyValues
