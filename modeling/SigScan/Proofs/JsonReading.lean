import Mathlib.Data.List.Forall2
import Mathlib.Data.List.TakeWhile
import SigScan.Json
import SigScan.Proofs.JsonReader

namespace SigScan.Json

theorem unit?_append {text behind : List Char} {unit : Nat} (read : unit? text = some (unit, behind))
    (rest : List Char) : unit? (text ++ rest) = some (unit, behind ++ rest) := by
  unfold unit? at read
  split at read
  · rename_i a b c d text
    split at read
    · rename_i high low first second
      cases read
      simp only [List.cons_append, unit?, first, second]
    · cases read
  · cases read

theorem unit?_eq_none {c : Char} (other : c ≠ 'u') (rest : List Char) :
    unit? ('\\' :: c :: rest) = none := by
  unfold unit?
  split
  · rename_i same
    cases same
    exact absurd rfl other
  · rfl

theorem unit?_control : ∀ code < 0x20,
    unit? ('\\' :: 'u' :: '0' :: '0' :: Hex.ofByte (UInt8.ofNat code)) = some (code, []) := by
  decide

theorem escapedChar_cases (c : Char) :
    (∃ letter, escape? letter = some c ∧ escapedChar c = ['\\', letter]) ∨
    (c.toNat < 0x20 ∧
      escapedChar c = '\\' :: 'u' :: '0' :: '0' :: Hex.ofByte (UInt8.ofNat c.toNat)) ∨
    (c ≠ '"' ∧ c ≠ '\\' ∧ 0x20 ≤ c.toNat ∧ escapedChar c = [c]) := by
  unfold escapedChar
  iterate 7
    split
    · subst c
      exact .inl ⟨_, rfl, rfl⟩
  split
  · rename_i control
    exact .inr (.inl ⟨control, rfl⟩)
  · rename_i quote backslash _ _ _ _ _ printed
    exact .inr (.inr ⟨quote, backslash, Nat.le_of_not_lt printed, rfl⟩)

theorem char?_letter {letter c : Char} (escape : escape? letter = some c) (rest : List Char) :
    char? ('\\' :: letter :: rest) = some (c, rest) := by
  have other : letter ≠ 'u' := by
    intro same
    subst same
    cases escape
  simp only [char?, unit?_eq_none other, escape, Option.map_some]

theorem char?_of_unit? {text rest : List Char} {code : Nat} (small : code < 0xd800)
    (read : unit? text = some (code, rest)) : char? text = some (Char.ofNat code, rest) := by
  have notHigh : isHighSurrogate code = false := by
    simp only [isHighSurrogate, Bool.and_eq_false_iff, decide_eq_false_iff_not]
    omega
  have notLow : isLowSurrogate code = false := by
    simp only [isLowSurrogate, Bool.and_eq_false_iff, decide_eq_false_iff_not]
    omega
  simp [char?, read, notHigh, notLow]

theorem char?_plain {c : Char} (unescaped : c ≠ '\\') (printed : 0x20 ≤ c.toNat) (rest : List Char) :
    char? (c :: rest) = some (c, rest) := by
  have plain : unit? (c :: rest) = none := by
    unfold unit?
    split
    · rename_i same
      cases same
      exact absurd rfl unescaped
    · rfl
  unfold char?
  simp only [plain]
  split
  · rename_i same
    cases same
  · rename_i same
    cases same
    exact absurd rfl unescaped
  · rename_i same
    cases same
    exact absurd rfl unescaped
  · rename_i same
    cases same
    rw [if_neg (Nat.not_lt.mpr printed)]

theorem char?_escapedChar (c : Char) (rest : List Char) :
    char? (escapedChar c ++ rest) = some (c, rest) := by
  rcases escapedChar_cases c with
    ⟨letter, escape, written⟩ | ⟨control, written⟩ | ⟨-, unescaped, printed, written⟩
  · rw [written]
    exact char?_letter escape rest
  · have read := unit?_append (unit?_control c.toNat control) rest
    rw [← written] at read
    have whole := char?_of_unit? (by omega) read
    rwa [Char.ofNat_toNat] at whole
  · rw [written]
    exact char?_plain unescaped printed rest

theorem head?_escapedChar (c : Char) (rest : List Char) : (escapedChar c ++ rest).head? ≠ some '"' := by
  rcases escapedChar_cases c with
    ⟨letter, -, written⟩ | ⟨-, written⟩ | ⟨unquoted, -, -, written⟩
  · simp [written]
  · simp [written]
  · simpa [written] using unquoted

theorem content?_escaped (text rest : List Char) :
    content? (text.flatMap escapedChar ++ '"' :: rest) = some (text, rest) := by
  induction text with
  | nil =>
    rw [content?]
    rfl
  | cons c text ih =>
    rw [List.flatMap_cons, List.append_assoc, content?, if_neg (head?_escapedChar c _)]
    split
    · rename_i stopped
      rw [char?_escapedChar] at stopped
      cases stopped
    · rename_i read
      rw [char?_escapedChar] at read
      cases read
      rw [ih]
      rfl

theorem tokens?_of_token? {text rest : List Char} {token : Token}
    (starts : ∃ c ∈ text.head?, isBlank c = false) (read : token? text = some (token, rest)) :
    tokens? text = (tokens? rest).map (token :: ·) := by
  obtain ⟨c, head, visible⟩ := starts
  obtain ⟨behind, rfl⟩ := List.head?_eq_some_iff.mp head
  have here : (c :: behind).dropWhile isBlank = c :: behind := by
    rw [List.dropWhile_cons_of_neg (by simp [visible])]
  rw [tokens?, if_neg (by simp [visible])]
  split
  · rename_i stopped
    rw [here, read] at stopped
    cases stopped
  · rename_i found
    rw [here, read] at found
    cases found
    rfl

theorem isBlank_of_isMark {c : Char} (mark : isMark c = true) : isBlank c = false := by
  simp only [isMark, decide_eq_true_eq] at mark
  rcases mark with rfl | rfl | rfl | rfl | rfl | rfl <;> rfl

theorem tokens?_mark {c : Char} (mark : isMark c = true) (rest : List Char) :
    tokens? (c :: rest) = (tokens? rest).map (.mark c :: ·) := by
  apply tokens?_of_token? ⟨c, rfl, isBlank_of_isMark mark⟩
  unfold token?
  split
  · rename_i same
    cases same
  · rename_i same
    cases same
    cases mark
  · rename_i same
    cases same
    rw [if_pos mark]

theorem tokens?_string (text : String) (rest : List Char) :
    tokens? (string text ++ rest) = (tokens? rest).map (.value (.string text) :: ·) := by
  apply tokens?_of_token? ⟨'"', rfl, rfl⟩
  simp only [string, List.cons_append, List.append_assoc, List.nil_append, token?, content?_escaped,
    Option.map_some, String.ofList_toList]

def Ends (rest : List Char) : Prop := ∀ c ∈ rest.head?, isBare c = false

theorem Ends.nil : Ends [] := by simp [Ends]

theorem Ends.mark {c : Char} (mark : isMark c = true) (rest : List Char) : Ends (c :: rest) := by
  simp [Ends, isBare, mark]

theorem Ends.takeWhile {rest : List Char} (ends : Ends rest) : rest.takeWhile isBare = [] := by
  cases rest with
  | nil => rfl
  | cons c rest => rw [List.takeWhile_cons_of_neg (by simp [ends c rfl])]

theorem Ends.dropWhile {rest : List Char} (ends : Ends rest) : rest.dropWhile isBare = rest := by
  cases rest with
  | nil => rfl
  | cons c rest => rw [List.dropWhile_cons_of_neg (by simp [ends c rfl])]

theorem tokens?_word {c : Char} {text rest : List Char} {v : Value}
    (bare : (c :: text).all isBare = true) (known : word? (c :: text) = some v) (ends : Ends rest) :
    tokens? (c :: text ++ rest) = (tokens? rest).map (.value v :: ·) := by
  obtain ⟨first, others⟩ := List.forall_mem_cons.mp (List.all_eq_true.mp bare)
  simp only [isBare, Bool.and_eq_true, Bool.not_eq_true', decide_eq_true_eq] at first
  obtain ⟨⟨visible, unmarked⟩, unquoted⟩ := first
  apply tokens?_of_token? ⟨c, rfl, visible⟩
  have taken : (text ++ rest).takeWhile isBare = text := by
    rw [List.takeWhile_append_of_pos others, ends.takeWhile, List.append_nil]
  have left : (text ++ rest).dropWhile isBare = rest := by
    rw [List.dropWhile_append_of_pos others, ends.dropWhile]
  rw [List.cons_append]
  unfold token?
  split
  · rename_i same
    cases same
  · rename_i same
    cases same
    exact absurd rfl unquoted
  · rename_i same
    cases same
    rw [if_neg (by simp [unmarked]), taken, left, known]
    rfl

/-- Wherever the text stands in place of a value, it is read as this one. -/
def Writes (text : List Char) (v : Value) : Prop :=
  ∀ rest tokens, Ends rest → tokens? rest = some tokens →
    ∃ whole, tokens? (text ++ rest) = some whole ∧
      ∀ frames, expect? frames whole = settle? frames v tokens

theorem Writes.read? {text : List Char} {v : Value} (writes : Writes text v) :
    read? (String.ofList text) = some v := by
  obtain ⟨whole, tokens, read⟩ := writes [] [] .nil (by rw [tokens?]; rfl)
  rw [List.append_nil] at tokens
  rw [Json.read?, String.toList_ofList, tokens]
  exact read []

theorem Writes.of_tokens? {text : List Char} {v : Value}
    (one : ∀ rest, Ends rest → tokens? (text ++ rest) = (tokens? rest).map (.value v :: ·)) :
    Writes text v := by
  intro rest tokens ends behind
  refine ⟨.value v :: tokens, by rw [one rest ends, behind]; rfl, fun frames => ?_⟩
  rw [expect?]

theorem writes_string (text : String) : Writes (string text) (.string text) :=
  .of_tokens? fun rest _ => tokens?_string text rest

theorem writes_null : Writes "null".toList .null :=
  .of_tokens? fun _ ends => tokens?_word rfl rfl ends

theorem writes_bool (b : Bool) : Writes (bool b) (.bool b) := by
  cases b with
  | true => exact .of_tokens? fun _ ends => tokens?_word rfl rfl ends
  | false => exact .of_tokens? fun _ ends => tokens?_word rfl rfl ends

theorem isDigit_of_mem_toDigits {n : Nat} {c : Char} (member : c ∈ Nat.toDigits 10 n) :
    c.isDigit = true :=
  Nat.isDigit_of_mem_toDigits (by decide) (by decide) member

theorem digitChar_ne_zero : ∀ digit < 10, digit ≠ 0 → digit.digitChar ≠ '0' := by
  decide

theorem toDigits_head? {n : Nat} (positive : 0 < n) : (Nat.toDigits 10 n).head? ≠ some '0' := by
  induction n using Nat.strong_induction_on with
  | _ n ih =>
    rw [Nat.toDigits_eq_if (by decide)]
    split
    · rename_i small
      simpa using digitChar_ne_zero n small (Nat.pos_iff_ne_zero.mp positive)
    · rw [List.head?_append_of_ne_nil _ Nat.toDigits_ne_nil]
      exact ih (n / 10) (by omega) (by omega)

theorem magnitude?_toDigits (n : Nat) : magnitude? (Nat.toDigits 10 n) = some ⟨n, 0⟩ := by
  have whole : (Nat.toDigits 10 n).takeWhile Char.isDigit = Nat.toDigits 10 n :=
    List.takeWhile_eq_self_iff.mpr fun c => isDigit_of_mem_toDigits
  have behind : (Nat.toDigits 10 n).dropWhile Char.isDigit = [] :=
    List.dropWhile_eq_nil_iff.mpr fun c => isDigit_of_mem_toDigits
  have unpadded : Nat.toDigits 10 n = ['0'] ∨
      Nat.toDigits 10 n ≠ [] ∧ (Nat.toDigits 10 n).head? ≠ some '0' := by
    rcases Nat.eq_zero_or_pos n with rfl | positive
    · exact .inl rfl
    · exact .inr ⟨Nat.toDigits_ne_nil, toDigits_head? positive⟩
  simp only [magnitude?, whole, if_pos unpadded, behind]
  simp [fraction?, power?, Nat.ofDigitChars_ten_toDigits]

theorem word?_toDigits (n : Nat) : word? (Nat.toDigits 10 n) = some (.natural n) := by
  have other (text : List Char) (letter : ∃ c ∈ text, c.isDigit = false) :
      Nat.toDigits 10 n ≠ text := by
    intro same
    obtain ⟨c, member, wrong⟩ := letter
    rw [isDigit_of_mem_toDigits (same ▸ member)] at wrong
    cases wrong
  have unsigned : decimal? (Nat.toDigits 10 n) = magnitude? (Nat.toDigits 10 n) := by
    unfold decimal?
    split
    · rename_i text same
      exact absurd same (other _ ⟨'-', List.mem_cons_self, rfl⟩)
    · rfl
  rw [word?, if_neg (other _ ⟨'t', by decide, rfl⟩), if_neg (other _ ⟨'f', by decide, rfl⟩),
    if_neg (other _ ⟨'n', by decide, rfl⟩), unsigned, magnitude?_toDigits]
  rfl

theorem isBare_of_isDigit {c : Char} (digit : c.isDigit = true) : isBare c = true := by
  by_contra barred
  have codes : c ∈ [' ', '\t', '\r', '\n', '\x7b', '\x7d', '[', ']', ':', ',', '"'] := by
    simp only [isBare, isBlank, isMark, Bool.and_eq_true, Bool.not_eq_true', decide_eq_true_eq,
      decide_eq_false_iff_not] at barred
    simp only [List.mem_cons, List.not_mem_nil, or_false]
    tauto
  simp only [List.mem_cons, List.not_mem_nil, or_false] at codes
  rcases codes with rfl | rfl | rfl | rfl | rfl | rfl | rfl | rfl | rfl | rfl | rfl <;> cases digit

theorem number_eq_toDigits (n : Nat) : number n = Nat.toDigits 10 n := by
  rw [number, Nat.toString_eq_repr, Nat.toList_repr]

theorem writes_number (n : Nat) : Writes (number n) (.natural n) := by
  rw [number_eq_toDigits]
  obtain ⟨c, text, cons⟩ := List.exists_cons_of_ne_nil (Nat.toDigits_ne_nil (b := 10) (n := n))
  have known := word?_toDigits n
  rw [cons] at known ⊢
  refine .of_tokens? fun rest ends => tokens?_word (List.all_eq_true.mpr fun d member => ?_) known ends
  rw [← cons] at member
  exact isBare_of_isDigit (isDigit_of_mem_toDigits member)

def Value.natural? : Option Nat → Value
  | some n => .natural n
  | none => .null

theorem writes_number? (n : Option Nat) : Writes (number? n) (.natural? n) := by
  cases n with
  | some n => exact writes_number n
  | none => exact writes_null

def WritesMember (text : List Char) (m : String × Value) : Prop :=
  ∃ value, text = member m.1 value ∧ Writes value m.2

theorem WritesMember.tokens? {text rest : List Char} {m : String × Value} {tokens : List Token}
    (writes : WritesMember text m) (ends : Ends rest) (behind : tokens? rest = some tokens) :
    ∃ whole, Json.tokens? (text ++ rest) = some (.value (.string m.1) :: .mark ':' :: whole) ∧
      ∀ frames, expect? frames whole = settle? frames m.2 tokens := by
  obtain ⟨value, rfl, writes⟩ := writes
  obtain ⟨whole, read, expected⟩ := writes rest tokens ends behind
  refine ⟨whole, ?_, expected⟩
  rw [member, List.append_assoc, tokens?_string, List.cons_append, tokens?_mark rfl, read]
  rfl

def following (texts : List (List Char)) (rest : List Char) : List Char :=
  texts.flatMap (',' :: ·) ++ '\x7d' :: rest

theorem ends_following (texts : List (List Char)) (rest : List Char) : Ends (following texts rest) := by
  cases texts with
  | nil => exact .mark rfl rest
  | cons text texts => exact .mark rfl _

theorem object_cons (text : List Char) (texts : List (List Char)) (rest : List Char) :
    object (text :: texts) ++ rest = '\x7b' :: (text ++ following texts rest) := by
  have separated : [','].intercalate (text :: texts) = text ++ texts.flatMap (',' :: ·) := by
    induction texts generalizing text with
    | nil => rw [List.intercalate_singleton, List.flatMap_nil, List.append_nil]
    | cons next texts ih =>
      rw [List.intercalate_cons_cons, ih, List.flatMap_cons, List.append_assoc]
      rfl
  rw [object, separated, following]
  simp only [List.cons_append, List.append_assoc, List.nil_append]

/-- Behind a member the reader goes on to the end of the object. What it has read before comes
    first, and whatever is open around the object stays. -/
theorem settle?_following {texts : List (List Char)} {members : List (String × Value)}
    (written : List.Forall₂ WritesMember texts members) {rest : List Char} {tokens : List Token}
    (behind : tokens? rest = some tokens) :
    ∃ whole, tokens? (following texts rest) = some whole ∧
      ∀ frames before key v, settle? (.object before key :: frames) v whole =
        settle? frames (.object (before.reverse ++ (key, v) :: members)) tokens := by
  induction written with
  | nil =>
    refine ⟨.mark '\x7d' :: tokens, ?_, fun frames before key v => ?_⟩
    · rw [following, List.flatMap_nil, List.nil_append, tokens?_mark rfl, behind]
      rfl
    · rw [settle?, List.reverse_cons]
  | @cons text m texts members first others ih =>
    obtain ⟨after, read, settled⟩ := ih
    obtain ⟨whole, read, expected⟩ := first.tokens? (ends_following texts rest) read
    refine ⟨.mark ',' :: .value (.string m.1) :: .mark ':' :: whole, ?_,
      fun frames before key v => ?_⟩
    · have next : following (text :: texts) rest = ',' :: (text ++ following texts rest) := by
        simp only [following, List.flatMap_cons, List.cons_append, List.append_assoc]
      rw [next, tokens?_mark rfl, read]
      rfl
    · rw [settle?, expected, settled, List.reverse_cons, List.append_assoc]
      rfl

theorem writes_object {texts : List (List Char)} {members : List (String × Value)}
    (written : List.Forall₂ WritesMember texts members) : Writes (object texts) (.object members) := by
  intro rest tokens ends behind
  cases written with
  | nil =>
    refine ⟨.mark '\x7b' :: .mark '\x7d' :: tokens, ?_, fun frames => ?_⟩
    · have text : object [] ++ rest = '\x7b' :: '\x7d' :: rest := rfl
      rw [text, tokens?_mark rfl, tokens?_mark rfl, behind]
      rfl
    · rw [expect?]
  | @cons text m texts members first others =>
    obtain ⟨after, read, settled⟩ := settle?_following others behind
    obtain ⟨whole, read, expected⟩ := first.tokens? (ends_following texts rest) read
    refine ⟨.mark '\x7b' :: .value (.string m.1) :: .mark ':' :: whole, ?_, fun frames => ?_⟩
    · rw [object_cons, tokens?_mark rfl, read]
      rfl
    · rw [expect?, expected, settled]
      rfl

end SigScan.Json
