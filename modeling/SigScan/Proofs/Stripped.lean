import Mathlib.Data.List.Forall2
import Mathlib.Data.List.TakeWhile
import SigScan.Proofs.Reading

namespace SigScan.KeyValues

/-- The second text is the first one without its line comments. Each of them stands where a comment
    may start, as `free` tells of the front: at the start or behind what no word holds. -/
inductive Stripped : (free : Bool) → List Char → List Char → Prop
  | done {free : Bool} : Stripped free [] []
  | plain {free : Bool} {c : Char} {text kept : List Char} (unquoted : c ≠ '"')
      (alone : c = '/' → ∀ next ∈ text.head?, next ≠ '/') (after : Stripped (!isBare c) text kept) :
      Stripped free (c :: text) (c :: kept)
  | quoted {free : Bool} {inside text kept : List Char} (plain : '"' ∉ inside)
      (after : Stripped true text kept) :
      Stripped free ('"' :: (inside ++ '"' :: text)) ('"' :: (inside ++ '"' :: kept))
  | unclosed {free : Bool} {inside : List Char} (plain : '"' ∉ inside) :
      Stripped free ('"' :: inside) ('"' :: inside)
  | line {inside text kept : List Char} (plain : '\n' ∉ inside)
      (stops : ∀ next ∈ text.head?, next = '\n') (after : Stripped true text kept) :
      Stripped true ('/' :: '/' :: (inside ++ text)) kept

theorem dropGap_cons {c : Char} {text : List Char} (alone : c = '/' → ∀ next ∈ text.head?, next ≠ '/') :
    dropGap false (c :: text) = if isBlank c then dropGap false text else c :: text := by
  rw [dropGap]
  intro rest slash same
  subst slash same
  exact alone rfl '/' rfl rfl

theorem dropGap_comment {inside : List Char} (plain : '\n' ∉ inside) (text : List Char) :
    dropGap true (inside ++ text) = dropGap true text := by
  induction inside with
  | nil => rfl
  | cons c inside ih =>
    obtain ⟨other, later⟩ := not_or.mp (List.mem_cons.not.mp plain)
    have going : decide (c ≠ '\n') = true := decide_eq_true (Ne.symm other)
    rw [List.cons_append, dropGap, going, ih later]

theorem dropGap_comment_end {text : List Char} (stops : ∀ next ∈ text.head?, next = '\n') :
    dropGap true text = dropGap false text := by
  cases text with
  | nil => rfl
  | cons c text =>
    have feed := stops c rfl
    subst feed
    rfl

theorem dropGap_front (comment : Bool) (text : List Char) :
    ∀ c ∈ (dropGap comment text).head?, isBlank c = false := by
  fun_induction dropGap comment text with
  | case1 => simp
  | case2 _ _ ih => exact ih
  | case3 _ ih => exact ih
  | case4 _ _ _ _ ih => exact ih
  | case5 c text _ visible =>
    intro d front
    cases front
    exact Bool.eq_false_iff.mpr visible

namespace Stripped

variable {free : Bool} {text kept : List Char}

theorem weaken (stripped : Stripped false text kept) : Stripped free text kept := by
  cases stripped with
  | done => exact .done
  | plain unquoted alone after => exact .plain unquoted alone after
  | quoted plain after => exact .quoted plain after
  | unclosed plain => exact .unclosed plain

theorem head?_eq (stripped : Stripped false text kept) : text.head? = kept.head? := by
  cases stripped <;> rfl

theorem nil_iff (stripped : Stripped false text kept) : text = [] ↔ kept = [] := by
  cases stripped <;> simp

theorem dropGap (stripped : Stripped free text kept) :
    Stripped false (dropGap false text) (dropGap false kept) := by
  induction stripped with
  | done => exact .done
  | @plain free c text kept unquoted alone after ih =>
    have alone' : c = '/' → ∀ next ∈ kept.head?, next ≠ '/' := by
      intro slash
      subst slash
      exact head?_eq after ▸ alone rfl
    rw [dropGap_cons alone, dropGap_cons alone']
    by_cases blank : isBlank c = true
    · rw [if_pos blank, if_pos blank]
      exact ih
    · rw [if_neg blank, if_neg blank]
      exact .plain unquoted alone after
  | quoted plain after ih => exact .quoted plain after
  | unclosed plain => exact .unclosed plain
  | line plain stops after ih =>
    rw [KeyValues.dropGap, dropGap_comment plain, dropGap_comment_end stops]
    exact ih

theorem word (stripped : Stripped false text kept) :
    text.takeWhile isBare = kept.takeWhile isBare ∧
      Stripped true (text.dropWhile isBare) (kept.dropWhile isBare) := by
  generalize closed : false = free at stripped
  induction stripped with
  | done => exact ⟨rfl, .done⟩
  | @plain _ c text kept unquoted alone after ih =>
    by_cases bare : isBare c = true
    · obtain ⟨taken, left⟩ := ih (by simp [bare])
      rw [List.takeWhile_cons_of_pos bare, List.takeWhile_cons_of_pos bare, taken,
        List.dropWhile_cons_of_pos bare, List.dropWhile_cons_of_pos bare]
      exact ⟨rfl, left⟩
    · rw [List.takeWhile_cons_of_neg bare, List.takeWhile_cons_of_neg bare,
        List.dropWhile_cons_of_neg bare, List.dropWhile_cons_of_neg bare]
      exact ⟨rfl, .plain unquoted alone after⟩
  | quoted plain after ih => exact ⟨rfl, .quoted plain after⟩
  | unclosed plain => exact ⟨rfl, .unclosed plain⟩
  | line plain stops after ih => cases closed

end Stripped

structure SameToken (t t' : Token) : Prop where
  lexeme : t.lexeme = t'.lexeme
  rest : Stripped true t.rest t'.rest

theorem token?_quoted {inside : List Char} (plain : '"' ∉ inside) (rest : List Char) :
    token? ('"' :: (inside ++ '"' :: rest)) =
      some ⟨.text (String.ofList inside), '"' :: (inside ++ '"' :: rest), rest⟩ := by
  have writable : (Lexeme.text (String.ofList inside)).Writable := by
    rwa [Lexeme.Writable, String.toList_ofList]
  simpa [Lexeme.written] using token?_written writable rest

theorem token?_unclosed {inside : List Char} (plain : '"' ∉ inside) :
    token? ('"' :: inside) = some ⟨.unclosed, '"' :: inside, []⟩ := by
  have none_left : inside.dropWhile (· ≠ '"') = [] := by
    rw [List.dropWhile_eq_nil_iff]
    intro c member
    exact decide_eq_true fun same => plain (same ▸ member)
  simp only [token?, none_left]

theorem token?_word {c : Char} (bare : isBare c = true) (text : List Char) :
    token? (c :: text) =
      some ⟨.text (String.ofList (c :: text.takeWhile isBare)), c :: text, text.dropWhile isBare⟩ := by
  rw [token?]
  all_goals
    intro same
    subst same
    cases bare

theorem Stripped.token? {text kept : List Char} (stripped : Stripped false text kept)
    (visible : ∀ c ∈ text.head?, isBlank c = false) :
    Option.Rel SameToken (token? text) (token? kept) := by
  cases stripped with
  | done => exact .none
  | @plain _ c text kept unquoted alone after =>
    by_cases bare : isBare c = true
    · rw [bare, Bool.not_true] at after
      obtain ⟨taken, left⟩ := after.word
      rw [token?_word bare, token?_word bare, taken]
      exact .some ⟨rfl, left⟩
    · have mark : c = '\x7b' ∨ c = '\x7d' := by
        have shown := visible c rfl
        simpa [isBare, shown, unquoted, or_iff_not_imp_left] using bare
      rcases mark with rfl | rfl
      · exact .some ⟨rfl, after⟩
      · exact .some ⟨rfl, after⟩
  | quoted plain after =>
    rw [token?_quoted plain, token?_quoted plain]
    exact .some ⟨rfl, after⟩
  | unclosed plain =>
    rw [token?_unclosed plain]
    exact .some ⟨rfl, .done⟩

theorem Stripped.tokens {text kept : List Char} (stripped : Stripped true text kept) :
    List.Forall₂ SameToken (tokens text) (tokens kept) := by
  induction size : text.length using Nat.strong_induction_on generalizing text kept with
  | h n ih =>
    subst size
    have same := stripped.dropGap.token? (dropGap_front false text)
    generalize first : KeyValues.token? (KeyValues.dropGap false text) = found at same
    generalize second : KeyValues.token? (KeyValues.dropGap false kept) = found' at same
    cases same with
    | none =>
      rw [tokens_of_token?_eq_none first, tokens_of_token?_eq_none second]
      exact .nil
    | @some t t' same =>
      rw [tokens_of_token? first, tokens_of_token? second]
      have shorter := token?_rest_lt first
      have gap := dropGap_length_le false text
      exact .cons same (ih t.rest.length (by omega) same.rest rfl)

end SigScan.KeyValues

namespace SigScan.Text

open KeyValues (isBare)

theorem Divided.of_append {segments others : List Segment} (divided : Divided (segments ++ others)) :
    Divided others := by
  induction segments with
  | nil => exact divided
  | cons s segments ih => exact ih divided.2

def Outside (before after : List Char) : Prop :=
  ∃ segments others : List Segment, Divided (segments ++ others) ∧
    segments.flatMap Segment.text = before ∧ others.flatMap Segment.text = after

def edges : List Char := [' ', '\t', '\r', '\n', '\x7b', '\x7d', '"']

theorem isBare_edge {c : Char} (edge : c ∈ edges) : isBare c = false := by
  have none_bare : edges.all (fun c => !isBare c) = true := by decide
  simpa using List.all_eq_true.mp none_bare c edge

/-- Outside quotes and line comments, no block comment starts, and each line comment stands at the
    start of the text or behind an edge. -/
structure Tidy (text : List Char) : Prop where
  unblocked : ∀ before after, before ++ '/' :: '*' :: after = text →
    ¬ Outside before ('/' :: '*' :: after)
  apart : ∀ before after, before ++ '/' :: '/' :: after = text →
    Outside before ('/' :: '/' :: after) →
    ∀ last ∈ before.getLast?, last ∈ edges

theorem tidy_of_marks {text : List Char} (unmarked : ¬ ['/', '*'] <:+: text)
    (apart : ∀ n < text.length, ['/', '/'] <+: text.drop n →
      (text.take n).getLast?.all (· ∈ edges) = true) : Tidy text where
  unblocked before after same _ := unmarked ⟨before, after, by simp [← same]⟩
  apart before after same _ := by
    subst same
    intro last member
    have known : before.getLast? = some last := member
    simpa [known] using apart before.length (by simp)

theorem Tidy.stripped_from (before : List Segment) {segments : List Segment} {free : Bool}
    (tidy : Tidy ((before ++ segments).flatMap Segment.text)) (divided : Divided (before ++ segments))
    (front : (∀ last ∈ (before.flatMap Segment.text).getLast?, isBare last = false) →
      free = true) :
    KeyValues.Stripped free (segments.flatMap Segment.text) (segments.flatMap Segment.kept) := by
  induction segments generalizing before free with
  | nil => exact .done
  | cons s others ih =>
    have outside : Outside (before.flatMap Segment.text) (s.text ++ others.flatMap Segment.text) :=
      ⟨before, s :: others, divided, rfl, rfl⟩
    obtain ⟨fits, -⟩ := divided.of_append
    rw [List.append_cons] at tidy divided
    have whole : before.flatMap Segment.text ++ (s.text ++ others.flatMap Segment.text) =
        (before ++ [s] ++ others).flatMap Segment.text := by
      simp
    rw [List.flatMap_cons, List.flatMap_cons]
    cases s with
    | plain c =>
      obtain ⟨unquoted, alone⟩ := fits
      refine .plain unquoted (fun slash next first => (alone slash next first).1) (ih _ tidy divided ?_)
      intro unbare
      have last : isBare c = false := unbare c (by simp [Segment.text])
      rw [last]
      rfl
    | quoted inside closed =>
      obtain ⟨plain, cut⟩ := fits
      cases closed with
      | true =>
        have after := ih _ tidy divided fun _ => Eq.refl true
        simpa [Segment.text, Segment.kept] using KeyValues.Stripped.quoted plain after
      | false =>
        rw [segments_eq_nil (cut rfl)]
        simpa [Segment.text, Segment.kept] using KeyValues.Stripped.unclosed plain
    | block inside closed =>
      rw [Segment.block_append fits.2] at outside whole
      exact absurd outside (tidy.unblocked _ _ whole)
    | line inside =>
      obtain ⟨plain, stops⟩ := fits
      have behind := tidy.apart _ _ whole outside
      have comment : free = true := front fun last member => isBare_edge (behind last member)
      subst comment
      exact .line plain stops (ih _ tidy divided fun _ => rfl)

theorem Tidy.stripped {text : List Char} (tidy : Tidy text) :
    KeyValues.Stripped true text (uncommentFrom .plain text) := by
  obtain ⟨segments, rfl, divided⟩ := exists_divided text
  rw [uncommentFrom_divided divided]
  exact Tidy.stripped_from [] tidy divided fun _ => rfl

end SigScan.Text
