import Mathlib.Data.List.Forall2
import Mathlib.Data.List.TakeWhile
import SigScan.Proofs.Remainder
import SigScan.Proofs.Segment

namespace SigScan.Text

def lines (text : List Char) : List (List Char) := text.splitOn '\n'

theorem lines_cons (c : Char) (text : List Char) :
    lines (c :: text) = if c = '\n' then [] :: lines text else (lines text).modifyHead (c :: ·) := by
  simp [lines, List.splitOn_eq_splitOnP, List.splitOnP_cons_eq_if_modifyHead]

theorem lines_append_feed (before after : List Char) :
    lines (before ++ '\n' :: after) = lines before ++ lines after := by
  simp only [lines, List.splitOn_eq_splitOnP]
  exact List.splitOnP_append_cons before after (beq_self_eq_true '\n')

theorem length_lines (text : List Char) : (lines text).length = text.count '\n' + 1 := by
  induction text with
  | nil => rfl
  | cons c text ih =>
    rw [lines_cons]
    by_cases feed : c = '\n'
    · simp [feed, ih]
    · simp [feed, ih]

theorem lines_head? (text : List Char) : (lines text)[0]? = some (text.takeWhile (· ≠ '\n')) := by
  induction text with
  | nil => rfl
  | cons c text ih =>
    rw [lines_cons]
    by_cases feed : c = '\n'
    · simp [feed]
    · rw [if_neg feed, List.getElem?_modifyHead, if_pos rfl, ih]
      simp [feed]

theorem takeWhile_append_of_plain {part : List Char} (plain : '\n' ∉ part) (rest : List Char) :
    (part ++ rest).takeWhile (· ≠ '\n') = part ++ rest.takeWhile (· ≠ '\n') := by
  apply List.takeWhile_append_of_pos
  intro c member
  exact decide_eq_true fun feed => plain (feed ▸ member)

theorem lines_meet (before after : List Char) : (lines (before ++ after))[before.count '\n']? =
    some ((before.reverse.takeWhile (· ≠ '\n')).reverse ++ after.takeWhile (· ≠ '\n')) := by
  by_cases feed : '\n' ∈ before.reverse
  · obtain ⟨last, earlier, same, plain⟩ := List.eq_append_cons_of_mem feed
    have split : before = earlier.reverse ++ '\n' :: last.reverse := by
      rw [← List.reverse_reverse before, same]
      simp
    have index : before.count '\n' = (lines earlier.reverse).length := by
      have none_there : last.reverse.count '\n' = 0 := by simp [List.count_eq_zero, plain]
      rw [length_lines, split, List.count_append, List.count_cons_self, none_there]
    have taken : before.reverse.takeWhile (· ≠ '\n') = last := by
      rw [same, takeWhile_append_of_plain plain]
      simp
    rw [index, taken, split, List.append_assoc, List.cons_append, lines_append_feed,
      List.getElem?_append_right (Nat.le_refl _), Nat.sub_self, lines_head?,
      takeWhile_append_of_plain fun member => plain (List.mem_reverse.mp member)]
  · have plain : '\n' ∉ before := fun member => feed (List.mem_reverse.mpr member)
    have whole : before.reverse.takeWhile (· ≠ '\n') = before.reverse := by
      simpa using takeWhile_append_of_plain feed []
    rw [List.count_eq_zero.mpr plain, lines_head?, takeWhile_append_of_plain plain, whole,
      List.reverse_reverse]

theorem forall₂_modifyHead {f g : List Char → List Char}
    (step : ∀ a b : List Char, a.Sublist b → (f a).Sublist (g b)) {l m : List (List Char)}
    (each : List.Forall₂ List.Sublist l m) :
    List.Forall₂ List.Sublist (l.modifyHead f) (m.modifyHead g) := by
  cases each with
  | nil => exact .nil
  | cons first others => exact .cons (step _ _ first) others

namespace Thinned

variable {kept text : List Char}

theorem count_feeds (thinned : Thinned kept text) : kept.count '\n' = text.count '\n' := by
  induction thinned with
  | done => rfl
  | keep c after ih => rw [List.count_cons, List.count_cons, ih]
  | drop other after ih => rw [ih, List.count_cons_of_ne other]

theorem lines_sublist (thinned : Thinned kept text) :
    List.Forall₂ List.Sublist (lines kept) (lines text) := by
  induction thinned with
  | done => exact .cons .slnil .nil
  | keep c after ih =>
    rw [lines_cons, lines_cons]
    by_cases feed : c = '\n'
    · rw [if_pos feed, if_pos feed]
      exact .cons .slnil ih
    · rw [if_neg feed, if_neg feed]
      exact forall₂_modifyHead (fun _ _ part => part.cons_cons c) ih
  | @drop c kept text other after ih =>
    have unmoved : (lines kept).modifyHead id = lines kept := congrFun List.modifyHead_id _
    rw [lines_cons, if_neg other, ← unmoved]
    exact forall₂_modifyHead (fun _ _ part => part.cons c) ih

end Thinned

def Parts (within : Surroundings) (text kept left : List Char) : Prop :=
  ∃ before after inside, before ++ after = text ∧ uncommentFrom within before = kept ∧
    uncommentFrom inside after = left ∧ after.head? = left.head?

namespace Parts

variable {within later : Surroundings} {c : Char} {text kept left : List Char}

theorem front (within : Surroundings) (text : List Char)
    (same : text.head? = (uncommentFrom within text).head?) :
    Parts within text [] (uncommentFrom within text) :=
  ⟨[], text, within, rfl, by cases within <;> rfl, rfl, same⟩

theorem keep (step : ∀ before after, before ++ after = text →
      uncommentFrom within (c :: before) = c :: uncommentFrom later before)
    (ih : ∀ kept left, uncommentFrom later text = kept ++ left → Parts later text kept left)
    (cut : c :: uncommentFrom later text = kept ++ left) : Parts within (c :: text) kept left := by
  cases kept with
  | nil =>
    have whole : uncommentFrom within (c :: text) = left := (step text [] (List.append_nil text)).trans cut
    rw [← whole]
    apply front
    rw [whole, ← List.nil_append left, ← cut]
    rfl
  | cons d kept =>
    obtain ⟨rfl, rest⟩ := List.cons.inj cut
    obtain ⟨before, after, inside, same, first, second, head⟩ := ih kept left rest
    refine ⟨c :: before, after, inside, congrArg (c :: ·) same, ?_, second, head⟩
    rw [step before after same, first]

theorem drop (mark : List Char) (step : ∀ before after, before ++ after = text →
      uncommentFrom within (mark ++ before) = uncommentFrom later before)
    (parts : Parts later text kept left) : Parts within (mark ++ text) kept left := by
  obtain ⟨before, after, inside, same, first, second, head⟩ := parts
  refine ⟨mark ++ before, after, inside, ?_, (step before after same).trans first, second, head⟩
  rw [List.append_assoc, same]

end Parts

theorem uncommentFrom_parts {within : Surroundings} {text kept left : List Char}
    (cut : uncommentFrom within text = kept ++ left) : Parts within text kept left := by
  fun_induction uncommentFrom within text generalizing kept left with
  | case1 within =>
    obtain ⟨rfl, rfl⟩ := List.append_eq_nil_iff.mp cut.symm
    exact .front within [] (by cases within <;> rfl)
  | case2 text ih | case6 text ih | case9 text ih | case11 text ih =>
    exact .keep (fun _ _ _ => rfl) (fun _ _ => ih) cut
  | case3 text ih => exact .drop ['/', '*'] (fun _ _ _ => rfl) (ih cut)
  | case4 text ih => exact .drop ['/', '/'] (fun _ _ _ => rfl) (ih cut)
  | case8 text ih => exact .drop ['*', '/'] (fun _ _ _ => rfl) (ih cut)
  | case5 c text unquoted noBlock noLine ih =>
    refine .keep ?_ (fun _ _ => ih) cut
    intro before after same
    rw [uncommentFrom]
    · exact unquoted
    · intro rest slash star
      subst star
      exact noBlock _ slash same.symm
    · intro rest slash second
      subst second
      exact noLine _ slash same.symm
  | case7 c text unquoted ih =>
    refine .keep (fun before after same => ?_) (fun _ _ => ih) cut
    rw [uncommentFrom]
    exact unquoted
  | case10 c text unended other ih =>
    refine .drop [c] (fun before after same => ?_) (ih cut)
    rw [List.singleton_append, uncommentFrom]
    · intro rest star slash
      subst slash
      exact unended _ star same.symm
    · exact other
  | case12 c text other ih =>
    refine .drop [c] (fun before after same => ?_) (ih cut)
    rw [List.singleton_append, uncommentFrom]
    exact other

open KeyValues

/-- The place that a complaint about a text without its comments means is one of the text itself:
    what comes before it and behind it is kept on either side of the place, and it is on that line. -/
structure Stands (c : Complaint) (text before after : List Char) : Prop where
  whole : before ++ after = text
  parted : c.before (uncommentFrom .plain text) ++ c.left = uncommentFrom .plain text
  passed : uncommentFrom .plain before = c.before (uncommentFrom .plain text)
  left : ∃ inside, uncommentFrom inside after = c.left
  next : after.head? = c.left.head?
  line : c.line (uncommentFrom .plain text) = before.count '\n' + 1
  shown : ∃ line, (lines text)[before.count '\n']? = some line ∧
    (c.lineText (uncommentFrom .plain text)).Sublist line

theorem exists_stands {c : Complaint} {text : List Char} (left : c.left <:+ uncommentFrom .plain text) :
    ∃ before after, Stands c text before after := by
  have thinned := uncommentFrom_thinned .plain text
  have parted : c.before (uncommentFrom .plain text) ++ c.left = uncommentFrom .plain text :=
    List.suffix_iff_eq_append.mp left
  obtain ⟨before, after, inside, whole, passed, behind, next⟩ := uncommentFrom_parts parted.symm
  have feeds : (c.before (uncommentFrom .plain text)).count '\n' = before.count '\n' := by
    rw [← passed]
    exact (uncommentFrom_thinned .plain before).count_feeds
  have there := lines_meet (c.before (uncommentFrom .plain text)) c.left
  rw [parted, feeds] at there
  obtain ⟨index, own⟩ := List.getElem?_eq_some_iff.mp there
  have index' : before.count '\n' < (lines text).length := thinned.lines_sublist.length_eq ▸ index
  have part := (List.forall₂_iff_get.mp thinned.lines_sublist).2 _ index index'
  refine ⟨before, after, whole, parted, passed, ⟨inside, behind⟩, next, ?_, ?_⟩
  · rw [Complaint.line, feeds]
  · refine ⟨(lines text)[before.count '\n'], List.getElem?_eq_getElem index', ?_⟩
    rw [List.get_eq_getElem, own, List.get_eq_getElem] at part
    exact List.filter_sublist.trans part

/-- Erasing comments loses no line: each line of what is left is the line of the text with the same
    number, less some characters. So a complaint names the line that it is about in the text. -/
theorem uncomment_keeps_lines (text : String) :
    List.Forall₂ List.Sublist (lines (uncomment text).toList) (lines text.toList) ∧
    ∀ failure, Gamedata.ofText text = .error failure →
      ∃ (c : Complaint) (before after : List Char),
        failure = .gamedata (c.message (uncomment text).toList) ∧ Stands c text.toList before after := by
  rw [uncomment, String.toList_ofList]
  refine ⟨(uncommentFrom_thinned .plain text.toList).lines_sublist, ?_⟩
  intro failure failed
  cases read : Document.read (uncommentFrom .plain text.toList) with
  | ok document =>
    simp only [Gamedata.ofText, read] at failed
    cases failed
  | error c =>
    simp only [Gamedata.ofText, read, Except.error.injEq] at failed
    obtain ⟨before, after, stands⟩ := exists_stands (Document.read_error_left read)
    exact ⟨c, before, after, failed.symm, stands⟩

theorem complaint_names_line_of_commented_text :
    let text := "\"Games\"/*\n\"\n*/\x7b // \x7d\n\"a\nb\" \x7d/*\n"
    let failure : Failure := .gamedata ("Failed parsing input Error:  --> 5:4\n  |\n5 | b\" \x7d\n" ++
      "  |    ^---\n  |\n  = expected obj, quoted_string, or unquoted_string")
    Gamedata.ofText text = .error failure ∧ ∃ (c : Complaint) (before after : List Char),
      failure = .gamedata (c.message (uncomment text).toList) ∧ Stands c text.toList before after := by
  intro text failure
  have failed : Gamedata.ofText text = .error failure := by decide +kernel
  exact ⟨failed, (uncomment_keeps_lines text).2 failure failed⟩

end SigScan.Text
