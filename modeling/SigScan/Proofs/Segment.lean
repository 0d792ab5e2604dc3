import Mathlib.Data.List.Infix
import SigScan.Text

namespace SigScan.Text

/-- A stretch of a text as quotes and comments divide it. One that the end of the text cuts off is
    not closed. -/
inductive Segment
  | plain (c : Char)
  | quoted (inside : List Char) (closed : Bool)
  | block (inside : List Char) (closed : Bool)
  | line (inside : List Char)
deriving DecidableEq, Repr

namespace Segment

def text : Segment → List Char
  | .plain c => [c]
  | .quoted inside true => '"' :: inside ++ ['"']
  | .quoted inside false => '"' :: inside
  | .block inside true => '/' :: '*' :: inside ++ ['*', '/']
  | .block inside false => '/' :: '*' :: inside
  | .line inside => '/' :: '/' :: inside

theorem text_length_pos (s : Segment) : 0 < s.text.length := by
  cases s with
  | plain c => exact Nat.one_pos
  | quoted inside closed => cases closed <;> exact Nat.succ_pos _
  | block inside closed => cases closed <;> exact Nat.succ_pos _
  | line inside => exact Nat.succ_pos _

def kept : Segment → List Char
  | .plain c => [c]
  | .quoted inside closed => (quoted inside closed).text
  | .block inside _ => List.replicate (inside.count '\n') '\n'
  | .line _ => []

/-- The segment may stand in front of `after`: it starts nothing else there, ends at the first
    mark that ends its kind, and is cut off by the end only. -/
def Fits (after : List Char) : Segment → Prop
  | .plain c => c ≠ '"' ∧ (c = '/' → ∀ next ∈ after.head?, next ≠ '/' ∧ next ≠ '*')
  | .quoted inside closed => '"' ∉ inside ∧ (closed = false → after = [])
  | .block inside closed => ¬ ['*', '/'] <:+: inside ∧ (closed = false → after = [])
  | .line inside => '\n' ∉ inside ∧ ∀ next ∈ after.head?, next = '\n'

end Segment

def Divided : List Segment → Prop
  | [] => True
  | s :: others => s.Fits (others.flatMap Segment.text) ∧ Divided others

namespace Segment

def behind (mark : List Char) (closed : Bool) (after : List Char) : List Char :=
  if closed then mark ++ after else []

theorem behind_inj {mark a b : List Char} {closed other : Bool} (marked : mark ≠ [])
    (cut : closed = false → a = []) (cut' : other = false → b = [])
    (same : behind mark closed a = behind mark other b) : closed = other ∧ a = b := by
  cases closed <;> cases other <;> simp_all [behind]

theorem quoted_append {inside after : List Char} {closed : Bool} (cut : closed = false → after = []) :
    (quoted inside closed).text ++ after = '"' :: (inside ++ behind ['"'] closed after) := by
  cases closed with
  | true => simp [text, behind]
  | false => simp [text, behind, cut rfl]

theorem block_append {inside after : List Char} {closed : Bool} (cut : closed = false → after = []) :
    (block inside closed).text ++ after =
      '/' :: '*' :: (inside ++ behind ['*', '/'] closed after) := by
  cases closed with
  | true => simp [text, behind]
  | false => simp [text, behind, cut rfl]

theorem head?_behind_quote (closed : Bool) (after : List Char) :
    ∀ next ∈ (behind ['"'] closed after).head?, next = '"' := by
  cases closed <;> simp [behind]

theorem behind_block (closed : Bool) (after : List Char) :
    behind ['*', '/'] closed after = [] ∨ ['*', '/'] <+: behind ['*', '/'] closed after := by
  cases closed with
  | true => exact .inr (List.prefix_append _ _)
  | false => exact .inl rfl

end Segment

theorem not_marked_across {c : Char} {inside rest : List Char} (unmarked : ¬ ['*', '/'] <:+: c :: inside)
    (back : rest = [] ∨ ['*', '/'] <+: rest) : ¬ ['*', '/'] <+: c :: (inside ++ rest) := by
  intro marked
  obtain ⟨star, slash⟩ := List.cons_prefix_cons.mp marked
  cases inside with
  | nil =>
    rcases back with rfl | ⟨after, rfl⟩
    · simp at slash
    · simp at slash
  | cons d inside =>
    have same := (List.cons_prefix_cons.mp slash).1
    subst star same
    exact unmarked ⟨[], inside, rfl⟩

theorem uncommentFrom_quotes {inside : List Char} (plain : '"' ∉ inside) (after : List Char) :
    uncommentFrom .quotes (inside ++ after) = inside ++ uncommentFrom .quotes after := by
  induction inside with
  | nil => rfl
  | cons c inside ih =>
    simp only [List.mem_cons, not_or] at plain
    have tail := ih plain.2
    rw [List.cons_append, uncommentFrom, tail]
    · rfl
    · exact fun same => plain.1 same.symm

theorem uncommentFrom_line {inside : List Char} (plain : '\n' ∉ inside) (after : List Char) :
    uncommentFrom .lineComment (inside ++ after) = uncommentFrom .lineComment after := by
  induction inside with
  | nil => rfl
  | cons c inside ih =>
    simp only [List.mem_cons, not_or] at plain
    rw [List.cons_append, uncommentFrom, ih plain.2]
    exact fun same => plain.1 same.symm

theorem uncommentFrom_block_cons {c : Char} {text : List Char} (unended : ¬ ['*', '/'] <+: c :: text) :
    uncommentFrom .blockComment (c :: text) =
      List.replicate ([c].count '\n') '\n' ++ uncommentFrom .blockComment text := by
  by_cases feed : c = '\n'
  · subst feed
    rfl
  · rw [uncommentFrom]
    · simp [feed]
    · intro rest star slash
      subst star slash
      exact unended ⟨rest, rfl⟩
    · exact feed

theorem uncommentFrom_block {inside after : List Char} (unmarked : ¬ ['*', '/'] <:+: inside)
    (back : after = [] ∨ ['*', '/'] <+: after) :
    uncommentFrom .blockComment (inside ++ after) =
      List.replicate (inside.count '\n') '\n' ++ uncommentFrom .blockComment after := by
  induction inside with
  | nil => rfl
  | cons c inside ih =>
    have tail := ih fun marked => unmarked (List.infix_cons marked)
    rw [List.cons_append, uncommentFrom_block_cons (not_marked_across unmarked back), tail,
      ← List.append_assoc, ← List.replicate_add, ← List.count_append, List.singleton_append]

theorem uncommentFrom_plain_cons {c : Char} {after : List Char} (fits : (Segment.plain c).Fits after) :
    uncommentFrom .plain (c :: after) = c :: uncommentFrom .plain after := by
  obtain ⟨unquoted, alone⟩ := fits
  rw [uncommentFrom]
  · exact unquoted
  · intro rest slash star
    subst slash star
    exact (alone rfl _ rfl).2 rfl
  · intro rest slash second
    subst slash second
    exact (alone rfl _ rfl).1 rfl

theorem uncommentFrom_segment {s : Segment} {after : List Char} (fits : s.Fits after) :
    uncommentFrom .plain (s.text ++ after) = s.kept ++ uncommentFrom .plain after := by
  cases s with
  | plain c => exact uncommentFrom_plain_cons fits
  | quoted inside closed =>
    obtain ⟨plain, cut⟩ := fits
    rw [Segment.quoted_append cut, uncommentFrom, uncommentFrom_quotes plain]
    cases closed with
    | true => simp [Segment.behind, Segment.kept, Segment.text, uncommentFrom]
    | false => simp [Segment.behind, Segment.kept, Segment.text, uncommentFrom, cut]
  | block inside closed =>
    obtain ⟨unmarked, cut⟩ := fits
    rw [Segment.block_append cut, uncommentFrom,
      uncommentFrom_block unmarked (Segment.behind_block closed after)]
    cases closed with
    | true => simp [Segment.behind, Segment.kept, uncommentFrom]
    | false => simp [Segment.behind, Segment.kept, uncommentFrom, cut]
  | line inside =>
    obtain ⟨plain, stops⟩ := fits
    rw [Segment.text, List.cons_append, List.cons_append, uncommentFrom, uncommentFrom_line plain]
    cases after with
    | nil => rfl
    | cons next after =>
      have feed := stops next rfl
      subst feed
      rfl

theorem uncommentFrom_divided {segments : List Segment} (divided : Divided segments) :
    uncommentFrom .plain (segments.flatMap Segment.text) = segments.flatMap Segment.kept := by
  induction segments with
  | nil => rfl
  | cons s others ih =>
    obtain ⟨fits, rest⟩ := divided
    rw [List.flatMap_cons, uncommentFrom_segment fits, ih rest, List.flatMap_cons]

inductive Thinned : (kept text : List Char) → Prop
  | done : Thinned [] []
  | keep (c : Char) {kept text : List Char} (after : Thinned kept text) : Thinned (c :: kept) (c :: text)
  | drop {c : Char} {kept text : List Char} (other : c ≠ '\n') (after : Thinned kept text) :
      Thinned kept (c :: text)

theorem uncommentFrom_thinned (within : Surroundings) (text : List Char) :
    Thinned (uncommentFrom within text) text := by
  fun_induction uncommentFrom within text with
  | case1 => exact .done
  | case2 text ih | case5 c text _ _ _ ih | case6 text ih | case7 c text _ ih | case9 text ih
  | case11 text ih => exact .keep _ ih
  | case3 text ih | case4 text ih | case8 text ih => exact .drop (by decide) (.drop (by decide) ih)
  | case10 c text _ other ih => exact .drop other ih
  | case12 c text other ih => exact .drop other ih

theorem first_block_mark (text : List Char) :
    (∃ inside after, text = inside ++ '*' :: '/' :: after ∧ ¬ ['*', '/'] <:+: inside) ∨
      ¬ ['*', '/'] <:+: text := by
  induction text with
  | nil => simp
  | cons c text ih =>
    by_cases here : ['*', '/'] <+: c :: text
    · obtain ⟨after, same⟩ := here
      exact .inl ⟨[], after, same.symm, by simp⟩
    · rcases ih with ⟨inside, after, rfl, unmarked⟩ | unmarked
      · left
        refine ⟨c :: inside, after, rfl, ?_⟩
        intro marked
        rcases List.infix_cons_iff.mp marked with first | later
        · exact here (first.trans (List.prefix_append (c :: inside) _))
        · exact unmarked later
      · right
        intro marked
        rcases List.infix_cons_iff.mp marked with first | later
        · exact here first
        · exact unmarked later

theorem exists_segment (c : Char) (text : List Char) :
    ∃ (s : Segment) (after : List Char), s.text ++ after = c :: text ∧ s.Fits after := by
  by_cases quote : c = '"'
  · subst quote
    by_cases closes : '"' ∈ text
    · obtain ⟨inside, after, rfl, plain⟩ := List.eq_append_cons_of_mem closes
      exact ⟨.quoted inside true, after, by simp [Segment.text], plain, nofun⟩
    · exact ⟨.quoted text false, [], by simp [Segment.text], closes, fun _ => rfl⟩
  by_cases block : c = '/' ∧ text.head? = some '*'
  · obtain ⟨rfl, star⟩ := block
    obtain ⟨body, rfl⟩ := List.head?_eq_some_iff.mp star
    rcases first_block_mark body with ⟨inside, after, rfl, unmarked⟩ | unmarked
    · exact ⟨.block inside true, after, by simp [Segment.text], unmarked, nofun⟩
    · exact ⟨.block body false, [], by simp [Segment.text], unmarked, fun _ => rfl⟩
  by_cases line : c = '/' ∧ text.head? = some '/'
  · obtain ⟨rfl, slash⟩ := line
    obtain ⟨body, rfl⟩ := List.head?_eq_some_iff.mp slash
    by_cases ends : '\n' ∈ body
    · obtain ⟨inside, after, rfl, plain⟩ := List.eq_append_cons_of_mem ends
      exact ⟨.line inside, '\n' :: after, rfl, plain, by simp⟩
    · exact ⟨.line body, [], by simp [Segment.text], ends, by simp⟩
  refine ⟨.plain c, text, rfl, quote, ?_⟩
  intro slash next first
  constructor
  · intro second
    exact line ⟨slash, second ▸ first⟩
  · intro second
    exact block ⟨slash, second ▸ first⟩

theorem exists_divided (text : List Char) :
    ∃ segments : List Segment, segments.flatMap Segment.text = text ∧ Divided segments := by
  induction size : text.length using Nat.strong_induction_on generalizing text with
  | h n ih =>
    subst size
    cases text with
    | nil => exact ⟨[], rfl, trivial⟩
    | cons c text =>
      obtain ⟨s, after, same, fits⟩ := exists_segment c text
      have shorter : after.length < (c :: text).length := by
        rw [← same, List.length_append]
        have := s.text_length_pos
        omega
      obtain ⟨others, rfl, divided⟩ := ih after.length shorter after rfl
      exact ⟨s :: others, same, fits, divided⟩

theorem stretch_unique {m : Char} {p q x y : List Char} (hp : m ∉ p) (hq : m ∉ q)
    (hx : ∀ next ∈ x.head?, next = m) (hy : ∀ next ∈ y.head?, next = m)
    (same : p ++ x = q ++ y) : p = q ∧ x = y := by
  rcases List.append_eq_append_iff.mp same with ⟨gap, rfl, rfl⟩ | ⟨gap, rfl, rfl⟩
  · cases gap with
    | nil => simp
    | cons next gap =>
      have := hx next rfl
      simp [this] at hq
  · cases gap with
    | nil => simp
    | cons next gap =>
      have := hy next rfl
      simp [this] at hp

theorem gap_eq_nil {gap rest : List Char} (unmarked : ¬ ['*', '/'] <:+: gap)
    (front : gap ++ rest = [] ∨ ['*', '/'] <+: gap ++ rest) (back : rest = [] ∨ ['*', '/'] <+: rest) :
    gap = [] := by
  cases gap with
  | nil => rfl
  | cons c gap =>
    rcases front with none_left | marked
    · cases none_left
    · exact absurd marked (not_marked_across unmarked back)

theorem block_unique {p q x y : List Char} (hp : ¬ ['*', '/'] <:+: p) (hq : ¬ ['*', '/'] <:+: q)
    (hx : x = [] ∨ ['*', '/'] <+: x) (hy : y = [] ∨ ['*', '/'] <+: y)
    (same : p ++ x = q ++ y) : p = q ∧ x = y := by
  rcases List.append_eq_append_iff.mp same with ⟨gap, rfl, rfl⟩ | ⟨gap, rfl, rfl⟩
  · have none_left := gap_eq_nil (fun marked => hq (List.infix_append_of_infix_right marked)) hx hy
    simp [none_left]
  · have none_left := gap_eq_nil (fun marked => hp (List.infix_append_of_infix_right marked)) hy hx
    simp [none_left]

namespace Segment

theorem plain_unique {c : Char} {a b : List Char} {t : Segment} (fits : (plain c).Fits a)
    (same : c :: a = t.text ++ b) : .plain c = t ∧ a = b := by
  obtain ⟨unquoted, alone⟩ := fits
  cases t with
  | plain d =>
    obtain ⟨rfl, rfl⟩ := List.cons.inj same
    exact ⟨rfl, rfl⟩
  | quoted inside closed =>
    cases closed <;> exact absurd (List.cons.inj same).1 unquoted
  | block inside closed =>
    cases closed <;>
      obtain ⟨slash, rfl⟩ := List.cons.inj same <;> exact absurd rfl (alone slash _ rfl).2
  | line inside =>
    obtain ⟨slash, rfl⟩ := List.cons.inj same
    exact absurd rfl (alone slash _ rfl).1

theorem quoted_unique {inside a b : List Char} {closed : Bool} {t : Segment}
    (hs : (quoted inside closed).Fits a) (ht : t.Fits b)
    (same : (quoted inside closed).text ++ a = t.text ++ b) : .quoted inside closed = t ∧ a = b := by
  rw [quoted_append hs.2] at same
  cases t with
  | plain d => exact absurd (List.cons.inj same).1.symm ht.1
  | quoted other shut =>
    rw [quoted_append ht.2] at same
    obtain ⟨rfl, rest⟩ := stretch_unique hs.1 ht.1 (head?_behind_quote closed a)
      (head?_behind_quote shut b) (List.cons.inj same).2
    obtain ⟨rfl, rfl⟩ := behind_inj (by simp) hs.2 ht.2 rest
    exact ⟨rfl, rfl⟩
  | block other shut =>
    rw [block_append ht.2] at same
    cases same
  | line other => cases same

theorem block_comment_unique {inside a b : List Char} {closed : Bool} {t : Segment}
    (hs : (block inside closed).Fits a) (ht : t.Fits b)
    (same : (block inside closed).text ++ a = t.text ++ b) : .block inside closed = t ∧ a = b := by
  cases t with
  | plain d =>
    obtain ⟨wrong, -⟩ := plain_unique ht same.symm
    cases wrong
  | quoted other shut =>
    obtain ⟨wrong, -⟩ := quoted_unique ht hs same.symm
    cases wrong
  | block other shut =>
    rw [block_append hs.2, block_append ht.2] at same
    have bodies := (List.cons.inj (List.cons.inj same).2).2
    obtain ⟨rfl, rest⟩ := block_unique hs.1 ht.1 (behind_block closed a) (behind_block shut b) bodies
    obtain ⟨rfl, rfl⟩ := behind_inj (by simp) hs.2 ht.2 rest
    exact ⟨rfl, rfl⟩
  | line other =>
    rw [block_append hs.2] at same
    cases same

theorem Fits.unique {s t : Segment} {a b : List Char} (hs : s.Fits a) (ht : t.Fits b)
    (same : s.text ++ a = t.text ++ b) : s = t ∧ a = b := by
  cases s with
  | plain c => exact plain_unique hs same
  | quoted inside closed => exact quoted_unique hs ht same
  | block inside closed => exact block_comment_unique hs ht same
  | line inside =>
    cases t with
    | plain d =>
      obtain ⟨wrong, -⟩ := plain_unique ht same.symm
      cases wrong
    | quoted other shut =>
      obtain ⟨wrong, -⟩ := quoted_unique ht hs same.symm
      cases wrong
    | block other shut =>
      obtain ⟨wrong, -⟩ := block_comment_unique ht hs same.symm
      cases wrong
    | line other =>
      have bodies := (List.cons.inj (List.cons.inj same).2).2
      obtain ⟨rfl, rfl⟩ := stretch_unique hs.1 ht.1 hs.2 ht.2 bodies
      exact ⟨rfl, rfl⟩

end Segment

theorem segments_eq_nil {segments : List Segment} (nothing : segments.flatMap Segment.text = []) :
    segments = [] := by
  cases segments with
  | nil => rfl
  | cons s segments =>
    have filled := s.text_length_pos
    rw [List.flatMap_cons, List.append_eq_nil_iff] at nothing
    rw [nothing.1] at filled
    cases filled

theorem divided_unique {segments others : List Segment} (divided : Divided segments)
    (divided' : Divided others)
    (same : segments.flatMap Segment.text = others.flatMap Segment.text) : segments = others := by
  induction segments generalizing others with
  | nil => exact (segments_eq_nil same.symm).symm
  | cons s segments ih =>
    cases others with
    | nil => exact segments_eq_nil same
    | cons t others =>
      obtain ⟨rfl, rest⟩ := divided.1.unique divided'.1 same
      rw [ih divided.2 divided'.2 rest]

/-- Quotes and comments divide every text in one way. Erasing the comments keeps the plain characters
    and the quotes as they are, of a block comment its line feeds, and of a line comment nothing. -/
theorem uncomment_erases_exactly_comments (text : String) :
    ∃ segments : List Segment, segments.flatMap Segment.text = text.toList ∧ Divided segments ∧
      (∀ others : List Segment, others.flatMap Segment.text = text.toList → Divided others →
        others = segments) ∧
      uncomment text = String.ofList (segments.flatMap Segment.kept) := by
  obtain ⟨segments, same, divided⟩ := exists_divided text.toList
  refine ⟨segments, same, divided, ?_, ?_⟩
  · intro others written divided'
    exact divided_unique divided' divided (written.trans same.symm)
  · rw [uncomment, ← same, uncommentFrom_divided divided]

example : uncomment "/*/\n*/x\"//" = "\nx\"//" := by decide

end SigScan.Text
