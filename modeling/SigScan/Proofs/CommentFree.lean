import Mathlib.Algebra.Group.Nat.Even
import SigScan.Proofs.Segment

namespace SigScan.Text

def OpensComment (text : List Char) : Prop := ['/', '/'] <+: text ∨ ['/', '*'] <+: text

/-- No comment starts outside quotes in a text whose front is `quoted` or not. A place is outside
    quotes if the quote signs in front of it are even in number, one more for a quoted front. -/
def CommentFreeFrom (quoted : Bool) (text : List Char) : Prop :=
  ∀ before after, before ++ after = text → Even (before.count '"' + quoted.toNat) →
    ¬ OpensComment after

def CommentFree (text : String) : Prop := CommentFreeFrom false text.toList

theorem not_opensComment_nil : ¬ OpensComment [] := by
  simp [OpensComment]

theorem opensComment_cons {c : Char} {text : List Char} :
    OpensComment (c :: text) ↔ c = '/' ∧ ∃ next ∈ text.head?, next = '/' ∨ next = '*' := by
  cases text with
  | nil => simp [OpensComment]
  | cons d text => simp [OpensComment, eq_comm, ← and_or_left]

theorem plain_fits_iff {c : Char} {text : List Char} :
    (Segment.plain c).Fits text ↔ c ≠ '"' ∧ ¬ OpensComment (c :: text) := by
  rw [Segment.Fits, opensComment_cons]
  simp [not_or]

theorem not_opensComment_of_ne {c : Char} (other : c ≠ '/') (text : List Char) :
    ¬ OpensComment (c :: text) :=
  fun opens => other (opensComment_cons.mp opens).1

theorem commentFreeFrom_nil (quoted : Bool) : CommentFreeFrom quoted [] := by
  intro before after same _
  rw [(List.append_eq_nil_iff.mp same).2]
  exact not_opensComment_nil

theorem even_count_cons_iff {c : Char} {before : List Char} {quoted : Bool} :
    Even ((c :: before).count '"' + quoted.toNat) ↔
      Even (before.count '"' + (quoted ^^ c == '"').toNat) := by
  rw [List.count_cons]
  cases c == '"' <;> cases quoted <;> simp [Nat.even_add_one]

theorem commentFreeFrom_cons {quoted : Bool} {c : Char} {text : List Char} :
    CommentFreeFrom quoted (c :: text) ↔
      (quoted = false → ¬ OpensComment (c :: text)) ∧ CommentFreeFrom (quoted ^^ c == '"') text := by
  constructor
  · intro free
    constructor
    · intro outside
      subst outside
      exact free [] (c :: text) rfl (by simp)
    · intro before after same outside
      exact free (c :: before) after (congrArg (c :: ·) same) (even_count_cons_iff.mpr outside)
  · intro free before after same outside
    obtain ⟨front, later⟩ := free
    cases before with
    | nil =>
      have unquoted : quoted = false := by
        cases quoted with
        | false => rfl
        | true => simp at outside
      rw [List.nil_append] at same
      rw [same]
      exact front unquoted
    | cons d before =>
      obtain ⟨rfl, rest⟩ := List.cons.inj same
      exact later before after rest (even_count_cons_iff.mp outside)

theorem commentFreeFrom_quote {quoted : Bool} {text : List Char} :
    CommentFreeFrom quoted ('"' :: text) ↔ CommentFreeFrom (!quoted) text := by
  rw [commentFreeFrom_cons, beq_self_eq_true, Bool.xor_true]
  exact and_iff_right fun _ => not_opensComment_of_ne (by decide) text

theorem commentFreeFrom_unquote {quoted : Bool} {c : Char} {text : List Char} (unquoted : c ≠ '"') :
    CommentFreeFrom quoted (c :: text) ↔
      (quoted = false → ¬ OpensComment (c :: text)) ∧ CommentFreeFrom quoted text := by
  rw [commentFreeFrom_cons, beq_eq_false_iff_ne.mpr unquoted, Bool.xor_false]

theorem head?_uncommentFrom {c : Char} (other : c ≠ '/') (text : List Char) :
    (uncommentFrom .plain (c :: text)).head? = some c := by
  by_cases quote : c = '"'
  · subst quote
    rfl
  · rw [uncommentFrom_plain_cons (plain_fits_iff.mpr ⟨quote, not_opensComment_of_ne other text⟩)]
    rfl

theorem not_opensComment_uncommentFrom {c : Char} {text : List Char}
    (plain : ¬ OpensComment (c :: text)) : ¬ OpensComment (c :: uncommentFrom .plain text) := by
  intro opens
  obtain ⟨slash, next, first, mark⟩ := opensComment_cons.mp opens
  cases text with
  | nil => cases first
  | cons d text =>
    have other : d ≠ '/' := by
      intro same
      exact plain (opensComment_cons.mpr ⟨slash, d, rfl, .inl same⟩)
    rw [head?_uncommentFrom other text] at first
    exact plain (opensComment_cons.mpr ⟨slash, next, first, mark⟩)

/-- The scanner is inside quotes just where the text that it has kept is. -/
theorem commentFreeFrom_uncommentFrom (within : Surroundings) (text : List Char) :
    CommentFreeFrom (within == .quotes) (uncommentFrom within text) := by
  fun_induction uncommentFrom within text with
  | case1 within => exact commentFreeFrom_nil _
  | case3 text ih | case4 text ih | case8 text ih | case10 c text _ _ ih | case12 c text _ ih => exact ih
  | case2 text ih | case6 text ih => exact commentFreeFrom_quote.mpr ih
  | case5 c text unquoted noBlock noLine ih =>
    have plain : ¬ OpensComment (c :: text) := by
      intro opens
      obtain ⟨slash, next, first, mark⟩ := opensComment_cons.mp opens
      obtain ⟨rest, rfl⟩ := List.head?_eq_some_iff.mp first
      rcases mark with rfl | rfl
      · exact noLine rest slash rfl
      · exact noBlock rest slash rfl
    exact (commentFreeFrom_unquote unquoted).mpr ⟨fun _ => not_opensComment_uncommentFrom plain, ih⟩
  | case7 c text unquoted ih =>
    refine (commentFreeFrom_unquote unquoted).mpr ⟨?_, ih⟩
    intro outside
    cases outside
  | case9 text ih | case11 text ih =>
    exact (commentFreeFrom_unquote (by decide)).mpr ⟨fun _ => not_opensComment_of_ne (by decide) _, ih⟩

theorem uncommentFrom_of_commentFree {text : List Char} :
    (CommentFreeFrom false text → uncommentFrom .plain text = text) ∧
      (CommentFreeFrom true text → uncommentFrom .quotes text = text) := by
  induction text with
  | nil => exact ⟨fun _ => rfl, fun _ => rfl⟩
  | cons c text ih =>
    obtain ⟨outside, inside⟩ := ih
    by_cases quote : c = '"'
    · subst quote
      rw [commentFreeFrom_quote, commentFreeFrom_quote, uncommentFrom, uncommentFrom]
      exact ⟨fun free => congrArg ('"' :: ·) (inside free), fun free => congrArg ('"' :: ·) (outside free)⟩
    · rw [commentFreeFrom_unquote quote, commentFreeFrom_unquote quote]
      constructor
      · intro free
        obtain ⟨front, later⟩ := free
        rw [uncommentFrom_plain_cons (plain_fits_iff.mpr ⟨quote, front rfl⟩), outside later]
      · intro free
        have apart : '"' ∉ [c] := fun member => quote (List.mem_singleton.mp member).symm
        have kept := uncommentFrom_quotes apart text
        rw [inside free.2] at kept
        exact kept

theorem commentFree_uncomment (text : String) : CommentFree (uncomment text) := by
  rw [CommentFree, uncomment, String.toList_ofList]
  exact commentFreeFrom_uncommentFrom .plain text.toList

theorem uncomment_of_commentFree {text : String} (free : CommentFree text) : uncomment text = text := by
  rw [uncomment, uncommentFrom_of_commentFree.1 free, String.ofList_toList]

/-- Erasing the comments leaves a text without comments, and leaves alone just the texts without
    comments. So there is nothing to erase a second time. -/
theorem uncomment_projects_onto_comment_free :
    (∀ text, CommentFree (uncomment text)) ∧
    (∀ text, uncomment text = text ↔ CommentFree text) ∧
    ∀ text, uncomment (uncomment text) = uncomment text := by
  refine ⟨commentFree_uncomment, ?_, ?_⟩
  · intro text
    constructor
    · intro same
      rw [← same]
      exact commentFree_uncomment text
    · exact uncomment_of_commentFree
  · intro text
    exact uncomment_of_commentFree (commentFree_uncomment text)

example : uncomment "\"//\"/*\"*/\"/*" = "\"//\"\"/*" := by decide

end SigScan.Text
