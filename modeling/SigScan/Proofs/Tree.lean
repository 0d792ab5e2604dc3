import SigScan.KeyValues.Node
import SigScan.Proofs.ByteOrder
import Mathlib.Data.List.Forall2

namespace SigScan.KeyValues

def valuesOf (key : String) (entries : List (String × Node)) : List Node :=
  (entries.filter (·.1 = key)).map (·.2)

def Ascending (entries : List (String × Node)) : Prop :=
  entries.Pairwise fun a b => Text.utf8 a.1 ≤ Text.utf8 b.1

instance (entries : List (String × Node)) : Decidable (Ascending entries) :=
  inferInstanceAs (Decidable (entries.Pairwise fun a b => Text.utf8 a.1 ≤ Text.utf8 b.1))

inductive Node.Sorted : Node → Prop
  | text (value : String) : Sorted (.text value)
  | object {entries : List (String × Node)} (ascending : Ascending entries)
      (within : ∀ entry ∈ entries, Sorted entry.2) : Sorted (.object entries)

/-- `arranged` is `given` with the keys of every object in order, and with the values of each key in
    the order in which they were given. -/
inductive Node.Arranged : (given arranged : Node) → Prop
  | text (value : String) : Arranged (.text value) (.text value)
  | object {given arranged : List (String × Node)} (ascending : Ascending arranged)
      (values : ∀ key, List.Forall₂ Arranged (valuesOf key given) (valuesOf key arranged)) :
      Arranged (.object given) (.object arranged)

mutual

def Node.sorted : Node → Node
  | .text value => .text value
  | .object entries => .ofEntries (sortedWithin entries)

def sortedWithin : List (String × Node) → List (String × Node)
  | [] => []
  | (key, node) :: entries => (key, node.sorted) :: sortedWithin entries

end

theorem valuesOf_cons (key : String) (entry : String × Node) (entries : List (String × Node)) :
    valuesOf key (entry :: entries) =
      (if entry.1 = key then [entry.2] else []) ++ valuesOf key entries := by
  by_cases same : entry.1 = key
  · simp [valuesOf, same]
  · simp [valuesOf, same]

theorem keys_le_trans (a b c : String × Node) (first : decide (a.1 ≤ b.1) = true)
    (second : decide (b.1 ≤ c.1) = true) : decide (a.1 ≤ c.1) = true :=
  decide_eq_true (le_trans (of_decide_eq_true first) (of_decide_eq_true second))

theorem keys_le_total (a b : String × Node) : (decide (a.1 ≤ b.1) || decide (b.1 ≤ a.1)) = true := by
  simpa using le_total a.1 b.1

theorem sortEntries_perm (entries : List (String × Node)) : (sortEntries entries).Perm entries :=
  List.mergeSort_perm entries _

theorem sortEntries_ascending (entries : List (String × Node)) : Ascending (sortEntries entries) := by
  have sorted : (sortEntries entries).Pairwise fun a b => decide (a.1 ≤ b.1) = true :=
    List.pairwise_mergeSort keys_le_trans keys_le_total entries
  exact sorted.imp fun below => (Text.le_iff_utf8_le _ _).mp (of_decide_eq_true below)

theorem valuesOf_sortEntries (key : String) (entries : List (String × Node)) :
    valuesOf key (sortEntries entries) = valuesOf key entries := by
  have kept : List.Sublist (entries.filter (·.1 = key)) (sortEntries entries) := by
    apply List.sublist_mergeSort keys_le_trans keys_le_total
    · apply List.pairwise_of_forall_mem_list
      intro a left b right
      have first := of_decide_eq_true (List.mem_filter.mp left).2
      have second := of_decide_eq_true (List.mem_filter.mp right).2
      exact decide_eq_true (le_of_eq (first.trans second.symm))
    · exact List.filter_sublist
  have inside := kept.filter (·.1 = key)
  simp only [List.filter_filter, Bool.and_self] at inside
  have sizes := ((sortEntries_perm entries).filter (·.1 = key)).length_eq
  rw [valuesOf, valuesOf, inside.eq_of_length sizes.symm]

theorem valuesOf_sortedWithin (key : String) (entries : List (String × Node)) :
    valuesOf key (sortedWithin entries) = (valuesOf key entries).map Node.sorted := by
  induction entries with
  | nil => rfl
  | cons entry entries ih =>
    rw [sortedWithin, valuesOf_cons, valuesOf_cons, ih, List.map_append]
    by_cases same : entry.1 = key
    · simp [same]
    · simp [same]

theorem mem_valuesOf {key : String} {entries : List (String × Node)} {node : Node} :
    node ∈ valuesOf key entries ↔ (key, node) ∈ entries := by
  simp [valuesOf]

theorem Node.Sorted.ascending {entries : List (String × Node)} (sorted : (Node.object entries).Sorted) :
    Ascending entries := by
  cases sorted with
  | object ascending within => exact ascending

theorem Node.Sorted.within {entries : List (String × Node)} (sorted : (Node.object entries).Sorted)
    {key : String} {node : Node} (member : (key, node) ∈ entries) : node.Sorted := by
  cases sorted with
  | object ascending within => exact within _ member

theorem sortEntries_of_ascending {entries : List (String × Node)} (ascending : Ascending entries) :
    sortEntries entries = entries :=
  List.mergeSort_of_pairwise
    (ascending.imp fun below => decide_eq_true ((Text.le_iff_utf8_le _ _).mpr below))

mutual

theorem Node.Sorted.sorted_eq : (node : Node) → node.Sorted → node.sorted = node
  | .text value, _ => rfl
  | .object entries, sorted => by
    have within := sortedWithin_eq entries fun entry member => sorted.within member
    rw [Node.sorted, within, Node.ofEntries, sortEntries_of_ascending sorted.ascending]

theorem sortedWithin_eq : (entries : List (String × Node)) → (∀ entry ∈ entries, entry.2.Sorted) →
    sortedWithin entries = entries
  | [], _ => rfl
  | (key, node) :: entries, within => by
    obtain ⟨first, others⟩ := List.forall_mem_cons.mp within
    rw [sortedWithin, Node.Sorted.sorted_eq node first, sortedWithin_eq entries others]

end

mutual

theorem Node.arranged_sorted : (node : Node) → node.Arranged node.sorted
  | .text value => .text value
  | .object entries => by
    refine .object (sortEntries_ascending _) fun key => ?_
    rw [valuesOf_sortEntries, valuesOf_sortedWithin, List.forall₂_map_right_iff, List.forall₂_same]
    exact fun node member => arranged_within entries (key, node) (mem_valuesOf.mp member)

theorem arranged_within : (entries : List (String × Node)) →
    ∀ entry ∈ entries, entry.2.Arranged entry.2.sorted
  | [] => by simp
  | (key, node) :: entries => by
    have first := Node.arranged_sorted node
    have others := arranged_within entries
    intro entry member
    rcases List.mem_cons.mp member with rfl | member
    · exact first
    · exact others entry member

end

end SigScan.KeyValues
