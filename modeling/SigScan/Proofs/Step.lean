import SigScan.Proofs.Tree

namespace SigScan.Text

theorem sameWord_iff {a b : String} :
    sameWord a b = true ↔ a.toList.map Char.toLower = b.toList.map Char.toLower := by
  have lowered (text : String) : text.toLower.toList = text.toList.map Char.toLower :=
    String.toList_map
  rw [sameWord, beq_iff_eq, ← String.toList_inj, lowered, lowered]

end SigScan.Text

namespace SigScan.KeyValues

/-- A step down into an object: a key, and which of its values is meant, counted from 0. -/
structure Step where
  key : String
  index : Nat
deriving DecidableEq, Repr

def Step.Before (a b : Step) : Prop :=
  Text.utf8 a.key < Text.utf8 b.key ∨ a.key = b.key ∧ a.index < b.index

def ValueAt (entries : List (String × Node)) (s : Step) (node : Node) : Prop :=
  (valuesOf s.key entries)[s.index]? = some node

def stepsFrom (passed : List String) : List (String × Node) → List (Step × Node)
  | [] => []
  | (key, node) :: entries => (⟨key, passed.count key⟩, node) :: stepsFrom (key :: passed) entries

theorem mem_stepsFrom {passed : List String} {entries : List (String × Node)} {s : Step} {node : Node} :
    (s, node) ∈ stepsFrom passed entries ↔ passed.count s.key ≤ s.index ∧
      (valuesOf s.key entries)[s.index - passed.count s.key]? = some node := by
  induction entries generalizing passed with
  | nil => simp [stepsFrom, valuesOf]
  | cons entry entries ih =>
    obtain ⟨key, first⟩ := entry
    obtain ⟨name, index⟩ := s
    simp only [stepsFrom, List.mem_cons, ih, valuesOf_cons, List.count_cons, beq_iff_eq]
    by_cases same : key = name
    · subst same
      simp only [↓reduceIte, Prod.mk.injEq, Step.mk.injEq, true_and, List.singleton_append]
      generalize passed.count key = n
      rcases Nat.lt_trichotomy index n with before | rfl | behind
      · have early : ¬ n ≤ index := by omega
        have apart : index ≠ n := by omega
        have earlier : ¬ n + 1 ≤ index := by omega
        simp [early, apart, earlier]
      · have early : ¬ index + 1 ≤ index := by omega
        simp [early, eq_comm]
      · have apart : index ≠ n := by omega
        have late : n ≤ index := by omega
        have later : n + 1 ≤ index := by omega
        have moved : index - n = index - (n + 1) + 1 := by omega
        simp [apart, late, later, moved]
    · have apart : name ≠ key := Ne.symm same
      simp [same, apart]

theorem key_mem_of_stepsFrom {passed : List String} {entries : List (String × Node)} {s : Step}
    {node : Node} (member : (s, node) ∈ stepsFrom passed entries) : (s.key, node) ∈ entries :=
  mem_valuesOf.mp (List.mem_of_getElem? (mem_stepsFrom.mp member).2)

theorem stepsFrom_ascend {passed : List String} {entries : List (String × Node)}
    (ascending : Ascending entries) :
    (stepsFrom passed entries).Pairwise fun a b => a.1.Before b.1 := by
  induction entries generalizing passed with
  | nil => exact .nil
  | cons entry entries ih =>
    obtain ⟨key, first⟩ := entry
    obtain ⟨below, tail⟩ := List.pairwise_cons.mp ascending
    refine List.pairwise_cons.mpr ⟨?_, ih tail⟩
    intro later member
    obtain ⟨s, node⟩ := later
    by_cases same : key = s.key
    · have behind := (mem_stepsFrom.mp member).1
      rw [same, List.count_cons_self] at behind
      rw [same]
      exact .inr ⟨rfl, behind⟩
    · left
      have order := (Text.le_iff_utf8_le _ _).mpr (below _ (key_mem_of_stepsFrom member))
      exact (Text.lt_iff_utf8_lt _ _).mp (lt_of_le_of_ne order same)

theorem map_stepsFrom (passed : List String) (entries : List (String × Node)) :
    (stepsFrom passed entries).map (fun x => (x.1.key, x.2)) = entries := by
  induction entries generalizing passed with
  | nil => rfl
  | cons entry entries ih => rw [stepsFrom, List.map_cons, ih]

def steps (entries : List (String × Node)) : List (Step × Node) := stepsFrom [] entries

theorem mem_steps {entries : List (String × Node)} {s : Step} {node : Node} :
    (s, node) ∈ steps entries ↔ ValueAt entries s node := by
  simp [steps, mem_stepsFrom, ValueAt]

theorem ValueAt.mem {entries : List (String × Node)} {s : Step} {node : Node}
    (found : ValueAt entries s node) : (s.key, node) ∈ entries :=
  key_mem_of_stepsFrom (mem_steps.mpr found)

section Pick

variable {α : Type} (pick : String → Node → Option α)

def picked (entries : List (String × Node)) : List (Step × α) :=
  (steps entries).filterMap fun x => (pick x.1.key x.2).map fun a => (x.1, a)

theorem map_picked (entries : List (String × Node)) :
    (picked pick entries).map (fun x => (x.1.key, x.2)) =
      entries.filterMap fun entry => (pick entry.1 entry.2).map fun a => (entry.1, a) := by
  conv_rhs => rw [← map_stepsFrom [] entries]
  rw [picked, steps, List.map_filterMap, List.filterMap_map]
  congr 1
  funext x
  simp [Function.comp_def]

variable {pick}

theorem mem_picked {entries : List (String × Node)} {s : Step} {a : α} :
    (s, a) ∈ picked pick entries ↔ ∃ node, ValueAt entries s node ∧ pick s.key node = some a := by
  rw [picked, List.mem_filterMap]
  constructor
  · intro chosen
    obtain ⟨⟨s', node⟩, member, found⟩ := chosen
    obtain ⟨a', taken, same⟩ := Option.map_eq_some_iff.mp found
    cases same
    exact ⟨node, mem_steps.mp member, taken⟩
  · intro chosen
    obtain ⟨node, member, taken⟩ := chosen
    exact ⟨(s, node), mem_steps.mpr member, by simp [taken]⟩

theorem picked_ascend {entries : List (String × Node)} (ascending : Ascending entries) :
    (picked pick entries).Pairwise fun a b => a.1.Before b.1 := by
  rw [picked, List.pairwise_filterMap]
  apply (stepsFrom_ascend ascending).imp
  intro a b before x first y second
  obtain ⟨_, -, rfl⟩ := Option.map_eq_some_iff.mp first
  obtain ⟨_, -, rfl⟩ := Option.map_eq_some_iff.mp second
  exact before

end Pick

def Node.object? : Node → Option (List (String × Node))
  | .text _ => none
  | .object entries => some entries

def Node.text? : Node → Option String
  | .text value => some value
  | .object _ => none

def objectUnder? (word key : String) (node : Node) : Option (List (String × Node)) :=
  if Text.sameWord key word then node.object? else none

def textUnder? (word key : String) (node : Node) : Option String :=
  if Text.sameWord key word then node.text? else none

theorem object?_eq_some_iff {node : Node} {inner : List (String × Node)} :
    node.object? = some inner ↔ node = .object inner := by
  cases node <;> simp [Node.object?]

theorem mem_picked_object {entries inner : List (String × Node)} {s : Step} :
    (s, inner) ∈ picked (fun _ node => node.object?) entries ↔ ValueAt entries s (.object inner) := by
  simp [mem_picked, object?_eq_some_iff]

theorem mem_picked_under {word : String} {entries inner : List (String × Node)} {s : Step} :
    (s, inner) ∈ picked (objectUnder? word) entries ↔
      Text.sameWord s.key word = true ∧ ValueAt entries s (.object inner) := by
  rw [mem_picked]
  by_cases spelt : Text.sameWord s.key word = true
  · simp [objectUnder?, spelt, object?_eq_some_iff]
  · simp [objectUnder?, spelt]

theorem objects_eq_picked (entries : List (String × Node)) :
    objects entries = (picked (fun _ node => node.object?) entries).map fun x => (x.1.key, x.2) := by
  rw [map_picked, objects]
  congr 1
  funext entry
  obtain ⟨key, node⟩ := entry
  cases node <;> rfl

theorem objects_under_eq_picked (word : String) (entries : List (String × Node)) :
    objects (under word entries) =
      (picked (objectUnder? word) entries).map fun x => (x.1.key, x.2) := by
  rw [map_picked, objects, under, List.filterMap_filter]
  congr 1
  funext entry
  obtain ⟨key, node⟩ := entry
  by_cases spelt : Text.sameWord key word = true
  · cases node <;> simp [objectUnder?, spelt, Node.object?]
  · simp [objectUnder?, spelt]

/-- The first text under a word in any case, if there is one: spellings go by their bytes, and values
    of one spelling as they were given. Objects do not count. -/
def FirstText (word : String) (entries : List (String × Node)) : Option String → Prop
  | some value => ∃ s : Step, Text.sameWord s.key word = true ∧ ValueAt entries s (.text value) ∧
      ∀ (other : Step) (text : String), Text.sameWord other.key word = true →
        ValueAt entries other (.text text) → other = s ∨ s.Before other
  | none => ∀ (s : Step) (text : String), Text.sameWord s.key word = true →
      ¬ ValueAt entries s (.text text)

theorem mem_picked_text {word : String} {entries : List (String × Node)} {s : Step} {value : String} :
    (s, value) ∈ picked (textUnder? word) entries ↔
      Text.sameWord s.key word = true ∧ ValueAt entries s (.text value) := by
  rw [mem_picked]
  constructor
  · intro chosen
    obtain ⟨node, found, taken⟩ := chosen
    by_cases spelt : Text.sameWord s.key word = true
    · cases node with
      | text value' =>
        simp only [textUnder?, spelt, ↓reduceIte, Node.text?, Option.some.injEq] at taken
        subst taken
        exact ⟨spelt, found⟩
      | object inner => simp [textUnder?, spelt, Node.text?] at taken
    · simp [textUnder?, spelt] at taken
  · intro found
    exact ⟨_, found.2, by simp [textUnder?, found.1, Node.text?]⟩

theorem text?_eq_head? (word : String) (entries : List (String × Node)) :
    text? word entries = (entries.filterMap fun entry => textUnder? word entry.1 entry.2).head? := by
  induction entries with
  | nil => rfl
  | cons entry entries ih =>
    obtain ⟨key, node⟩ := entry
    rw [text?, under] at ih ⊢
    by_cases spelt : Text.sameWord key word = true
    · cases node with
      | text value => simp [textUnder?, spelt, Node.text?]
      | object inner => simp [textUnder?, spelt, Node.text?, ih]
    · simp [textUnder?, spelt, ih]

theorem text?_eq_picked (word : String) (entries : List (String × Node)) :
    text? word entries = (picked (textUnder? word) entries).head?.map Prod.snd := by
  have values := congrArg (List.map Prod.snd) (map_picked (textUnder? word) entries)
  simp only [List.map_map, List.map_filterMap, Option.map_map, Function.comp_def, Option.map_id'] at values
  rw [text?_eq_head?, ← values, List.head?_map]

theorem text?_first {entries : List (String × Node)} (ascending : Ascending entries) (word : String) :
    FirstText word entries (text? word entries) := by
  have ascend : (picked (textUnder? word) entries).Pairwise fun a b => a.1.Before b.1 :=
    picked_ascend ascending
  rw [text?_eq_picked]
  cases listed : picked (textUnder? word) entries with
  | nil =>
    intro s text spelt found
    have member := mem_picked_text.mpr ⟨spelt, found⟩
    rw [listed] at member
    cases member
  | cons first others =>
    obtain ⟨s, value⟩ := first
    have here : (s, value) ∈ picked (textUnder? word) entries := by
      rw [listed]
      exact List.mem_cons_self
    obtain ⟨spelt, found⟩ := mem_picked_text.mp here
    refine ⟨s, spelt, found, ?_⟩
    intro other text spelt' found'
    have member := mem_picked_text.mpr ⟨spelt', found'⟩
    rw [listed] at member ascend
    rcases List.mem_cons.mp member with same | later
    · cases same
      exact .inl rfl
    · exact .inr (List.rel_of_pairwise_cons ascend later)

end SigScan.KeyValues
