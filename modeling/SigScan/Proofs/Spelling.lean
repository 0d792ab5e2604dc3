import Mathlib.Data.List.Forall2
import SigScan.Proofs.Reading
import SigScan.Proofs.Record

namespace SigScan.KeyValues

def Respelling (words : List String) (values : Node → Node → Prop) (a b : String × Node) : Prop :=
  a = b ∨ ∃ word ∈ words, Text.sameWord a.1 word = true ∧ Text.sameWord b.1 word = true ∧ values a.2 b.2

inductive Node.Matches (entry : String × Node → String × Node → Prop) : Node → Node → Prop
  | text (value : String) : Matches entry (.text value) (.text value)
  | object {entries entries' : List (String × Node)} (each : List.Forall₂ entry entries entries') :
      Matches entry (.object entries) (.object entries')

def Document.sorted (d : Document) : Document := ⟨d.key, d.value.sorted⟩

section Sorting

variable {α : Type} {l l' : List (String × Node)} {f g : String × Node → List α}

theorem sortedWithin_eq_map (l : List (String × Node)) :
    sortedWithin l = l.map fun e => (e.1, e.2.sorted) := by
  induction l with
  | nil => rfl
  | cons e l ih => rw [sortedWithin, ih, List.map_cons]

theorem forall₂_imp_of_mem {R S : String × Node → String × Node → Prop} (each : List.Forall₂ R l l')
    (step : ∀ a ∈ l, ∀ b, R a b → S a b) : List.Forall₂ S l l' := by
  induction each with
  | nil => exact .nil
  | cons first _ ih =>
    obtain ⟨here, there⟩ := List.forall_mem_cons.mp step
    exact .cons (here _ first) (ih there)

theorem flatMap_congr₂ (each : List.Forall₂ (fun a b => f a = g b) l l') :
    l.flatMap f = l'.flatMap g := by
  induction each with
  | nil => rfl
  | cons first _ ih => rw [List.flatMap_cons, List.flatMap_cons, first, ih]

theorem forall₂_sortEntries {R : String × Node → String × Node → Prop} (keys : ∀ a b, R a b → a.1 = b.1)
    (each : List.Forall₂ R l l') : List.Forall₂ R (sortEntries l) (sortEntries l') := by
  obtain ⟨lengths, related⟩ := List.forall₂_iff_zip.mp each
  let below (a b : String × Node) : Bool := a.1 ≤ b.1
  let sorted := (l.zip l').mergeSort fun a b => below a.1 b.1
  have member : ∀ pair ∈ sorted, R pair.1 pair.2 := fun pair there =>
    related ((List.mergeSort_perm _ _).mem_iff.mp there)
  have left : sorted.map Prod.fst = sortEntries l := by
    have moved : sorted.map Prod.fst = ((l.zip l').map Prod.fst).mergeSort below :=
      List.map_mergeSort fun _ _ _ _ => rfl
    rw [moved, List.map_fst_zip (Nat.le_of_eq lengths), sortEntries]
  have right : sorted.map Prod.snd = sortEntries l' := by
    have moved : sorted.map Prod.snd = ((l.zip l').map Prod.snd).mergeSort below := by
      apply List.map_mergeSort
      intro a first b second
      simp only [below, keys _ _ (related first), keys _ _ (related second)]
    rw [moved, List.map_snd_zip (Nat.le_of_eq lengths.symm), sortEntries]
  rw [← left, ← right, List.forall₂_map_left_iff, List.forall₂_map_right_iff, List.forall₂_same]
  exact member

theorem flatMap_sorted (each : List.Forall₂
      (fun a b => a.1 = b.1 ∧ f (a.1, a.2.sorted) = g (b.1, b.2.sorted)) l l') :
    (sortEntries (sortedWithin l)).flatMap f = (sortEntries (sortedWithin l')).flatMap g := by
  have moved : List.Forall₂ (fun a b => a.1 = b.1 ∧ f a = g b) (sortedWithin l) (sortedWithin l') := by
    rw [sortedWithin_eq_map, sortedWithin_eq_map, List.forall₂_map_left_iff, List.forall₂_map_right_iff]
    exact each
  apply flatMap_congr₂
  exact (forall₂_sortEntries (fun _ _ related => related.1) moved).imp fun _ _ related => related.2

theorem eq_of_perm_of_length_le_one {α : Type} {l l' : List α} (perm : l.Perm l')
    (single : l'.length ≤ 1) : l = l' := by
  match l' with
  | [] => exact perm.eq_nil
  | [_] => exact List.perm_singleton.mp perm
  | _ :: _ :: _ => simp at single

theorem under_sorted {word : String} (single : (under word l).length ≤ 1) :
    under word (sortEntries (sortedWithin l)) = (under word l).map fun e => (e.1, e.2.sorted) := by
  have within : under word (sortedWithin l) = (under word l).map fun e => (e.1, e.2.sorted) := by
    rw [sortedWithin_eq_map, under, under, List.filter_map]
    rfl
  have few : (under word (sortedWithin l)).length ≤ 1 := by rwa [within, List.length_map]
  rw [← within]
  exact eq_of_perm_of_length_le_one ((sortEntries_perm _).filter _) few

theorem under_cons (word : String) (e : String × Node) (l : List (String × Node)) :
    under word (e :: l) = if Text.sameWord e.1 word then e :: under word l else under word l :=
  List.filter_cons

theorem forall₂_under {R : String × Node → String × Node → Prop} {word : String}
    (each : List.Forall₂ (fun a b => Text.sameWord a.1 word = Text.sameWord b.1 word ∧
      (Text.sameWord a.1 word = true → R a b)) l l') :
    List.Forall₂ R (under word l) (under word l') := by
  induction each with
  | nil => exact .nil
  | @cons a b _ _ first _ ih =>
    obtain ⟨keys, values⟩ := first
    rw [under_cons, under_cons, ← keys]
    by_cases spelt : Text.sameWord a.1 word = true
    · rw [if_pos spelt, if_pos spelt]
      exact .cons (values spelt) ih
    · rw [if_neg spelt, if_neg spelt]
      exact ih

theorem flatMap_under_sorted {word : String} (single : (under word l).length ≤ 1)
    (each : List.Forall₂ (fun a b => Text.sameWord a.1 word = Text.sameWord b.1 word ∧
      (Text.sameWord a.1 word = true → f (a.1, a.2.sorted) = g (b.1, b.2.sorted))) l l') :
    (under word (sortEntries (sortedWithin l))).flatMap f =
      (under word (sortEntries (sortedWithin l'))).flatMap g := by
  have chosen := forall₂_under each
  have single' : (under word l').length ≤ 1 := chosen.length_eq ▸ single
  rw [under_sorted single, under_sorted single', List.flatMap_map, List.flatMap_map]
  exact flatMap_congr₂ chosen

end Sorting

def Node.inside {α : Type} (f : List (String × Node) → List α) : Node → List α
  | .object entries => f entries
  | .text _ => []

theorem flatMap_objects {α : Type} (f : String × List (String × Node) → List α)
    (l : List (String × Node)) :
    (objects l).flatMap f = l.flatMap fun e => e.2.inside fun entries => f (e.1, entries) := by
  induction l with
  | nil => rfl
  | cons e l ih =>
    obtain ⟨key, node⟩ := e
    rw [List.flatMap_cons, ← ih]
    cases node <;> rfl

theorem text?_eq_under (word : String) (l : List (String × Node)) :
    text? word l = ((under word l).flatMap fun e => e.2.text?.toList).head? := by
  rw [← List.filterMap_eq_flatMap_toList, List.head?_filterMap]
  rfl

theorem Node.text?_sorted (node : Node) : node.sorted.text? = node.text? := by
  cases node <;> rfl

theorem Respelling.sameWord {words : List String} {values : Node → Node → Prop} {a b : String × Node}
    (respelling : Respelling words values a b) (word : String) :
    Text.sameWord a.1 word = Text.sameWord b.1 word := by
  rcases respelling with rfl | ⟨common, -, first, second, -⟩
  · rfl
  · simp only [Text.sameWord, beq_iff_eq] at first second ⊢
    rw [first, second]

end SigScan.KeyValues

namespace SigScan.Gamedata

open KeyValues

def fieldWords : List String := ["library", "windows", "linux"]

def SameRecord (a b : String × Node) : Prop := a.1 = b.1 ∧ a.2.Matches (Respelling fieldWords Eq) b.2

def SameSection : String × Node → String × Node → Prop :=
  Respelling ["Signatures"] (Node.Matches SameRecord)

def SameGame (a b : String × Node) : Prop := a.1 = b.1 ∧ a.2.Matches SameSection b.2

/-- The documents differ in the spelling of structural keys only: that of the root, those of signatures
    sections in the bodies of games, and those of the fields of records. -/
def Respelt (d d' : Document) : Prop :=
  Respelling ["Games"] (Node.Matches SameGame) (d.key, d.value) (d'.key, d'.value)

def SingleRecord (node : Node) : Prop :=
  ∀ fields, node = .object fields → ∀ word ∈ fieldWords, (under word fields).length ≤ 1

def SingleSection (node : Node) : Prop :=
  ∀ named, node = .object named → ∀ e ∈ named, SingleRecord e.2

def SingleGame (node : Node) : Prop :=
  ∀ body, node = .object body → (under "Signatures" body).length ≤ 1 ∧
    ∀ e ∈ body, Text.sameWord e.1 "Signatures" = true → SingleSection e.2

/-- No two structural keys of one object spell the same word. -/
def Single (d : Document) : Prop := ∀ games, IsGames d games → ∀ e ∈ games, SingleGame e.2

def Names (d : Document) (game name : String) : Prop :=
  ∃ games p fields, IsGames d games ∧ RecordAt games p fields ∧ p.game.key = game ∧ p.name.key = name

def Extract.warnings (x : Extract) : List Event := x.log.filter (·.level = .warn)

def recordOf (game name : String) : Node → List Record :=
  Node.inside fun fields => [.ofFields game name fields]

def sectionRecords (game : String) : Node → List Record :=
  Node.inside fun named => named.flatMap fun e => recordOf game e.1 e.2

def gameRecords (game : String) : Node → List Record :=
  Node.inside fun body => (under "Signatures" body).flatMap fun e => sectionRecords game e.2

theorem records_eq_flatMap (games : List (String × Node)) :
    records games = games.flatMap fun e => gameRecords e.1 e.2 := by
  simp only [records, List.map_eq_flatMap, flatMap_objects]
  rfl

section Respelt

variable {a b : String × Node} {node node' : Node} {d d' : Document}

theorem recordOf_respelt (same : SameRecord a b) (single : SingleRecord a.2) (game : String) :
    recordOf game a.1 a.2.sorted = recordOf game b.1 b.2.sorted := by
  obtain ⟨name, node⟩ := a
  obtain ⟨name', node'⟩ := b
  obtain ⟨rfl, inside⟩ := same
  cases inside with
  | text value => rfl
  | @object fields fields' each =>
    have read : ∀ word ∈ fieldWords, text? word (sortEntries (sortedWithin fields)) =
        text? word (sortEntries (sortedWithin fields')) := by
      intro word member
      rw [text?_eq_under, text?_eq_under]
      congr 1
      apply flatMap_under_sorted (single fields rfl word member)
      apply each.imp
      intro field field' respelling
      refine ⟨respelling.sameWord word, fun _ => ?_⟩
      rw [Node.text?_sorted, Node.text?_sorted]
      rcases respelling with rfl | ⟨-, -, -, -, value⟩
      · rfl
      · rw [value]
    simp only [fieldWords, List.forall_mem_cons] at read
    obtain ⟨library, windows, linux, -⟩ := read
    show [Record.ofFields game name _] = [Record.ofFields game name _]
    rw [Record.ofFields, Record.ofFields, library, windows, linux]

theorem sectionRecords_respelt (same : node.Matches SameRecord node') (single : SingleSection node)
    (game : String) : sectionRecords game node.sorted = sectionRecords game node'.sorted := by
  cases same with
  | text value => rfl
  | @object named named' each =>
    apply flatMap_sorted
    apply forall₂_imp_of_mem each
    intro entry member entry' same
    exact ⟨same.1, recordOf_respelt same (single named rfl entry member) game⟩

theorem gameRecords_respelt (same : node.Matches SameSection node') (single : SingleGame node)
    (game : String) : gameRecords game node.sorted = gameRecords game node'.sorted := by
  cases same with
  | text value => rfl
  | @object body body' each =>
    obtain ⟨sections, inside⟩ := single body rfl
    apply flatMap_under_sorted sections
    apply forall₂_imp_of_mem each
    intro entry member entry' respelling
    refine ⟨respelling.sameWord "Signatures", fun spelt => ?_⟩
    rcases respelling with rfl | ⟨-, -, -, -, value⟩
    · rfl
    · exact sectionRecords_respelt value (inside entry member spelt) game

theorem records_respelt {games games' : List (String × Node)} (each : List.Forall₂ SameGame games games')
    (single : ∀ e ∈ games, SingleGame e.2) :
    records (sortEntries (sortedWithin games)) = records (sortEntries (sortedWithin games')) := by
  rw [records_eq_flatMap, records_eq_flatMap]
  apply flatMap_sorted
  apply forall₂_imp_of_mem each
  intro entry member entry' same
  refine ⟨same.1, ?_⟩
  dsimp only
  rw [gameRecords_respelt same.2 (single entry member), same.1]

theorem isGames_sorted {games : List (String × Node)} (isGames : IsGames d games) :
    IsGames d.sorted (sortEntries (sortedWithin games)) := by
  obtain ⟨value, key⟩ := isGames
  refine ⟨?_, key⟩
  rw [Document.sorted, value]
  rfl

theorem ofDocument_sorted {games : List (String × Node)} (isGames : IsGames d games) :
    ofDocument d.sorted = ⟨(records (sortEntries (sortedWithin games))).filterMap Record.entry?,
      (records (sortEntries (sortedWithin games))).filterMap Record.warning?⟩ :=
  ofDocument_of_isGames (isGames_sorted isGames)

theorem extract_respelt (single : Single d) (respelt : Respelt d d') :
    (ofDocument d'.sorted).entries = (ofDocument d.sorted).entries ∧
      (ofDocument d'.sorted).warnings = (ofDocument d.sorted).warnings := by
  obtain ⟨key, node⟩ := d
  obtain ⟨key', node'⟩ := d'
  rcases respelt with same | ⟨word, listed, first, second, values⟩
  · obtain ⟨rfl, rfl⟩ := Prod.mk.inj same
    exact ⟨rfl, rfl⟩
  · obtain rfl := List.mem_singleton.mp listed
    cases values with
    | text value => exact ⟨rfl, rfl⟩
    | @object games games' each =>
      have isGames : IsGames ⟨key, .object games⟩ games := ⟨rfl, first⟩
      have isGames' : IsGames ⟨key', .object games'⟩ games' := ⟨rfl, second⟩
      rw [Extract.warnings, Extract.warnings, ofDocument_sorted isGames, ofDocument_sorted isGames',
        records_respelt each (single games isGames)]
      exact ⟨rfl, rfl⟩

end Respelt

section Names

theorem valueAt_sorted {l : List (String × Node)} {s : Step} {node : Node} :
    ValueAt (sortEntries (sortedWithin l)) s node ↔ ∃ given, ValueAt l s given ∧ given.sorted = node := by
  simp only [ValueAt, valuesOf_sortEntries, valuesOf_sortedWithin, List.getElem?_map,
    Option.map_eq_some_iff]

theorem Node.sorted_eq_object {node : Node} {entries : List (String × Node)}
    (object : node.sorted = .object entries) :
    ∃ given, node = .object given ∧ sortEntries (sortedWithin given) = entries := by
  cases node with
  | text value => cases object
  | object given => exact ⟨given, rfl, Node.object.inj object⟩

theorem ValueAt.of_sorted {l inner : List (String × Node)} {s : Step}
    (found : ValueAt (sortEntries (sortedWithin l)) s (.object inner)) :
    ∃ given, ValueAt l s (.object given) ∧ sortEntries (sortedWithin given) = inner := by
  obtain ⟨node, there, value⟩ := valueAt_sorted.mp found
  obtain ⟨given, rfl, same⟩ := Node.sorted_eq_object value
  exact ⟨given, there, same⟩

theorem RecordAt.of_sorted {games fields : List (String × Node)} {p : Place}
    (record : RecordAt (sortEntries (sortedWithin games)) p fields) :
    ∃ given, RecordAt games p given := by
  obtain ⟨body, named, in_games, spelt, in_body, in_named⟩ := record
  obtain ⟨body, here, rfl⟩ := ValueAt.of_sorted in_games
  obtain ⟨named, there, rfl⟩ := ValueAt.of_sorted in_body
  obtain ⟨fields, last, -⟩ := ValueAt.of_sorted in_named
  exact ⟨fields, body, named, here, spelt, there, last⟩

theorem names_of_mem_records {d : Document} {games : List (String × Node)} (isGames : IsGames d games)
    {r : Record} (member : r ∈ records (sortEntries (sortedWithin games))) : Names d r.game r.name := by
  rw [records_eq_visits] at member
  obtain ⟨visit, visited, rfl⟩ := List.mem_map.mp member
  obtain ⟨fields, record⟩ := (mem_visits.mp visited).of_sorted
  exact ⟨games, visit.1, fields, isGames, record, rfl, rfl⟩

theorem isGames_of_sorted {d : Document} {games : List (String × Node)}
    (isGames : IsGames d.sorted games) : ∃ given, IsGames d given := by
  obtain ⟨given, value, -⟩ := Node.sorted_eq_object isGames.1
  exact ⟨given, value, isGames.2⟩

theorem names_of_mem_entries {d : Document} {e : Entry} (member : e ∈ (ofDocument d.sorted).entries) :
    Names d e.game e.name := by
  by_cases known : ∃ games, IsGames d games
  · obtain ⟨games, isGames⟩ := known
    rw [ofDocument_sorted isGames] at member
    obtain ⟨r, drawn, entry⟩ := List.mem_filterMap.mp member
    obtain ⟨library, -, rfl⟩ := Option.map_eq_some_iff.mp entry
    exact names_of_mem_records isGames drawn
  · rw [ofDocument_of_not_isGames fun games isGames => known (isGames_of_sorted isGames)] at member
    cases member

theorem names_of_mem_warnings {d : Document} {event : Event}
    (member : event ∈ (ofDocument d.sorted).warnings) :
    ∃ name game, event = .noLibrary name game ∧ Names d game name := by
  obtain ⟨logged, level⟩ := List.mem_filter.mp member
  by_cases known : ∃ games, IsGames d games
  · obtain ⟨games, isGames⟩ := known
    rw [ofDocument_sorted isGames] at logged
    obtain ⟨r, drawn, warning⟩ := List.mem_filterMap.mp logged
    refine ⟨r.name, r.game, ?_, names_of_mem_records isGames drawn⟩
    unfold Record.warning? at warning
    split at warning
    · cases warning
    · exact (Option.some.inj warning).symm
  · rw [ofDocument_of_not_isGames fun games isGames => known (isGames_of_sorted isGames)] at logged
    obtain rfl := List.mem_singleton.mp logged
    cases level

end Names

/-- However the structural keys of a document are spelt, and wherever sorting moves them, the same
    entries are drawn and the same warnings told, in the same order, as long as no two of one object
    spell the same word. Games and names come out as they are spelt in the document. -/
theorem spelling_of_structural_keys_is_free {d d' : Document} (single : Single d)
    (respelt : Respelt d d') :
    (ofDocument d'.sorted).entries = (ofDocument d.sorted).entries ∧
      (ofDocument d'.sorted).warnings = (ofDocument d.sorted).warnings ∧
      (∀ e ∈ (ofDocument d'.sorted).entries, Names d e.game e.name ∧ Names d' e.game e.name) ∧
      ∀ event ∈ (ofDocument d'.sorted).warnings, ∃ name game, event = .noLibrary name game ∧
        Names d game name ∧ Names d' game name := by
  obtain ⟨entries, warnings⟩ := extract_respelt single respelt
  refine ⟨entries, warnings, ?_, ?_⟩
  · intro e member
    exact ⟨names_of_mem_entries (entries ▸ member), names_of_mem_entries member⟩
  · intro event member
    obtain ⟨name, game, rfl, names⟩ := names_of_mem_warnings (warnings ▸ member)
    obtain ⟨_, _, same, names'⟩ := names_of_mem_warnings member
    cases same
    exact ⟨name, game, rfl, names, names'⟩

theorem spelling_of_moving_keys_is_free :
    let document (root signatures library windows : String) : Document :=
      ⟨root, .object [("signatures", .object [
        (signatures, .object [("Library", .object [
          (library, .text "server"), ("m", .text ""), (windows, .text "\\x55")])]),
        ("Tail", .text "")])]⟩
    let d := document "Games" "Signatures" "library" "windows"
    let d' := document "gAMES" "sIGNATURES" "LIBRARY" "WINDOWS"
    d.value.Sorted ∧ ¬ d'.value.Sorted ∧ Single d ∧ Respelt d d' ∧
      (ofDocument d'.sorted).entries = (ofDocument d.sorted).entries ∧
      (ofDocument d'.sorted).warnings = (ofDocument d.sorted).warnings ∧
      (∀ e ∈ (ofDocument d'.sorted).entries, Names d e.game e.name ∧ Names d' e.game e.name) ∧
      ∀ event ∈ (ofDocument d'.sorted).warnings, ∃ name game, event = .noLibrary name game ∧
        Names d game name ∧ Names d' game name := by
  intro document d d'
  have sorted : d.value.Sorted := by
    refine .object (by decide) (List.forall_mem_singleton.mpr ?_)
    refine .object (by decide) (List.forall_mem_cons.mpr ⟨?_, List.forall_mem_singleton.mpr (.text "")⟩)
    refine .object (by decide) (List.forall_mem_singleton.mpr ?_)
    exact .object (by decide) (List.forall_mem_cons.mpr ⟨.text "server",
      List.forall_mem_cons.mpr ⟨.text "", List.forall_mem_singleton.mpr (.text "\\x55")⟩⟩)
  have unsorted : ¬ d'.value.Sorted := by
    intro sorted'
    cases sorted' with
    | object _ within => exact absurd (within _ List.mem_cons_self).ascending (by decide)
  have same (word : String) : Text.sameWord word word = true := by simp [Text.sameWord]
  have respelt : Respelt d d' := by
    have root : Text.sameWord "gAMES" "Games" = true := Text.sameWord_iff.mpr (by decide)
    have signatures : Text.sameWord "sIGNATURES" "Signatures" = true := Text.sameWord_iff.mpr (by decide)
    have library : Text.sameWord "LIBRARY" "library" = true := Text.sameWord_iff.mpr (by decide)
    have windows : Text.sameWord "WINDOWS" "windows" = true := Text.sameWord_iff.mpr (by decide)
    refine .inr ⟨"Games", by decide, same _, root, .object (.cons ⟨rfl, .object ?_⟩ .nil)⟩
    refine .cons (.inr ⟨_, by decide, same _, signatures, .object ?_⟩) (.cons (.inl rfl) .nil)
    refine .cons ⟨rfl, .object ?_⟩ .nil
    exact .cons (.inr ⟨_, by decide, same _, library, rfl⟩)
      (.cons (.inl rfl) (.cons (.inr ⟨_, by decide, same _, windows, rfl⟩) .nil))
  have single : Single d := by
    have count (word : String) (l : List (String × Node)) : (under word l).length =
        l.countP fun e => e.1.toList.map Char.toLower = word.toList.map Char.toLower := by
      rw [under, List.countP_eq_length_filter]
      congr 2
      funext e
      rw [Bool.eq_iff_iff, Text.sameWord_iff, decide_eq_true_iff]
    intro games isGames
    obtain rfl := Node.object.inj isGames.1
    rw [List.forall_mem_singleton]
    intro body value
    obtain rfl := Node.object.inj value
    refine ⟨by rw [count]; decide, ?_⟩
    intro e member _ named value
    rcases List.mem_cons.mp member with rfl | member
    · obtain rfl := Node.object.inj value
      rw [List.forall_mem_singleton]
      intro fields value
      obtain rfl := Node.object.inj value
      simp only [count]
      decide
    · obtain rfl := List.mem_singleton.mp member
      cases value
  exact ⟨sorted, unsorted, single, respelt, spelling_of_structural_keys_is_free single respelt⟩

end SigScan.Gamedata
