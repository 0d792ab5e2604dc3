import SigScan.Gamedata
import SigScan.Proofs.Step

namespace SigScan.Gamedata

open KeyValues

/-- Where a record stands: a game, a signatures section of its body, and a name within it. -/
structure Place where
  game : Step
  signatures : Step
  name : Step
deriving DecidableEq, Repr

def Place.Before (p q : Place) : Prop :=
  p.game.Before q.game ∨ p.game = q.game ∧
    (p.signatures.Before q.signatures ∨ p.signatures = q.signatures ∧ p.name.Before q.name)

def RecordAt (games : List (String × Node)) (p : Place) (fields : List (String × Node)) : Prop :=
  ∃ body signatures, ValueAt games p.game (.object body) ∧
    Text.sameWord p.signatures.key "Signatures" = true ∧
    ValueAt body p.signatures (.object signatures) ∧ ValueAt signatures p.name (.object fields)

def IsGames (d : Document) (games : List (String × Node)) : Prop :=
  d.value = .object games ∧ Text.sameWord d.key "Games" = true

inductive Yield (p : Place) (fields : List (String × Node)) : Entry ⊕ Event → Prop
  | entry {e : Entry} (game : e.game = p.game.key) (name : e.name = p.name.key)
      (library : FirstText "library" fields (some e.library))
      (windows : FirstText "windows" fields e.windows) (linux : FirstText "linux" fields e.linux) :
      Yield p fields (.inl e)
  | warning (absent : FirstText "library" fields none) :
      Yield p fields (.inr (.noLibrary p.name.key p.game.key))

def visitsIn (game signatures : Step) (named : List (String × Node)) :
    List (Place × List (String × Node)) :=
  (picked (fun _ node => node.object?) named).map fun x => (⟨game, signatures, x.1⟩, x.2)

def visitsOf (game : Step) (body : List (String × Node)) : List (Place × List (String × Node)) :=
  (picked (objectUnder? "Signatures") body).flatMap fun x => visitsIn game x.1 x.2

def visits (games : List (String × Node)) : List (Place × List (String × Node)) :=
  (picked (fun _ node => node.object?) games).flatMap fun x => visitsOf x.1 x.2

theorem mem_visits {games fields : List (String × Node)} {p : Place} :
    (p, fields) ∈ visits games ↔ RecordAt games p fields := by
  constructor
  · intro visited
    obtain ⟨⟨game, body⟩, in_games, visited⟩ := List.mem_flatMap.mp visited
    obtain ⟨⟨signatures, named⟩, in_body, visited⟩ := List.mem_flatMap.mp visited
    obtain ⟨⟨name, fields'⟩, in_named, same⟩ := List.mem_map.mp visited
    cases same
    obtain ⟨spelt, found⟩ := mem_picked_under.mp in_body
    exact ⟨body, named, mem_picked_object.mp in_games, spelt, found, mem_picked_object.mp in_named⟩
  · intro record
    obtain ⟨body, named, in_games, spelt, in_body, in_named⟩ := record
    apply List.mem_flatMap.mpr
    refine ⟨(p.game, body), mem_picked_object.mpr in_games, List.mem_flatMap.mpr ?_⟩
    refine ⟨(p.signatures, named), mem_picked_under.mpr ⟨spelt, in_body⟩, List.mem_map.mpr ?_⟩
    exact ⟨(p.name, fields), mem_picked_object.mpr in_named, rfl⟩

theorem place_of_mem_visitsIn {game signatures : Step} {named : List (String × Node)}
    {visit : Place × List (String × Node)} (visited : visit ∈ visitsIn game signatures named) :
    visit.1.game = game ∧ visit.1.signatures = signatures := by
  obtain ⟨x, -, rfl⟩ := List.mem_map.mp visited
  exact ⟨rfl, rfl⟩

theorem game_of_mem_visitsOf {game : Step} {body : List (String × Node)}
    {visit : Place × List (String × Node)} (visited : visit ∈ visitsOf game body) :
    visit.1.game = game := by
  obtain ⟨x, -, inside⟩ := List.mem_flatMap.mp visited
  exact (place_of_mem_visitsIn inside).1

theorem visitsIn_ascend {game signatures : Step} {named : List (String × Node)}
    (ascending : Ascending named) :
    (visitsIn game signatures named).Pairwise fun a b => a.1.Before b.1 := by
  rw [visitsIn, List.pairwise_map]
  exact (picked_ascend ascending).imp fun before => .inr ⟨rfl, .inr ⟨rfl, before⟩⟩

theorem visitsOf_ascend {game : Step} {body : List (String × Node)} (sorted : (Node.object body).Sorted) :
    (visitsOf game body).Pairwise fun a b => a.1.Before b.1 := by
  rw [visitsOf, List.pairwise_flatMap]
  constructor
  · intro x member
    have named := sorted.within (mem_picked_under.mp member).2.mem
    exact visitsIn_ascend named.ascending
  · apply (picked_ascend sorted.ascending).imp
    intro a b before visit first visit' second
    have here := place_of_mem_visitsIn first
    have there := place_of_mem_visitsIn second
    exact .inr ⟨here.1.trans there.1.symm, .inl (here.2 ▸ there.2 ▸ before)⟩

theorem visits_ascend {games : List (String × Node)} (sorted : (Node.object games).Sorted) :
    (visits games).Pairwise fun a b => a.1.Before b.1 := by
  rw [visits, List.pairwise_flatMap]
  constructor
  · intro x member
    exact visitsOf_ascend (sorted.within (mem_picked_object.mp member).mem)
  · apply (picked_ascend sorted.ascending).imp
    intro a b before visit first visit' second
    have here := game_of_mem_visitsOf first
    have there := game_of_mem_visitsOf second
    exact .inl (here ▸ there ▸ before)

def Place.record (p : Place) (fields : List (String × Node)) : Record :=
  .ofFields p.game.key p.name.key fields

theorem records_eq_visits (games : List (String × Node)) :
    records games = (visits games).map fun visit => visit.1.record visit.2 := by
  simp only [records, objects_under_eq_picked]
  simp only [objects_eq_picked, visits, visitsOf, visitsIn, List.flatMap_map, List.map_flatMap,
    List.map_map]
  rfl

def Record.yield (r : Record) : Entry ⊕ Event :=
  match r.library with
  | some library => .inl ⟨r.name, r.game, library, r.windows, r.linux⟩
  | none => .inr (.noLibrary r.name r.game)

theorem Record.entry?_eq_yield (r : Record) : r.entry? = r.yield.getLeft? := by
  cases known : r.library <;> simp [Record.entry?, Record.yield, known]

theorem Record.warning?_eq_yield (r : Record) : r.warning? = r.yield.getRight? := by
  cases known : r.library <;> simp [Record.warning?, Record.yield, known]

theorem yield_record {p : Place} {fields : List (String × Node)} (ascending : Ascending fields) :
    Yield p fields (p.record fields).yield := by
  have library := text?_first ascending "library"
  have windows := text?_first ascending "windows"
  have linux := text?_first ascending "linux"
  cases known : text? "library" fields with
  | none =>
    rw [known] at library
    have warned : (p.record fields).yield = .inr (.noLibrary p.name.key p.game.key) := by
      simp [Place.record, Record.ofFields, Record.yield, known]
    rw [warned]
    exact .warning library
  | some value =>
    rw [known] at library
    have entered : (p.record fields).yield = .inl ⟨p.name.key, p.game.key, value,
        text? "windows" fields, text? "linux" fields⟩ := by
      simp [Place.record, Record.ofFields, Record.yield, known]
    rw [entered]
    exact .entry rfl rfl library windows linux

theorem RecordAt.sorted {games fields : List (String × Node)} {p : Place}
    (sorted : (Node.object games).Sorted) (record : RecordAt games p fields) : Ascending fields := by
  obtain ⟨body, named, in_games, -, in_body, in_named⟩ := record
  have body_sorted := sorted.within in_games.mem
  have named_sorted := body_sorted.within in_body.mem
  exact (named_sorted.within in_named.mem).ascending

theorem ofDocument_of_isGames {d : Document} {games : List (String × Node)} (isGames : IsGames d games) :
    ofDocument d = ⟨(records games).filterMap Record.entry?, (records games).filterMap Record.warning?⟩ := by
  simp only [ofDocument, games?, isGames.1, isGames.2, ↓reduceIte]

theorem ofDocument_of_not_isGames {d : Document} (other : ∀ games, ¬ IsGames d games) :
    ofDocument d = ⟨[], [.notGames d.key]⟩ := by
  cases value : d.value with
  | text value' => simp [ofDocument, games?, value]
  | object games =>
    have spelt : ¬ Text.sameWord d.key "Games" = true := fun same => other games ⟨value, same⟩
    simp [ofDocument, games?, value, spelt]

theorem length_sides {α β : Type} (items : List (α ⊕ β)) :
    (items.filterMap Sum.getLeft?).length + (items.filterMap Sum.getRight?).length = items.length := by
  induction items with
  | nil => rfl
  | cons item items ih =>
    cases item with
    | inl a =>
      simp only [List.filterMap_cons, Sum.getLeft?, Sum.getRight?, List.length_cons]
      omega
    | inr b =>
      simp only [List.filterMap_cons, Sum.getLeft?, Sum.getRight?, List.length_cons]
      omega

/-- Gamedata with a games root is drawn out record by record, each once and in the order of the
    places, and any other is told to be none. -/
theorem ofDocument_draws_each_record (d : Document) (sorted : d.value.Sorted) :
    (∀ games, IsGames d games →
      ∃ (records : List (Place × List (String × Node))) (yields : List (Entry ⊕ Event)),
        records.Pairwise (fun a b => a.1.Before b.1) ∧
        (∀ p fields, (p, fields) ∈ records ↔ RecordAt games p fields) ∧
        List.Forall₂ (fun record yield => Yield record.1 record.2 yield) records yields ∧
        (ofDocument d).entries = yields.filterMap Sum.getLeft? ∧
        (ofDocument d).log = yields.filterMap Sum.getRight? ∧
        (ofDocument d).entries.length + (ofDocument d).log.length = records.length) ∧
    ((∀ games, ¬ IsGames d games) → ofDocument d = ⟨[], [.notGames d.key]⟩) := by
  refine ⟨?_, ofDocument_of_not_isGames⟩
  intro games isGames
  rw [isGames.1] at sorted
  have drawn := ofDocument_of_isGames isGames
  have entries : (ofDocument d).entries =
      ((visits games).map fun visit => (visit.1.record visit.2).yield).filterMap Sum.getLeft? := by
    simp only [drawn, records_eq_visits, List.filterMap_map]
    exact List.filterMap_congr fun visit _ => Record.entry?_eq_yield (visit.1.record visit.2)
  have log : (ofDocument d).log =
      ((visits games).map fun visit => (visit.1.record visit.2).yield).filterMap Sum.getRight? := by
    simp only [drawn, records_eq_visits, List.filterMap_map]
    exact List.filterMap_congr fun visit _ => Record.warning?_eq_yield (visit.1.record visit.2)
  refine ⟨visits games, _, visits_ascend sorted, fun p fields => mem_visits, ?_, entries, log, ?_⟩
  · rw [List.forall₂_map_right_iff, List.forall₂_same]
    intro visit member
    exact yield_record ((mem_visits.mp member).sorted sorted)
  · rw [entries, log, length_sides, List.length_map]

theorem ofDocument_draws_records_of_two_spellings :
    let fields : List (String × Node) := [("Library", .text "server"), ("library", .text "engine"),
      ("windows", .object []), ("windows", .text "\\x55")]
    let games : List (String × Node) := [("tf", .object [
      ("SIGNATURES", .object [("Think", .object fields)]),
      ("signatures", .object [("Think", .object [])])])]
    let d : Document := ⟨"GAMES", .object games⟩
    d.value.Sorted ∧ IsGames d games ∧
      ∃ (records : List (Place × List (String × Node))) (yields : List (Entry ⊕ Event)),
        records.Pairwise (fun a b => a.1.Before b.1) ∧
        (∀ p fields, (p, fields) ∈ records ↔ RecordAt games p fields) ∧
        List.Forall₂ (fun record yield => Yield record.1 record.2 yield) records yields ∧
        (ofDocument d).entries = yields.filterMap Sum.getLeft? ∧
        (ofDocument d).log = yields.filterMap Sum.getRight? ∧
        (ofDocument d).entries.length + (ofDocument d).log.length = records.length := by
  intro fields games d
  have full : (Node.object fields).Sorted := by
    refine .object (by decide) ?_
    simpa [fields] using ⟨.text "server", .text "engine", .object (by decide) (by simp), .text "\\x55"⟩
  have empty : (Node.object []).Sorted := .object (by decide) (by simp)
  have first : (Node.object [("Think", .object fields)]).Sorted := .object (by simp [Ascending]) (by simpa)
  have second : (Node.object [("Think", .object [])]).Sorted := .object (by decide) (by simpa)
  have order : Text.utf8 "SIGNATURES" ≤ Text.utf8 "signatures" := by decide
  have body : (Node.object [("SIGNATURES", .object [("Think", .object fields)]),
      ("signatures", .object [("Think", .object [])])]).Sorted := by
    refine .object (by simpa [Ascending] using order) ?_
    simpa using ⟨first, second⟩
  have sorted : d.value.Sorted := .object (by simp [Ascending, games]) (by simpa [games] using body)
  have isGames : IsGames d games := ⟨rfl, Text.sameWord_iff.mpr (by decide)⟩
  exact ⟨sorted, isGames, (ofDocument_draws_each_record d sorted).1 games isGames⟩

end SigScan.Gamedata
