import Mathlib.Data.List.Pairwise
import SigScan.Proofs.Reading
import SigScan.Proofs.Record

namespace SigScan

open KeyValues

def Entry.Ordered (a b : Entry) : Prop :=
  Text.utf8 a.game < Text.utf8 b.game ∨ a.game = b.game ∧ Text.utf8 a.name ≤ Text.utf8 b.name

theorem pairwise_iff_of_ascending {α : Type} {before P : α → α → Prop} {items : List α}
    (asymm : ∀ a b, before a b → ¬ before b a) (ascending : items.Pairwise before) :
    items.Pairwise P ↔ ∀ a ∈ items, ∀ b ∈ items, before a b → P a b := by
  constructor
  · intro all
    induction items with
    | nil => simp
    | cons first items ih =>
      obtain ⟨below, others⟩ := List.pairwise_cons.mp ascending
      obtain ⟨here, there⟩ := List.pairwise_cons.mp all
      intro a left b right order
      rcases List.mem_cons.mp right with same | later
      · subst same
        rcases List.mem_cons.mp left with same | earlier
        · subst same
          exact absurd order (asymm _ _ order)
        · exact absurd order (asymm _ _ (below a earlier))
      · rcases List.mem_cons.mp left with same | earlier
        · subst same
          exact here b later
        · exact ih others there a earlier b later order
  · intro all
    exact ascending.imp_of_mem fun left right order => all _ left _ right order

namespace KeyValues.Step.Before

variable {a b : Step}

theorem irrefl : ¬ a.Before a := by
  intro before
  rcases before with below | ⟨-, below⟩
  · exact List.lt_irrefl _ below
  · exact Nat.lt_irrefl _ below

theorem asymm (before : a.Before b) : ¬ b.Before a := by
  intro after
  rcases before with below | ⟨same, below⟩ <;> rcases after with above | ⟨same', above⟩
  · exact List.lt_asymm below above
  · rw [same'] at below
    exact List.lt_irrefl _ below
  · rw [same] at above
    exact List.lt_irrefl _ above
  · exact Nat.lt_asymm below above

theorem key_le (before : a.Before b) : Text.utf8 a.key ≤ Text.utf8 b.key := by
  rcases before with below | ⟨same, -⟩
  · exact List.le_of_lt below
  · rw [same]
    exact List.le_refl _

end KeyValues.Step.Before

namespace Gamedata

theorem Place.Before.asymm {p q : Place} (before : p.Before q) : ¬ q.Before p := by
  intro after
  obtain ⟨game, signatures, name⟩ := p
  obtain ⟨game', signatures', name'⟩ := q
  dsimp only [Place.Before] at before after
  rcases before with first | ⟨rfl, first | ⟨rfl, first⟩⟩
  · rcases after with second | ⟨rfl, -⟩
    · exact first.asymm second
    · exact first.irrefl
  · rcases after with second | ⟨-, second | ⟨rfl, -⟩⟩
    · exact second.irrefl
    · exact first.asymm second
    · exact first.irrefl
  · rcases after with second | ⟨-, second | ⟨-, second⟩⟩
    · exact second.irrefl
    · exact second.irrefl
    · exact first.asymm second

theorem Place.Before.game_le {p q : Place} (before : p.Before q) :
    Text.utf8 p.game.key ≤ Text.utf8 q.game.key := by
  rcases before with game | ⟨same, -⟩
  · exact game.key_le
  · rw [same]
    exact List.le_refl _

theorem Place.Before.game_lt {p q : Place} (before : p.Before q) (other : p.game.key ≠ q.game.key) :
    Text.utf8 p.game.key < Text.utf8 q.game.key := by
  rcases before with first | ⟨same, -⟩
  · rcases first with below | ⟨same, -⟩
    · exact below
    · exact absurd same other
  · exact absurd (congrArg Step.key same) other

theorem Place.Before.name_le {p q : Place} (before : p.Before q)
    (within : (p.game, p.signatures) = (q.game, q.signatures)) :
    Text.utf8 p.name.key ≤ Text.utf8 q.name.key := by
  obtain ⟨game, signatures⟩ := Prod.mk.inj within
  rcases before with first | ⟨-, first | ⟨-, first⟩⟩
  · rw [game] at first
    exact absurd first Step.Before.irrefl
  · rw [signatures] at first
    exact absurd first Step.Before.irrefl
  · exact first.key_le

def HasLibrary (fields : List (String × Node)) : Prop :=
  ∃ (s : Step) (value : String), Text.sameWord s.key "library" = true ∧ ValueAt fields s (.text value)

/-- Two records of one game, in different sections, come in the order of the sections and not in
    that of their names. -/
def Crossed (games : List (String × Node)) : Prop :=
  ∃ p q fields fields', RecordAt games p fields ∧ HasLibrary fields ∧
    RecordAt games q fields' ∧ HasLibrary fields' ∧
    p.game.key = q.game.key ∧ (p.game, p.signatures) ≠ (q.game, q.signatures) ∧ p.Before q ∧
    Text.utf8 q.name.key < Text.utf8 p.name.key

theorem RecordAt.ascending {d : Document} {games : List (String × Node)} (isGames : IsGames d games)
    (sorted : d.value.Sorted) {p : Place} {fields : List (String × Node)}
    (record : RecordAt games p fields) : Ascending fields := by
  rw [isGames.1] at sorted
  exact record.sorted sorted

theorem entry?_of_hasLibrary {fields : List (String × Node)} (ascending : Ascending fields)
    (known : HasLibrary fields) (p : Place) : ∃ e, Record.entry? (p.record fields) = some e := by
  obtain ⟨s, value, spelt, found⟩ := known
  have first := text?_first ascending "library"
  cases library : text? "library" fields with
  | none =>
    rw [library] at first
    exact absurd found (first s value spelt)
  | some text => simp [Place.record, Record.ofFields, Record.entry?, library]

theorem hasLibrary_of_entry {fields : List (String × Node)} (ascending : Ascending fields)
    {p : Place} {e : Entry} (drawn : Record.entry? (p.record fields) = some e) :
    HasLibrary fields ∧ e.game = p.game.key ∧ e.name = p.name.key := by
  have first := text?_first ascending "library"
  obtain ⟨library, known, rfl⟩ := Option.map_eq_some_iff.mp drawn
  have read : text? "library" fields = some library := known
  rw [read] at first
  obtain ⟨s, spelt, found, -⟩ := first
  exact ⟨⟨s, library, spelt, found⟩, rfl, rfl⟩

theorem entries_of_isGames {d : Document} {games : List (String × Node)} (isGames : IsGames d games) :
    (ofDocument d).entries =
      (visits games).filterMap fun visit => Record.entry? (visit.1.record visit.2) := by
  rw [ofDocument_of_isGames isGames, records_eq_visits, List.filterMap_map]
  rfl

theorem entries_pairwise_iff {d : Document} {games : List (String × Node)} (sorted : d.value.Sorted)
    (isGames : IsGames d games) {P : Entry → Entry → Prop} :
    (ofDocument d).entries.Pairwise P ↔ ∀ p q fields fields', RecordAt games p fields →
      RecordAt games q fields' → p.Before q → ∀ e, Record.entry? (p.record fields) = some e →
        ∀ e', Record.entry? (q.record fields') = some e' → P e e' := by
  rw [isGames.1] at sorted
  rw [entries_of_isGames isGames, List.pairwise_filterMap,
    pairwise_iff_of_ascending (fun _ _ => Place.Before.asymm) (visits_ascend sorted)]
  constructor
  · intro all p q fields fields' here there before
    exact all (p, fields) (mem_visits.mpr here) (q, fields') (mem_visits.mpr there) before
  · intro all visit first visit' second before
    exact all visit.1 visit'.1 visit.2 visit'.2 (mem_visits.mp first) (mem_visits.mp second) before

theorem games_ascend {d : Document} (sorted : d.value.Sorted) :
    (ofDocument d).entries.Pairwise fun a b => Text.utf8 a.game ≤ Text.utf8 b.game := by
  by_cases known : ∃ games, IsGames d games
  · obtain ⟨games, isGames⟩ := known
    rw [entries_pairwise_iff sorted isGames]
    intro p q fields fields' here there before e drawn e' drawn'
    obtain ⟨-, e_game, -⟩ := hasLibrary_of_entry (here.ascending isGames sorted) drawn
    obtain ⟨-, e'_game, -⟩ := hasLibrary_of_entry (there.ascending isGames sorted) drawn'
    rw [e_game, e'_game]
    exact before.game_le
  · rw [ofDocument_of_not_isGames fun games isGames => known ⟨games, isGames⟩]
    exact .nil

theorem entries_ordered_iff {d : Document} {games : List (String × Node)} (sorted : d.value.Sorted)
    (isGames : IsGames d games) : (ofDocument d).entries.Pairwise Entry.Ordered ↔ ¬ Crossed games := by
  rw [entries_pairwise_iff sorted isGames]
  constructor
  · intro ordered crossed
    obtain ⟨p, q, fields, fields', here, known, there, known', game, -, before, above⟩ := crossed
    have first := here.ascending isGames sorted
    have second := there.ascending isGames sorted
    obtain ⟨e, drawn⟩ := entry?_of_hasLibrary first known p
    obtain ⟨e', drawn'⟩ := entry?_of_hasLibrary second known' q
    obtain ⟨-, e_game, e_name⟩ := hasLibrary_of_entry first drawn
    obtain ⟨-, e'_game, e'_name⟩ := hasLibrary_of_entry second drawn'
    rcases ordered p q fields fields' here there before e drawn e' drawn' with below | ⟨-, name⟩
    · rw [e_game, e'_game, game] at below
      exact List.lt_irrefl _ below
    · rw [e_name, e'_name] at name
      exact List.not_lt.mpr name above
  · intro straight p q fields fields' here there before e drawn e' drawn'
    obtain ⟨known, e_game, e_name⟩ := hasLibrary_of_entry (here.ascending isGames sorted) drawn
    obtain ⟨known', e'_game, e'_name⟩ := hasLibrary_of_entry (there.ascending isGames sorted) drawn'
    rw [Entry.Ordered, e_game, e'_game, e_name, e'_name]
    by_cases game : p.game.key = q.game.key
    · refine .inr ⟨game, ?_⟩
      by_cases same : (p.game, p.signatures) = (q.game, q.signatures)
      · exact before.name_le same
      · apply List.not_lt.mp
        intro above
        exact straight ⟨p, q, fields, fields', here, known, there, known', game, same, before, above⟩
    · exact .inl (before.game_lt game)

/-- Entries of gamedata that is accepted come in the order of their games. Within the games they come
    in the order of their names exactly if no two sections of one game cross. -/
theorem ofText_orders_entries_unless_sections_cross (text : String) (extract : Extract)
    (read : ofText text = .ok extract) :
    extract.entries.Pairwise (fun a b => Text.utf8 a.game ≤ Text.utf8 b.game) ∧
      ∃ d, Document.read (Text.uncommentFrom .plain text.toList) = .ok d ∧ extract = ofDocument d ∧
        (extract.entries.Pairwise Entry.Ordered ↔ ∀ games, IsGames d games → ¬ Crossed games) := by
  cases document : Document.read (Text.uncommentFrom .plain text.toList) with
  | error complaint =>
    simp only [ofText, document] at read
    cases read
  | ok d =>
    simp only [ofText, document, Except.ok.injEq] at read
    subst read
    have sorted := Document.read_sorted document
    refine ⟨games_ascend sorted, d, rfl, rfl, ?_⟩
    constructor
    · intro ordered games isGames
      exact (entries_ordered_iff sorted isGames).mp ordered
    · intro straight
      by_cases known : ∃ games, IsGames d games
      · obtain ⟨games, isGames⟩ := known
        exact (entries_ordered_iff sorted isGames).mpr (straight games isGames)
      · rw [ofDocument_of_not_isGames fun games isGames => known ⟨games, isGames⟩]
        exact .nil

def twoSections (first second : String) : Document :=
  let signatures (name : String) : String × Node :=
    ("Signatures", .object [(name, .object [("library", .text "server")])])
  ⟨"Games", .object [("tf", .object [signatures first, signatures second])]⟩

theorem twoSections_sorted (first second : String) : (twoSections first second).value.Sorted := by
  have fields : (Node.object [("library", .text "server")]).Sorted :=
    .object (by simp [Ascending]) (by simpa using .text "server")
  have named (name : String) : (Node.object [(name, .object [("library", .text "server")])]).Sorted :=
    .object (by simp [Ascending]) (by simpa using fields)
  refine .object (by simp [Ascending]) ?_
  simpa using .object (by simp [Ascending]) (by simpa using ⟨named first, named second⟩)

theorem ofDocument_twoSections (first second : String) : ofDocument (twoSections first second) =
    ⟨[⟨first, "tf", "server", none, none⟩, ⟨second, "tf", "server", none, none⟩], []⟩ := by
  have same (word : String) : Text.sameWord word word = true := by simp [Text.sameWord]
  have windows : ¬ Text.sameWord "library" "windows" = true := by
    rw [Text.sameWord_iff]
    decide
  have linux : ¬ Text.sameWord "library" "linux" = true := by
    rw [Text.sameWord_iff]
    decide
  have isGames : IsGames (twoSections first second) _ := ⟨rfl, same "Games"⟩
  rw [ofDocument_of_isGames isGames]
  simp [records, objects, under, same, Record.ofFields, text?, windows, linux, Record.entry?,
    Record.warning?]

theorem ofText_twoSections {first second text : String}
    (written : text.toList = (twoSections first second).lexemes.flatMap Lexeme.written)
    (plain : '"' ∉ first.toList) (plain' : '"' ∉ second.toList) :
    ofText text =
      .ok ⟨[⟨first, "tf", "server", none, none⟩, ⟨second, "tf", "server", none, none⟩], []⟩ := by
  have writable : ∀ lexeme ∈ (twoSections first second).lexemes, lexeme.Writable := by
    simp [twoSections, Document.lexemes, Node.lexemes, lexemesWithin, Lexeme.Writable, plain, plain']
  rw [ofText_written (twoSections_sorted first second) written writable, ofDocument_twoSections]

theorem ofText_orders_entries_of_two_sections :
    let text := "\"Games\"\x7b\"tf\"\x7b\"Signatures\"\x7b\"a\"\x7b\"library\"\"server\"\x7d\x7d"
      ++ "\"Signatures\"\x7b\"b\"\x7b\"library\"\"server\"\x7d\x7d\x7d\x7d"
    let extract : Extract := ⟨[⟨"a", "tf", "server", none, none⟩, ⟨"b", "tf", "server", none, none⟩], []⟩
    ofText text = .ok extract ∧
      extract.entries.Pairwise (fun a b => Text.utf8 a.game ≤ Text.utf8 b.game) ∧
      ∃ d, Document.read (Text.uncommentFrom .plain text.toList) = .ok d ∧ extract = ofDocument d ∧
        (extract.entries.Pairwise Entry.Ordered ↔ ∀ games, IsGames d games → ¬ Crossed games) := by
  intro text extract
  have read : ofText text = .ok extract := ofText_twoSections (by decide) (by decide) (by decide)
  exact ⟨read, ofText_orders_entries_unless_sections_cross text extract read⟩

/-- Two sections of one game that cross: the name of the first record comes after that of the second. -/
theorem crossed_sections_are_out_of_order :
    let text := "\"Games\"\x7b\"tf\"\x7b\"Signatures\"\x7b\"b\"\x7b\"library\"\"server\"\x7d\x7d"
      ++ "\"Signatures\"\x7b\"a\"\x7b\"library\"\"server\"\x7d\x7d\x7d\x7d"
    let extract : Extract := ⟨[⟨"b", "tf", "server", none, none⟩, ⟨"a", "tf", "server", none, none⟩], []⟩
    ofText text = .ok extract ∧ ¬ extract.entries.Pairwise Entry.Ordered := by
  intro text extract
  refine ⟨ofText_twoSections (by decide) (by decide) (by decide), ?_⟩
  have game : ¬ Text.utf8 "tf" < Text.utf8 "tf" := List.lt_irrefl _
  have name : ¬ Text.utf8 "b" ≤ Text.utf8 "a" := by decide
  simp [extract, Entry.Ordered, game, name]

end Gamedata

end SigScan
