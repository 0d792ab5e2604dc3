import SigScan.Line
import SigScan.Proofs.Finding
import SigScan.Proofs.JsonReading

namespace SigScan

namespace Json

def Printed (text : List Char) : Prop := ∀ c ∈ text, 0x20 ≤ c.toNat

theorem Printed.append {text text' : List Char} (first : Printed text) (second : Printed text') :
    Printed (text ++ text') := by
  intro c member
  rcases List.mem_append.mp member with member | member
  · exact first c member
  · exact second c member

theorem Printed.cons {c : Char} {text : List Char} (first : 0x20 ≤ c.toNat) (others : Printed text) :
    Printed (c :: text) :=
  List.forall_mem_cons.mpr ⟨first, others⟩

theorem Printed.flatMap {α : Type} {parts : List α} {text : α → List Char}
    (each : ∀ part ∈ parts, Printed (text part)) : Printed (parts.flatMap text) := by
  intro c member
  obtain ⟨part, inside, member⟩ := List.mem_flatMap.mp member
  exact each part inside c member

theorem printed_of_escape? {letter c : Char} (escape : escape? letter = some c) :
    0x20 ≤ letter.toNat := by
  unfold escape? at escape
  split at escape
  all_goals first | decide | cases escape

theorem printed_of_all {text : List Char} (all : text.all (0x20 ≤ ·.toNat) = true) : Printed text :=
  fun c member => of_decide_eq_true (List.all_eq_true.mp all c member)

theorem printed_ofByte : ∀ code < 0x20, (Hex.ofByte (UInt8.ofNat code)).all (0x20 ≤ ·.toNat) := by
  decide

theorem printed_escapedChar (c : Char) : Printed (escapedChar c) := by
  rcases escapedChar_cases c with
    ⟨letter, escape, written⟩ | ⟨control, written⟩ | ⟨-, -, printed, written⟩
  · rw [written]
    exact .cons (by decide) (.cons (printed_of_escape? escape) nofun)
  · rw [written]
    have code := printed_of_all (printed_ofByte c.toNat control)
    exact .cons (by decide) (.cons (by decide) (.cons (by decide) (.cons (by decide) code)))
  · rw [written]
    exact .cons printed nofun

theorem printed_string (text : String) : Printed (string text) :=
  .append (.cons (by decide) (.flatMap fun c _ => printed_escapedChar c)) (.cons (by decide) nofun)

theorem printed_bool (b : Bool) : Printed (bool b) := by
  cases b <;> exact printed_of_all rfl

theorem printed_of_isDigit {c : Char} (digit : c.isDigit = true) : 0x20 ≤ c.toNat := by
  simp only [Char.isDigit, Bool.and_eq_true, decide_eq_true_eq] at digit
  have low := digit.1
  simp only [ge_iff_le, UInt32.le_iff_toNat_le, Char.toNat_val] at low
  exact Nat.le_trans (by decide) low

theorem printed_number (n : Nat) : Printed (number n) := by
  intro c member
  rw [number_eq_toDigits] at member
  exact printed_of_isDigit (isDigit_of_mem_toDigits member)

theorem printed_number? (n : Option Nat) : Printed (number? n) := by
  cases n with
  | some n => exact printed_number n
  | none => exact printed_of_all rfl

theorem printed_member (key : String) {value : List Char} (printed : Printed value) :
    Printed (member key value) :=
  .append (printed_string key) (.cons (by decide) printed)

theorem printed_object {texts : List (List Char)} (each : ∀ text ∈ texts, Printed text) :
    Printed (object texts) := by
  cases texts with
  | nil => exact .cons (by decide) (.cons (by decide) nofun)
  | cons text texts =>
    obtain ⟨first, others⟩ := List.forall_mem_cons.mp each
    have whole := object_cons text texts []
    rw [List.append_nil] at whole
    rw [whole]
    refine .cons (by decide) (first.append (.append ?_ (.cons (by decide) nofun)))
    exact .flatMap fun next member => .cons (by decide) (others next member)

def Value.member? (key : String) : Value → Option Value
  | .object members => members.lookup key
  | _ => none

theorem member?_eq_some_iff {members : List (String × Value)} (distinct : (members.map Prod.fst).Nodup)
    {key : String} {v : Value} :
    (Value.object members).member? key = some v ↔ (key, v) ∈ members := by
  rw [Value.member?, List.lookup_eq_some_iff]
  constructor
  · intro split
    obtain ⟨before, after, rfl, -⟩ := split
    exact List.mem_append_right before List.mem_cons_self
  · intro inside
    obtain ⟨before, after, rfl⟩ := List.append_of_mem inside
    refine ⟨before, after, rfl, fun m earlier => ?_⟩
    rw [List.map_append, List.nodup_append] at distinct
    have other := distinct.2.2 m.1 (List.mem_map_of_mem earlier) key List.mem_cons_self
    exact bne_iff_ne.mpr other.symm

def Value.text? : Value → Option String
  | .string text => some text
  | _ => none

def Value.flag? : Value → Option Bool
  | .bool b => some b
  | _ => none

def Value.count? : Value → Option Nat
  | .number ⟨.ofNat n, 0⟩ => some n
  | _ => none

end Json

namespace Finding

open Json

inductive Tells (f : Finding) : String → Value → Prop
  | name : f.Tells "name" (.string f.name)
  | found : f.Tells "found" (.bool f.found)
  | offset : f.Tells "offset" (.natural? f.offset)
  | occurrences (several : 1 < f.occurrences) : f.Tells "occurrences" (.natural f.occurrences)
  | search {text : String} (given : f.search = some text) : f.Tells "search" (.string text)

/-- The finding that an object tells. Where no count stands, it is one if the signature was found
    and none if it was not. -/
def ofJson? (v : Value) : Option Finding := do
  let name ← (v.member? "name").bind Value.text?
  let found ← (v.member? "found").bind Value.flag?
  return {
    name
    found
    offset := (v.member? "offset").bind Value.count?
    occurrences := ((v.member? "occurrences").bind Value.count?).getD (if found then 1 else 0)
    search := (v.member? "search").bind Value.text? }

def ofLine? (line : String) : Option Finding := (Json.read? line).bind ofJson?

def members (f : Finding) : List (String × Value) :=
  [("found", .bool f.found), ("name", .string f.name)]
  ++ (if f.occurrences > 1 then [("occurrences", .natural f.occurrences)] else [])
  ++ [("offset", .natural? f.offset)]
  ++ (f.search.map fun search => ("search", .string search)).toList

theorem read?_jsonRecord (f : Finding) : Json.read? f.jsonRecord = some (.object f.members) := by
  refine Writes.read? (writes_object ?_)
  have always : List.Forall₂ WritesMember
      [member "found" (bool f.found), member "name" (string f.name)]
      [("found", .bool f.found), ("name", .string f.name)] :=
    .cons ⟨_, rfl, writes_bool f.found⟩ (.cons ⟨_, rfl, writes_string f.name⟩ .nil)
  have offset : List.Forall₂ WritesMember [member "offset" (number? f.offset)]
      [("offset", .natural? f.offset)] :=
    .cons ⟨_, rfl, writes_number? f.offset⟩ .nil
  refine List.rel_append (List.rel_append (List.rel_append always ?_) offset) ?_
  · split
    · exact .cons ⟨_, rfl, writes_number f.occurrences⟩ .nil
    · exact .nil
  · cases f.search with
    | none => exact .nil
    | some search => exact .cons ⟨_, rfl, writes_string search⟩ .nil

theorem printed_jsonRecord (f : Finding) : Printed f.jsonRecord.toList := by
  rw [jsonRecord, String.toList_ofList]
  apply printed_object
  intro text inside
  simp only [List.mem_append, List.mem_cons, List.not_mem_nil, or_false, Option.mem_toList,
    Option.map_eq_some_iff] at inside
  rcases inside with (((rfl | rfl) | inside) | rfl) | ⟨search, -, rfl⟩
  · exact printed_member _ (printed_bool f.found)
  · exact printed_member _ (printed_string f.name)
  · split at inside
    · rw [List.mem_singleton.mp inside]
      exact printed_member _ (printed_number f.occurrences)
    · cases inside
  · exact printed_member _ (printed_number? f.offset)
  · exact printed_member _ (printed_string search)

theorem mem_members_iff {f : Finding} {key : String} {v : Value} :
    (key, v) ∈ f.members ↔ f.Tells key v := by
  constructor
  · intro inside
    simp only [members, List.mem_append, List.mem_cons, List.not_mem_nil, or_false, Prod.mk.injEq,
      Option.mem_toList, Option.map_eq_some_iff] at inside
    rcases inside with (((⟨rfl, rfl⟩ | ⟨rfl, rfl⟩) | inside) | ⟨rfl, rfl⟩) | ⟨text, given, rfl, rfl⟩
    · exact .found
    · exact .name
    · split at inside
      · rename_i several
        obtain ⟨rfl, rfl⟩ := Prod.mk.inj (List.mem_singleton.mp inside)
        exact .occurrences several
      · cases inside
    · exact .offset
    · exact .search given
  · intro tells
    cases tells with
    | name => simp [members]
    | found => simp [members]
    | offset => simp [members]
    | occurrences several => simp [members, several]
    | search given => simp [members, given]

theorem nodup_keys (f : Finding) : (f.members.map Prod.fst).Nodup := by
  unfold members
  split <;> cases f.search <;> simp

theorem Tells.member? {f : Finding} {key : String} {v : Value} (tells : f.Tells key v) :
    (Value.object f.members).member? key = some v :=
  (member?_eq_some_iff f.nodup_keys).mpr (mem_members_iff.mpr tells)

theorem member?_eq_none {f : Finding} {key : String} (untold : ∀ v, ¬ f.Tells key v) :
    (Value.object f.members).member? key = none := by
  rw [Option.eq_none_iff_forall_ne_some]
  intro v there
  exact untold v (mem_members_iff.mp ((member?_eq_some_iff f.nodup_keys).mp there))

theorem Tells.searches {f : Finding} {key : String} {v : Value} (tells : f.Tells key v)
    (named : key = "search") : f.search ≠ none := by
  cases tells with
  | search given => simp [given]
  | name | found | offset | occurrences => exact absurd named (by decide)

theorem Tells.several {f : Finding} {key : String} {v : Value} (tells : f.Tells key v)
    (named : key = "occurrences") : 1 < f.occurrences := by
  cases tells with
  | occurrences several => exact several
  | name | found | offset | search => exact absurd named (by decide)

theorem offset_of_members (f : Finding) :
    ((Value.object f.members).member? "offset").bind Value.count? = f.offset := by
  rw [Tells.offset.member?, Option.bind_some]
  cases f.offset <;> rfl

theorem search_of_members (f : Finding) :
    ((Value.object f.members).member? "search").bind Value.text? = f.search := by
  cases given : f.search with
  | none =>
    rw [member?_eq_none fun v tells => tells.searches rfl given, Option.bind_none]
  | some text =>
    rw [(Tells.search given).member?]
    rfl

theorem occurrences_of_members (f : Finding) :
    ((Value.object f.members).member? "occurrences").bind Value.count? =
      if 1 < f.occurrences then some f.occurrences else none := by
  split
  · rename_i several
    rw [(Tells.occurrences several).member?]
    rfl
  · rename_i few
    rw [member?_eq_none fun v tells => few (tells.several rfl), Option.bind_none]

/-- A finding is told by its record just if a count that is left out is the one that stands for it. -/
theorem ofLine?_jsonRecord_iff {f : Finding} :
    ofLine? f.jsonRecord = some f ↔
      (f.occurrences ≤ 1 → f.occurrences = if f.found then 1 else 0) := by
  rw [ofLine?, read?_jsonRecord, Option.bind_some, ofJson?, Tells.name.member?, Tells.found.member?,
    offset_of_members, search_of_members, occurrences_of_members]
  obtain ⟨name, found, offset, occurrences, search⟩ := f
  simp only [Option.bind_some, Value.text?, Value.flag?, Option.bind_eq_bind, Option.pure_def,
    Option.some.injEq, mk.injEq, true_and, and_true]
  split
  · rename_i several
    simp only [Option.getD_some, true_iff]
    omega
  · rename_i few
    rw [Option.getD_none]
    constructor
    · intro same _
      exact same.symm
    · intro counted
      exact (counted (Nat.le_of_not_lt few)).symm

end Finding

theorem Scan.locate_counted (s : Scan) (name : String) (pattern : Pattern) :
    (s.locate name pattern).occurrences ≤ 1 →
      (s.locate name pattern).occurrences = if (s.locate name pattern).found then 1 else 0 := by
  intro few
  rcases s.locate_tells name pattern with ⟨hit, -⟩ | ⟨miss, -⟩
  · have positive := hit.positive
    rw [hit.found, if_pos rfl]
    omega
  · rw [miss.found, miss.occurrences]
    rfl

theorem Scan.exists_locate_of_seen {s : Scan} {entries : List Entry} {f : Finding}
    (seen : f ∈ (s.run entries).seen) : ∃ name pattern, s.locate name pattern = f := by
  obtain ⟨e, raw, -, pattern, -, located⟩ := gives_of_seen seen
  exact ⟨e.name, pattern, located⟩

/-- The JSON record of a finding stays on one line and is read as an object that tells its name,
    whether it was found and where, and the count and the search text only where there is need.
    What a search gives can be read back from its record in whole. -/
theorem json_record_lossless :
    (∀ f : Finding, ∃ line members, (⟨.json, true⟩ : Formatter).record? f = some line ∧
      (∀ c ∈ line.toList, 0x20 ≤ c.toNat) ∧ Json.read? line = some (.object members) ∧
      (members.map Prod.fst).Nodup ∧ ∀ key v, (key, v) ∈ members ↔ f.Tells key v) ∧
    (∀ (s : Scan) (name : String) (pattern : Pattern),
      ((⟨.json, true⟩ : Formatter).record? (s.locate name pattern)).bind Finding.ofLine? =
        some (s.locate name pattern)) ∧
    ∀ (s : Scan) (entries : List Entry), ∀ f ∈ (s.run entries).seen,
      ((⟨.json, true⟩ : Formatter).record? f).bind Finding.ofLine? = some f := by
  have written (f : Finding) : (⟨.json, true⟩ : Formatter).record? f = some f.jsonRecord := by
    simp [Formatter.record?]
  have back (s : Scan) (name : String) (pattern : Pattern) :
      ((⟨.json, true⟩ : Formatter).record? (s.locate name pattern)).bind Finding.ofLine? =
        some (s.locate name pattern) := by
    rw [written, Option.bind_some]
    exact Finding.ofLine?_jsonRecord_iff.mpr (s.locate_counted name pattern)
  refine ⟨fun f => ⟨f.jsonRecord, f.members, written f, f.printed_jsonRecord, f.read?_jsonRecord,
    f.nodup_keys, fun key v => Finding.mem_members_iff⟩, back, ?_⟩
  intro s entries f seen
  obtain ⟨name, pattern, rfl⟩ := Scan.exists_locate_of_seen seen
  exact back s name pattern

theorem json_record_of_quoting_name :
    let s : Scan := ⟨#[0x55, 0x55], {}⟩
    let e : Entry := ⟨"\x7b\"found\":\nnull\x7d", "tf", "server", some "\\x55", none⟩
    let f : Finding := .hit e.name 0 2
    f ∈ (s.run [e]).seen ∧
      ((⟨.json, true⟩ : Formatter).record? f).bind Finding.ofLine? = some f := by
  intro s e f
  have seen : f ∈ (s.run [e]).seen := by decide +kernel
  exact ⟨seen, json_record_lossless.2.2 s [e] f seen⟩

end SigScan
