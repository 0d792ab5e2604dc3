import SigScan.Proofs.JsonRecord
import SigScan.Proofs.SearchReading

namespace SigScan

def labelEnds : List Char := ['@', '\n']

/-- Two texts that are parted at their last mark are parted alike. -/
theorem last_mark_unique {marks front front' tail tail' : List Char} {m m' : Char} (marked : m ∈ marks)
    (marked' : m' ∈ marks) (plain : ∀ c ∈ tail, c ∉ marks) (plain' : ∀ c ∈ tail', c ∉ marks)
    (same : front ++ m :: tail = front' ++ m' :: tail') : front = front' ∧ m = m' ∧ tail = tail' := by
  rcases List.append_eq_append_iff.mp same with ⟨gap, rfl, rest⟩ | ⟨gap, rfl, rest⟩
  · cases gap with
    | nil =>
      obtain ⟨mark, tails⟩ := List.cons.inj rest
      exact ⟨(List.append_nil _).symm, mark, tails⟩
    | cons c gap =>
      have behind : m' ∈ tail := (List.cons.inj rest).2 ▸ List.mem_append_right gap List.mem_cons_self
      exact absurd marked' (plain m' behind)
  · cases gap with
    | nil =>
      obtain ⟨mark, tails⟩ := List.cons.inj rest
      exact ⟨List.append_nil _, mark.symm, tails.symm⟩
    | cons c gap =>
      have behind : m ∈ tail' := (List.cons.inj rest).2 ▸ List.mem_append_right gap List.mem_cons_self
      exact absurd marked (plain' m behind)

theorem toDigits_unmarked (n : Nat) : ∀ c ∈ Nat.toDigits 10 n, c ∉ labelEnds := by
  intro c member marked
  have digit := Json.isDigit_of_mem_toDigits member
  have undigit : labelEnds.all (!·.isDigit) = true := by decide
  have sign := List.all_eq_true.mp undigit c marked
  rw [digit] at sign
  cases sign

theorem toDigits_inj {n n' : Nat} (same : Nat.toDigits 10 n = Nat.toDigits 10 n') : n = n' :=
  calc
    n = Nat.ofDigitChars 10 (Nat.toDigits 10 n) 0 := Nat.ofDigitChars_ten_toDigits.symm
    _ = Nat.ofDigitChars 10 (Nat.toDigits 10 n') 0 := by rw [same]
    _ = n' := Nat.ofDigitChars_ten_toDigits

theorem searchToken_unmarked (descriptor : Descriptor) : ∀ c ∈ descriptor.searchToken, c ∉ labelEnds := by
  intro c member marked
  have other : labelEnds.all (fun mark => Hex.digit? mark = none ∧ mark ≠ '.') = true := by decide
  obtain ⟨undigit, dotless⟩ := of_decide_eq_true (List.all_eq_true.mp other c marked)
  exact Signature.not_mem_searchToken undigit dotless descriptor member

theorem searchString_unmarked (pattern : Pattern) :
    ∀ c ∈ pattern.searchString.toList, c ∉ labelEnds := by
  rw [Pattern.searchString, String.toList_ofList]
  induction pattern with
  | nil =>
    intro c member
    cases member
  | cons descriptor rest ih =>
    cases rest with
    | nil =>
      rw [List.map_singleton, List.intercalate_singleton]
      exact searchToken_unmarked descriptor
    | cons next rest =>
      have blank : ' ' ∉ labelEnds := by decide
      rw [List.map_cons, List.map_cons, List.intercalate_cons_cons]
      intro c member
      rcases List.mem_append.mp member with front | behind
      · rcases List.mem_append.mp front with token | between
        · exact searchToken_unmarked descriptor c token
        · exact List.mem_singleton.mp between ▸ blank
      · exact ih c behind

structure Finding.Alike (f f' : Finding) : Prop where
  name : f.name = f'.name
  found : f.found = f'.found
  offset : f.offset = f'.offset
  search : f.search = f'.search

/-- The label of a finding that a search gives, the mark that ends the label, and what is written
    behind it. -/
inductive Finding.Parted : Finding → List Char → Char → List Char → Prop
  | hit (name : String) (offset occurrences : Nat) : Parted (.hit name offset occurrences)
      (name.toList ++ " FOUND".toList) '@' (Nat.toDigits 10 offset)
  | miss (name : String) (pattern : Pattern) : Parted (.miss name pattern.searchString)
      (name.toList ++ " NOT FOUND".toList) '\n' pattern.searchString.toList

namespace Finding.Parted

variable {f f' : Finding} {label label' tail tail' : List Char} {m m' : Char}

theorem textRecord (parted : f.Parted label m tail) : f.textRecord.toList = label ++ m :: tail := by
  cases parted with
  | hit name offset occurrences =>
    show (name ++ " FOUND@" ++ toString offset).toList = _
    rw [String.toList_append, String.toList_append, Nat.toString_eq_repr, Nat.toList_repr,
      List.append_assoc, List.append_assoc]
    rfl
  | miss name pattern =>
    show (name ++ " NOT FOUND\n" ++ pattern.searchString).toList = _
    rw [String.toList_append, String.toList_append, List.append_assoc, List.append_assoc]
    rfl

theorem mark (parted : f.Parted label m tail) : m ∈ labelEnds := by
  cases parted <;> decide

theorem unmarked (parted : f.Parted label m tail) : ∀ c ∈ tail, c ∉ labelEnds := by
  cases parted with
  | hit _ offset => exact toDigits_unmarked offset
  | miss _ pattern => exact searchString_unmarked pattern

theorem alike (parted : f.Parted label m tail) (parted' : f'.Parted label' m' tail')
    (labels : label = label') (marks : m = m') (tails : tail = tail') : f.Alike f' := by
  cases parted with
  | hit name offset =>
    cases parted' with
    | hit name' offset' =>
      have names := String.toList_inj.mp (List.append_cancel_right labels)
      exact ⟨names, rfl, congrArg some (toDigits_inj tails), rfl⟩
    | miss => exact absurd marks (by decide)
  | miss name pattern =>
    cases parted' with
    | hit => exact absurd marks (by decide)
    | miss name' pattern' =>
      have names := String.toList_inj.mp (List.append_cancel_right labels)
      exact ⟨names, rfl, rfl, congrArg some (String.toList_inj.mp tails)⟩

end Finding.Parted

theorem Finding.Alike.textRecord_eq {f f' : Finding} (alike : f.Alike f') :
    f.textRecord = f'.textRecord := by
  rw [textRecord, textRecord, alike.name, alike.offset, alike.search]

namespace Scan

theorem locate_parted (s : Scan) (name : String) (pattern : Pattern) :
    ∃ label m tail, (s.locate name pattern).Parted label m tail := by
  unfold locate
  split
  · exact ⟨_, _, _, .hit _ _ _⟩
  · exact ⟨_, _, _, .miss _ _⟩

theorem textRecord_locate_iff {s s' : Scan} {name name' : String} {pattern pattern' : Pattern} :
    (s.locate name pattern).textRecord = (s'.locate name' pattern').textRecord ↔
      (s.locate name pattern).Alike (s'.locate name' pattern') := by
  refine ⟨fun same => ?_, Finding.Alike.textRecord_eq⟩
  obtain ⟨label, m, tail, parted⟩ := s.locate_parted name pattern
  obtain ⟨label', m', tail', parted'⟩ := s'.locate_parted name' pattern'
  have texts := congrArg String.toList same
  rw [parted.textRecord, parted'.textRecord] at texts
  obtain ⟨labels, marks, tails⟩ :=
    last_mark_unique parted.mark parted'.mark parted.unmarked parted'.unmarked texts
  exact parted.alike parted' labels marks tails

end Scan

/-- Two findings of searches have one text record just if they agree on the name, on whether and where
    the signature was found and on the search string. Names are written as they are and may hold
    whole records, but behind a label come only digits of an offset or tokens of a search string, so
    the last mark of a record ends its own label. -/
theorem text_record_unambiguous (s s' : Scan) :
    (∀ name name' pattern pattern', ∃ record record',
      (⟨.text, true⟩ : Formatter).record? (s.locate name pattern) = some record ∧
      (⟨.text, true⟩ : Formatter).record? (s'.locate name' pattern') = some record' ∧
      (record = record' ↔ (s.locate name pattern).Alike (s'.locate name' pattern'))) ∧
    ∀ entries entries', ∀ f ∈ (s.run entries).seen, ∀ f' ∈ (s'.run entries').seen, ∃ record record',
      (⟨.text, true⟩ : Formatter).record? f = some record ∧
      (⟨.text, true⟩ : Formatter).record? f' = some record' ∧ (record = record' ↔ f.Alike f') := by
  have written (f : Finding) : (⟨.text, true⟩ : Formatter).record? f = some f.textRecord := by
    simp [Formatter.record?]
  constructor
  · intro name name' pattern pattern'
    exact ⟨_, _, written _, written _, Scan.textRecord_locate_iff⟩
  · intro entries entries' f seen f' seen'
    obtain ⟨name, pattern, rfl⟩ := Scan.exists_locate_of_seen seen
    obtain ⟨name', pattern', rfl⟩ := Scan.exists_locate_of_seen seen'
    exact ⟨_, _, written _, written _, Scan.textRecord_locate_iff⟩

theorem text_record_of_misleading_names :
    let s : Scan := ⟨#[0x55], {}⟩
    let e : Entry := ⟨"Spawn FOUND@0", "tf", "server", some "\\x90", none⟩
    let e' : Entry := ⟨"Spawn FOUND@0 NOT FOUND\n90", "tf", "server", some "\\x55", none⟩
    let f : Finding := .miss "Spawn FOUND@0" "90"
    let f' : Finding := .hit "Spawn FOUND@0 NOT FOUND\n90" 0 1
    f ∈ (s.run [e, e']).seen ∧ f' ∈ (s.run [e, e']).seen ∧
      f.textRecord = "Spawn FOUND@0 NOT FOUND\n90" ∧
      f'.textRecord = "Spawn FOUND@0 NOT FOUND\n90 FOUND@0" ∧
      ∃ record record', (⟨.text, true⟩ : Formatter).record? f = some record ∧
        (⟨.text, true⟩ : Formatter).record? f' = some record' ∧ (record = record' ↔ f.Alike f') := by
  intro s e e' f f'
  have seen : f ∈ (s.run [e, e']).seen := by decide +kernel
  have seen' : f' ∈ (s.run [e, e']).seen := by decide +kernel
  refine ⟨seen, seen', by decide +kernel, by decide +kernel, ?_⟩
  exact (text_record_unambiguous s s).2 [e, e'] [e, e'] f seen f' seen'

end SigScan
