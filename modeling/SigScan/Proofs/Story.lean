import SigScan.Proofs.Account
import SigScan.Proofs.Hex
import SigScan.Proofs.Scope

namespace SigScan

namespace Hex

structure Numeral (n : Nat) (digits : List (Fin 16)) : Prop where
  value : digits.foldl (fun value digit => 16 * value + digit.val) 0 = n
  filled : digits ≠ []
  unpadded : digits.head? = some 0 → digits = [0]

theorem sign_upper : ∀ n : Fin 16, (Digit.mk n true).sign = (Nat.digitChar n).toUpper := by
  decide

theorem exists_numeral (n : Nat) : ∃ digits, Numeral n digits ∧
    upper n = digits.map fun digit => (Digit.mk digit true).sign := by
  induction n using Nat.strong_induction_on with
  | h n ih =>
    by_cases small : n < 16
    · refine ⟨[⟨n, small⟩], ⟨by simp, by simp, by simp⟩, ?_⟩
      rw [upper, lower, Nat.toDigits_of_lt_base small, List.map_singleton, List.map_singleton, sign_upper]
    · obtain ⟨digits, numeral, written⟩ := ih (n / 16) (by omega)
      have last : n % 16 < 16 := Nat.mod_lt n (by decide)
      refine ⟨digits ++ [⟨n % 16, last⟩], ⟨?_, by simp, ?_⟩, ?_⟩
      · rw [List.foldl_append, numeral.value]
        exact Nat.div_add_mod n 16
      · intro padded
        rw [List.head?_append_of_ne_nil _ numeral.filled] at padded
        have nothing := numeral.value
        rw [numeral.unpadded padded] at nothing
        simp at nothing
        omega
      · rw [upper, lower] at written ⊢
        rw [Nat.toDigits_of_base_le (by decide) (by omega), List.map_append, written, List.map_append,
          List.map_singleton, List.map_singleton, sign_upper]

end Hex

def Event.line (e : Event) : Level × String := (e.level, e.message)

inductive Placed : Option Nat → String → Prop
  | nowhere : Placed none "not found"
  | somewhere {offset : Nat} {digits : List (Fin 16)} (numeral : Hex.Numeral offset digits) :
      Placed (some offset)
        ("0x" ++ String.ofList (digits.map fun digit => (Hex.Digit.mk digit true).sign))

structure Chapter where
  lines : List (Level × String)
  findings : List Finding

namespace Scan

/-- The entry ends the run: it carries a signature that does not compile, and the policy is to abort. -/
def Aborts (s : Scan) (e : Entry) : Prop :=
  s.options.policy = .abort ∧ ∃ raw error, e.Carries s.options.library s.options.platform raw ∧
    Signature.compile raw = .error error

/-- The chapter of an entry in the story of a run. -/
inductive Told (s : Scan) (e : Entry) : Chapter → Prop
  | foreign (other : e.library ≠ s.options.library) : Told s e ⟨[], []⟩
  | absent (own : e.library = s.options.library)
      (absent : (e.given s.options.platform).getD "" = "") : Told s e ⟨[], []⟩
  | symbol {value : String} (own : e.library = s.options.library)
      (given : e.given s.options.platform = some value) (sign : value.toList.head? = some '@') :
      Told s e ⟨[(.debug, s!"{e.name}: {s.options.platform.word} value is a symbol, skipping")], []⟩
  | aborting {raw : String} {error : Signature.Error} (policy : s.options.policy = .abort)
      (carries : e.Carries s.options.library s.options.platform raw)
      (failed : Signature.compile raw = .error error) :
      Told s e ⟨[(.error, s!"{e.name}: {raw}")], []⟩
  | skipping {raw : String} {error : Signature.Error} (policy : s.options.policy = .skip)
      (carries : e.Carries s.options.library s.options.platform raw)
      (failed : Signature.compile raw = .error error) :
      Told s e ⟨[(.error, s!"{e.name}: {raw}"), (.warn, s!"Skipping {e.name}: {error.message}")], []⟩
  | several {raw place : String} {f : Finding}
      (carries : e.Carries s.options.library s.options.platform raw) (gives : s.Gives (e, raw) f)
      (several : 1 < f.occurrences) (placed : Placed f.offset place) :
      Told s e ⟨[(.warn, s!"{e.name} matches {f.occurrences} locations, reporting the first"),
        (.debug, s!"  {e.name}: {place}")], [f]⟩
  | single {raw place : String} {f : Finding}
      (carries : e.Carries s.options.library s.options.platform raw) (gives : s.Gives (e, raw) f)
      (single : f.occurrences ≤ 1) (placed : Placed f.offset place) :
      Told s e ⟨[(.debug, s!"  {e.name}: {place}")], [f]⟩

def opening (s : Scan) : Level × String :=
  (.debug,
    s!"Scanning {s.binary.size} bytes for library '{s.options.library}' ({s.options.platform.word})")

def counted (total found missing skipped : Nat) : Level × String :=
  (.info, s!"Scanned {total} signatures: {found} found, {missing} missing, " ++ s!"{skipped} skipped")

/-- How a run through entries ends: which of them it came to, and what the log closes with. -/
inductive Closes (s : Scan) (entries : List Entry) : List Entry → List (Level × String) → Prop
  | summary {report : Report} (smooth : ∀ e ∈ entries, ¬ s.Aborts e)
      (done : (s.run entries).report = .ok report)
      (total : report.foundCount + report.missingCount + report.skipped.length =
        (s.options.applicable entries).length) :
      Closes s entries entries [counted (s.options.applicable entries).length report.foundCount
        report.missingCount report.skipped.length]
  | aborted {before after : List Entry} {e : Entry} {error : Signature.Error}
      (divided : before ++ e :: after = entries) (smooth : ∀ earlier ∈ before, ¬ s.Aborts earlier)
      (aborts : s.Aborts e) (failed : (s.run entries).report = .error error) :
      Closes s entries (before ++ [e]) []

theorem placed_place (offset : Option Nat) : Placed offset (Event.place offset) := by
  cases offset with
  | none => exact .nowhere
  | some offset =>
    obtain ⟨digits, numeral, written⟩ := Hex.exists_numeral offset
    rw [Event.place, written]
    exact .somewhere numeral

theorem aborts_iff {s : Scan} {e : Entry} :
    s.Aborts e ↔ s.options.policy = .abort ∧ (s.fate e).isRefused = true := by
  apply and_congr_right
  intro _
  constructor
  · intro fails
    obtain ⟨raw, error, carries, failed⟩ := fails
    have bears := Options.bearing_eq_signature_iff.mpr carries
    rw [fate_eq_refused_iff.mpr ⟨bears, failed⟩]
    rfl
  · intro refused
    cases known : s.fate e with
    | refused raw error =>
      obtain ⟨bears, failed⟩ := fate_eq_refused_iff.mp known
      exact ⟨raw, error, Options.bearing_eq_signature_iff.mp bears, failed⟩
    | ignored | symbol | searched => simp [known, Fate.isRefused] at refused

def chapter (s : Scan) (e : Entry) : Chapter := ⟨(s.told e).map Event.line, (s.finding? e).toList⟩

theorem chapter_of_ignored {s : Scan} {e : Entry} (ignored : s.fate e = .ignored) :
    s.chapter e = ⟨[], []⟩ := by
  simp [chapter, told, finding?, ignored]

theorem chapter_of_symbol {s : Scan} {e : Entry} (symbol : s.fate e = .symbol) :
    s.chapter e = ⟨[Event.line (.symbol e.name s.options.platform)], []⟩ := by
  simp [chapter, told, finding?, symbol]

theorem chapter_of_refused {s : Scan} {e : Entry} {raw : String} {error : Signature.Error}
    (refused : s.fate e = .refused raw error) :
    s.chapter e = ⟨[Event.line (.malformed e.name raw), Event.line (.skipping e.name error)], []⟩ := by
  simp [chapter, told, finding?, refused]

theorem chapter_of_searched {s : Scan} {e : Entry} {f : Finding} (searched : s.fate e = .searched f) :
    s.chapter e = ⟨(ambiguity f).map Event.line ++ [Event.line (.located f.name f.offset)], [f]⟩ := by
  simp [chapter, told, finding?, searched]

theorem told_searched {s : Scan} {e : Entry} {raw : String} {f : Finding}
    (carries : e.Carries s.options.library s.options.platform raw) (gives : s.Gives (e, raw) f) :
    s.Told e ⟨(ambiguity f).map Event.line ++ [Event.line (.located f.name f.offset)], [f]⟩ := by
  obtain ⟨-, -, name, -⟩ := gives.tells
  have placed := placed_place f.offset
  rw [ambiguity, name]
  split
  · exact .several carries gives ‹_› placed
  · exact .single carries gives (Nat.le_of_not_lt ‹_›) placed

theorem told_carrying {s : Scan} {e : Entry} {raw : String} (goes_on : ¬ s.Aborts e)
    (carries : e.Carries s.options.library s.options.platform raw) : s.Told e (s.chapter e) := by
  have bears := Options.bearing_eq_signature_iff.mpr carries
  cases compiled : Signature.compile raw with
  | error error =>
    have policy : s.options.policy = .skip := by
      cases known : s.options.policy with
      | skip => rfl
      | abort => exact absurd ⟨known, raw, error, carries, compiled⟩ goes_on
    rw [chapter_of_refused (fate_eq_refused_iff.mpr ⟨bears, compiled⟩)]
    exact .skipping policy carries compiled
  | ok pattern =>
    have gives : s.Gives (e, raw) (s.locate e.name pattern) := ⟨pattern, compiled, rfl⟩
    rw [chapter_of_searched (fate_eq_searched_iff.mpr ⟨raw, bears, gives⟩)]
    exact told_searched carries gives

theorem told_chapter {s : Scan} {e : Entry} (goes_on : ¬ s.Aborts e) : s.Told e (s.chapter e) := by
  by_cases own : e.library = s.options.library
  · by_cases absent : (e.given s.options.platform).getD "" = ""
    · have ignored : s.fate e = .ignored := by
        have unvalued : e.value? s.options.platform = none := by
          rw [Option.eq_none_iff_forall_ne_some]
          intro raw given
          obtain ⟨given, filled⟩ := Entry.value?_eq_some_iff.mp given
          exact filled (by simpa [given] using absent)
        simp [fate, Options.bearing, Entry.isSymbol, own, unvalued]
      rw [chapter_of_ignored ignored]
      exact .absent own absent
    · obtain ⟨value, given⟩ : ∃ value, e.given s.options.platform = some value := by
        cases known : e.given s.options.platform with
        | none => simp [known] at absent
        | some value => exact ⟨value, rfl⟩
      have filled : value ≠ "" := by simpa [given] using absent
      have valued := Entry.value?_eq_some_iff.mpr ⟨given, filled⟩
      by_cases sign : value.toList.head? = some '@'
      · have symbol : s.fate e = .symbol := by
          simp [fate, Options.bearing, Entry.isSymbol, own, valued, sign]
        rw [chapter_of_symbol symbol]
        exact .symbol own given sign
      · have bears : s.options.bearing e = .signature value := by
          simp [Options.bearing, Entry.isSymbol, own, valued, sign]
        exact told_carrying goes_on (Options.bearing_eq_signature_iff.mp bears)
  · rw [chapter_of_ignored (fate_of_foreign own)]
    exact .foreign own

theorem chapters_lines (s : Scan) (entries : List Entry) :
    (entries.map s.chapter).flatMap Chapter.lines = (entries.flatMap s.told).map Event.line := by
  rw [List.flatMap_map, List.map_flatMap]
  rfl

theorem chapters_findings (s : Scan) (entries : List Entry) :
    (entries.map s.chapter).flatMap Chapter.findings = entries.filterMap s.finding? := by
  rw [List.flatMap_map, List.filterMap_eq_flatMap_toList]
  rfl

theorem told_chapters {s : Scan} {entries : List Entry} (smooth : ∀ e ∈ entries, ¬ s.Aborts e) :
    List.Forall₂ s.Told entries (entries.map s.chapter) := by
  rw [List.forall₂_map_right_iff, List.forall₂_same]
  exact fun e member => told_chapter (smooth e member)

theorem length_applicable (s : Scan) (entries : List Entry) :
    (entries.filterMap s.finding?).length + (entries.filterMap s.skipped?).length =
      (s.options.applicable entries).length := by
  induction entries with
  | nil => rfl
  | cons e entries ih =>
    rw [applicable_cons, List.length_append, ← ih, List.filterMap_cons, List.filterMap_cons]
    cases bears : s.options.bearing e with
    | foreign | absent | symbol => simp [finding?, skipped?, fate, bears]
    | signature raw =>
      cases compiled : Signature.compile raw <;>
        simp [finding?, skipped?, fate, bears, compiled] <;> omega

theorem isRefused_of_goes_on {s : Scan} {e : Entry} (policy : s.options.policy = .abort)
    (goes_on : ¬ s.Aborts e) : (s.fate e).isRefused = false := by
  rw [← Bool.not_eq_true]
  exact fun refused => goes_on (aborts_iff.mpr ⟨policy, refused⟩)

theorem skipped?_of_not_refused {s : Scan} {e : Entry} (smooth : (s.fate e).isRefused = false) :
    s.skipped? e = none := by
  cases known : s.fate e with
  | refused => simp [known, Fate.isRefused] at smooth
  | ignored | symbol | searched => simp [skipped?, known]

theorem trail_of_goes_on {s : Scan} {entries : List Entry} (smooth : ∀ e ∈ entries, ¬ s.Aborts e) :
    s.trail entries =
      { findings := entries.filterMap s.finding?
        skipped := entries.filterMap s.skipped?
        log := entries.flatMap s.told } := by
  cases policy : s.options.policy with
  | skip => exact trail_of_skip policy entries
  | abort =>
    have unrefused := fun e member => isRefused_of_goes_on policy (smooth e member)
    have none_skipped : entries.filterMap s.skipped? = [] := by
      rw [List.filterMap_eq_nil_iff]
      exact fun e member => skipped?_of_not_refused (unrefused e member)
    rw [trail_of_smooth unrefused, none_skipped]

theorem run_of_goes_on {s : Scan} {entries : List Entry} (smooth : ∀ e ∈ entries, ¬ s.Aborts e) :
    ∃ report : Report, report.findings = entries.filterMap s.finding? ∧
      report.skipped = entries.filterMap s.skipped? ∧
      s.run entries = ⟨.ok report, report.findings,
        .scanning s.binary.size s.options.library s.options.platform ::
          (entries.flatMap s.told ++ [summary report])⟩ := by
  have walked := trail_of_goes_on smooth
  have whole := run_of_no_fault (congrArg Trail.fault walked)
  rw [walked] at whole
  exact ⟨_, rfl, rfl, whole⟩

theorem run_of_aborts {s : Scan} {before : List Entry} (smooth : ∀ e ∈ before, ¬ s.Aborts e) {e : Entry}
    (aborts : s.Aborts e) (after : List Entry) :
    ∃ raw error, s.Told e ⟨[Event.line (.malformed e.name raw)], []⟩ ∧
      s.run (before ++ e :: after) = ⟨.error error, before.filterMap s.finding?,
        .scanning s.binary.size s.options.library s.options.platform ::
          (before.flatMap s.told ++ [.malformed e.name raw])⟩ := by
  obtain ⟨policy, raw, error, carries, failed⟩ := aborts
  have refused := fate_eq_refused_iff.mpr ⟨Options.bearing_eq_signature_iff.mpr carries, failed⟩
  have unrefused := fun earlier member => isRefused_of_goes_on policy (smooth earlier member)
  have cut := trail_of_abort policy unrefused refused after
  have whole := run_of_fault (congrArg Trail.fault cut)
  rw [cut] at whole
  exact ⟨raw, error, .aborting policy carries failed, whole⟩

theorem line_summary {r : Report} {total : Nat}
    (counts : r.foundCount + r.missingCount + r.skipped.length = total) :
    (summary r).line = counted total r.foundCount r.missingCount r.skipped.length := by
  rw [← counts, foundCount_add_missingCount]
  rfl

theorem first_aborts (s : Scan) (entries : List Entry) :
    (∀ e ∈ entries, ¬ s.Aborts e) ∨
      ∃ before e after, before ++ e :: after = entries ∧ (∀ earlier ∈ before, ¬ s.Aborts earlier) ∧
        s.Aborts e := by
  induction entries with
  | nil => exact .inl nofun
  | cons e entries ih =>
    by_cases aborts : s.Aborts e
    · exact .inr ⟨[], e, entries, rfl, nofun, aborts⟩
    · rcases ih with smooth | ⟨before, last, after, rfl, smooth, ends⟩
      · exact .inl (List.forall_mem_cons.mpr ⟨aborts, smooth⟩)
      · exact .inr ⟨e :: before, last, after, rfl, List.forall_mem_cons.mpr ⟨aborts, smooth⟩, ends⟩

/-- The log of a run opens with what is scanned. Then it tells of each entry, in their order, as far as
    the run comes: nothing of one for another library or without a value, that a symbol is passed
    over, that a signature does not compile and whether it is skipped, or where a signature was
    found, after a warning if it was found more than once. It closes with a summary just if the
    run ends with a report, and that counts each applicable entry once. -/
theorem log_tells_story (s : Scan) (entries : List Entry) :
    ∃ (walked : List Entry) (chapters : List Chapter) (closing : List (Level × String)),
      s.Closes entries walked closing ∧ List.Forall₂ s.Told walked chapters ∧
      (s.run entries).seen = chapters.flatMap Chapter.findings ∧
      (s.run entries).log.map Event.line =
        s.opening :: (chapters.flatMap Chapter.lines ++ closing) := by
  rcases s.first_aborts entries with smooth | ⟨before, e, after, rfl, smooth, aborts⟩
  · obtain ⟨report, findings, skipped, whole⟩ := run_of_goes_on smooth
    have total : report.foundCount + report.missingCount + report.skipped.length =
        (s.options.applicable entries).length := by
      rw [foundCount_add_missingCount, findings, skipped, length_applicable]
    refine ⟨entries, entries.map s.chapter, _, .summary smooth (congrArg Outcome.report whole) total,
      told_chapters smooth, ?_, ?_⟩
    · rw [whole, chapters_findings, findings]
    · rw [whole, chapters_lines, ← line_summary total, List.map_cons, List.map_append]
      rfl
  · obtain ⟨raw, error, last, whole⟩ := run_of_aborts smooth aborts after
    refine ⟨before ++ [e], before.map s.chapter ++ [⟨[Event.line (.malformed e.name raw)], []⟩], [],
      .aborted rfl smooth aborts (congrArg Outcome.report whole),
      List.rel_append (told_chapters smooth) (.cons last .nil), ?_, ?_⟩
    · rw [whole, List.flatMap_append, chapters_findings, List.flatMap_singleton, List.append_nil]
    · rw [whole, List.flatMap_append, chapters_lines, List.append_nil, List.map_cons, List.map_append]
      rfl

example :
    let s : Scan := ⟨#[0x90, 0x90], ⟨"server", .linux, .skip⟩⟩
    let entry (name value : String) : Entry := ⟨name, "tf", "server", none, some value⟩
    (s.run [entry "Think" "@_ZN5ThinkEv", entry "Touch" "", entry "Use" "\\xZ",
      entry "Pad" "\\x90"]).log =
        [.scanning 2 "server" .linux, .symbol "Think" .linux, .malformed "Use" "\\xZ",
          .skipping "Use" ⟨.malformed, "\\xZ", "Z"⟩, .ambiguous "Pad" 2, .located "Pad" (some 0),
          .scanned 2 1 0 1] := by
  decide +kernel

end Scan

end SigScan
