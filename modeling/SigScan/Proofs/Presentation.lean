import SigScan.Proofs.Finding
import SigScan.Proofs.Reading
import SigScan.Proofs.Stage

namespace SigScan

def Finding.record (f : Finding) : Format → String
  | .text => f.textRecord
  | .json => f.jsonRecord

theorem Scan.offset_of_seen {s : Scan} {entries : List Entry} {f : Finding}
    (seen : f ∈ (s.run entries).seen) : f.offset.isSome = f.found := by
  obtain ⟨e, raw, -, gives⟩ := gives_of_seen seen
  obtain ⟨pattern, -, -, tells⟩ := gives.tells
  rcases tells with ⟨hit, -⟩ | ⟨miss, -⟩
  · obtain ⟨offset, placed, -⟩ := hit.first
    rw [placed, hit.found, Option.isSome_some]
  · rw [miss.offset, miss.found, Option.isSome_none]

theorem Formatter.record?_of_offset {f : Finding} (agrees : f.offset.isSome = f.found)
    (p : Formatter) :
    p.record? f = if f.found && !p.printFound then none else some (f.record p.format) := by
  obtain ⟨format, printFound⟩ := p
  cases format with
  | text => simp only [record?, agrees, Finding.record]
  | json => rfl

namespace Settings

def substance (s : Settings) : Settings := { s with quiet := none, format := none }

def shown (s : Settings) (findings : List Finding) : List Finding :=
  if s.quiet = some true then findings.filter (!·.found) else findings

def lines (s : Settings) (findings : List Finding) : String :=
  String.join ((s.shown findings).map fun f => f.record (s.format.getD .text) ++ "\n")

theorem filterMap_record? {findings : List Finding}
    (agree : ∀ f ∈ findings, f.offset.isSome = f.found) (s : Settings) :
    findings.filterMap s.formatter.record? =
      (s.shown findings).map (Finding.record · (s.format.getD .text)) := by
  unfold shown
  by_cases quiet : s.quiet = some true
  · rw [if_pos quiet, ← List.filterMap_eq_map, List.filterMap_filter]
    apply List.filterMap_congr
    intro f member
    rw [Formatter.record?_of_offset (agree f member)]
    cases f.found <;> simp [formatter, quiet]
  · have loud : s.quiet.getD false = false := by
      rcases known : s.quiet with _ | _ | _
      · rfl
      · rfl
      · exact absurd known quiet
    rw [if_neg quiet, ← List.filterMap_eq_map]
    apply List.filterMap_congr
    intro f member
    rw [Formatter.record?_of_offset (agree f member)]
    simp [formatter, loud]

theorem written_eq_lines {findings : List Finding}
    (agree : ∀ f ∈ findings, f.offset.isSome = f.found) (s : Settings) :
    Command.written s.formatter findings = s.lines findings := by
  rw [Command.written, filterMap_record? agree, List.map_map]
  rfl

def Invalid (file : Stored) : Prop := ∃ text, file.text = .ok text ∧ ofToml? text = none

inductive KeptAlike : Stored → Stored → Prop
  | same (file : Stored) : KeptAlike file file
  | settings {file file' : Stored} {s s' : Settings} (kept : Kept file s) (kept' : Kept file' s')
      (same : s.substance = s'.substance) : KeptAlike file file'
  | invalid {file file' : Stored} (left : Invalid file) (right : Invalid file') :
      KeptAlike file file'

theorem load_of_invalid {file : Stored} (invalid : Invalid file) (path : String) :
    load file path = .error (.invalid path) := by
  obtain ⟨text, content, bad⟩ := invalid
  simp only [load, content, bad]

theorem Invalid.not_kept {file : Stored} (invalid : Invalid file) (s : Settings) :
    ¬ Kept file s := by
  intro kept
  obtain ⟨lower, loaded, -⟩ := (kept_iff "").mp kept
  rw [load_of_invalid invalid] at loaded
  cases loaded

namespace KeptAlike

variable {file file' : Stored}

theorem symm (alike : KeptAlike file file') : KeptAlike file' file := by
  cases alike with
  | same => exact .same file
  | settings kept kept' same => exact .settings kept' kept same.symm
  | invalid left right => exact .invalid right left

theorem kept (alike : KeptAlike file file') {s : Settings} (kept : Kept file s) :
    ∃ s', Kept file' s' ∧ s.substance = s'.substance := by
  cases alike with
  | same => exact ⟨s, kept, rfl⟩
  | settings kept' kept'' same =>
    cases kept.unique kept'
    exact ⟨_, kept'', same⟩
  | invalid left right => exact absurd kept (left.not_kept s)

theorem load_error (alike : KeptAlike file file') {path : String} {error : LoadError}
    (failed : load file path = .error error) : load file' path = .error error := by
  cases alike with
  | same => exact failed
  | settings kept kept' same =>
    obtain ⟨lower, loaded, -⟩ := (kept_iff path).mp kept
    rw [loaded] at failed
    cases failed
  | invalid left right =>
    rw [load_of_invalid left] at failed
    rw [load_of_invalid right]
    exact failed

end KeptAlike

theorem merge_substance (lower upper : Settings) :
    (lower.merge upper).substance = lower.substance.merge upper.substance := rfl

theorem of_substance {s s' : Settings} (same : s.substance = s'.substance) :
    s.binary = s'.binary ∧ s.gamedata = s'.gamedata ∧ s.options = s'.options ∧
      s.missing = s'.missing := by
  have binary := congrArg binary same
  have gamedata := congrArg gamedata same
  have options := congrArg options same
  have missing := congrArg missing same
  exact ⟨binary, gamedata, options, missing⟩

end Settings

namespace Gamedata

open KeyValues

def signature (text : String) : Node := .object [("library", .text "server"), ("windows", .text text)]

def twoSignatures : Document :=
  ⟨"Games", .object [("tf", .object [("Signatures",
    .object [("Think", signature "\\x90"), ("Touch", signature "\\xEC")])])]⟩

def twoEntries : List Entry :=
  [⟨"Think", "tf", "server", some "\\x90", none⟩, ⟨"Touch", "tf", "server", some "\\xEC", none⟩]

theorem twoSignatures_sorted : twoSignatures.value.Sorted := by
  have fields : Text.utf8 "library" ≤ Text.utf8 "windows" := by decide
  have names : Text.utf8 "Think" ≤ Text.utf8 "Touch" := by decide
  have one (text : String) : (signature text).Sorted :=
    .object (by simpa [Ascending] using fields) (by simpa using ⟨.text "server", .text text⟩)
  have both : (Node.object [("Think", signature "\\x90"), ("Touch", signature "\\xEC")]).Sorted :=
    .object (by simpa [Ascending] using names) (by simpa using ⟨one "\\x90", one "\\xEC"⟩)
  refine .object (by simp [Ascending]) ?_
  simpa using .object (by simp [Ascending]) (by simpa using both)

theorem ofText_twoSignatures :
    ofText (String.ofList (twoSignatures.lexemes.flatMap Lexeme.written)) = .ok ⟨twoEntries, []⟩ := by
  have drawn : ofDocument twoSignatures = ⟨twoEntries, []⟩ := by decide +kernel
  rw [ofText_written twoSignatures_sorted String.toList_ofList (by decide), drawn]

end Gamedata

namespace Command

inductive Results (stored : String → Stored) (a : Arguments) : List Finding → Prop
  | scanned {i : Inputs} (ready : i.Ready stored a) :
      Results stored a (i.scan.run i.gamedata.entries).seen
  | nothing (unready : ∀ i : Inputs, ¬ i.Ready stored a) : Results stored a []

inductive Presents (stored : String → Stored) (a : Arguments) (findings : List Finding) :
    String → Prop
  | under {s : Settings} (configured : Configured stored a s) :
      Presents stored a findings (s.lines findings)
  | nothing (unconfigured : ∀ s, ¬ Configured stored a s) : Presents stored a findings ""

/-- Two commands that differ in their presentation, if they differ at all: their arguments and
    their stored settings set the same otherwise, and they have the same inputs. -/
structure Variants (stored stored' : String → Stored) (a a' : Arguments) : Prop where
  config : a.configPath = a'.configPath
  arguments : a.settings.substance = a'.settings.substance
  kept : Settings.KeptAlike (stored a.configPath) (stored' a'.configPath)
  inputs : ∀ s path, Configured stored a s → s.binary = some path ∨ s.gamedata = some path →
    stored path = stored' path

variable {stored stored' : String → Stored} {a a' : Arguments} {s s' : Settings}

theorem Inputs.Ready.follow_output {i : Inputs} (ready : i.Ready stored a) :
    (follow (m := Id) stored a).output =
      written i.settings.formatter (i.scan.run i.gamedata.entries).seen := by
  cases fault : (i.scan.trail i.gamedata.entries).fault with
  | none =>
    obtain ⟨config, log, ended⟩ := follow_of_no_fault ready fault
    rw [ended]
  | some error =>
    obtain ⟨config, log, ended⟩ := follow_of_fault ready fault
    rw [ended]

theorem Results.presents {findings : List Finding} (results : Results stored a findings) :
    Presents stored a findings (follow (m := Id) stored a).output := by
  cases results with
  | @scanned i ready =>
    rw [ready.follow_output, Settings.written_eq_lines fun f => Scan.offset_of_seen]
    exact .under ready.configured
  | nothing unready =>
    have silent : (follow (m := Id) stored a).output = "" := by
      have ends := follow_ends stored a
      generalize follow (m := Id) stored a = ending at ends
      cases ends with
      | stopped first early told => rfl
      | aborted first told ready prints => exact absurd ready (unready _)
      | done passed ready prints => exact absurd ready (unready _)
    rw [silent]
    by_cases configured : ∃ s, Configured stored a s
    · obtain ⟨s, configured⟩ := configured
      have empty : s.lines [] = "" := by
        unfold Settings.lines Settings.shown
        split <;> rfl
      rw [← empty]
      exact .under configured
    · exact .nothing (not_exists.mp configured)

theorem results_exist (stored : String → Stored) (a : Arguments) :
    ∃ findings, Results stored a findings := by
  by_cases ready : ∃ i : Inputs, i.Ready stored a
  · obtain ⟨i, ready⟩ := ready
    exact ⟨_, .scanned ready⟩
  · exact ⟨[], .nothing (not_exists.mp ready)⟩

theorem configured_alike (arguments : a.settings.substance = a'.settings.substance)
    (kept : Settings.KeptAlike (stored a.configPath) (stored' a'.configPath))
    (configured : Configured stored a s) :
    ∃ s', Configured stored' a' s' ∧ s.substance = s'.substance := by
  obtain ⟨lower, kept', rfl⟩ := configured
  obtain ⟨lower', kept'', same⟩ := kept.kept kept'
  refine ⟨_, ⟨lower', kept'', rfl⟩, ?_⟩
  rw [Settings.merge_substance, Settings.merge_substance, same, arguments]

namespace Variants

theorem symm (variants : Variants stored stored' a a') : Variants stored' stored a' a where
  config := variants.config.symm
  arguments := variants.arguments.symm
  kept := variants.kept.symm
  inputs := by
    intro s' path configured' named
    obtain ⟨s, configured, same⟩ :=
      configured_alike variants.arguments.symm variants.kept.symm configured'
    obtain ⟨binary, gamedata, -⟩ := Settings.of_substance same
    rw [binary, gamedata] at named
    exact (variants.inputs s path configured named).symm

theorem ready (variants : Variants stored stored' a a') {i : Inputs} (ready : i.Ready stored a) :
    ∃ s', Inputs.Ready stored' a' { i with settings := s' } ∧ s'.options = i.settings.options := by
  obtain ⟨configured, ⟨path, named, read⟩, ⟨path', named', kept⟩⟩ := ready
  obtain ⟨s', configured', same⟩ := configured_alike variants.arguments variants.kept configured
  obtain ⟨binary, gamedata, options, -⟩ := Settings.of_substance same
  rw [variants.inputs _ path configured (.inl named)] at read
  rw [variants.inputs _ path' configured (.inr named')] at kept
  rw [binary] at named
  rw [gamedata] at named'
  exact ⟨s', ⟨configured', ⟨path, named, read⟩, ⟨path', named', kept⟩⟩, options.symm⟩

theorem results (variants : Variants stored stored' a a') {findings : List Finding}
    (results : Results stored a findings) : Results stored' a' findings := by
  cases results with
  | @scanned i ready =>
    obtain ⟨s', ready', options⟩ := variants.ready ready
    have scanned := Results.scanned ready'
    simp only [Inputs.scan, options] at scanned
    exact scanned
  | nothing unready =>
    apply Results.nothing
    intro i ready'
    obtain ⟨s, ready, -⟩ := variants.symm.ready ready'
    exact unready _ ready

end Variants

structure Ending.Alike (left right : Ending) : Prop where
  status : left.status = right.status
  error : left.error = right.error
  log : left.log = right.log

theorem Ending.Alike.configured {left right : Ending} (alike : left.Alike right)
    (config config' : Event) : (left.configured config).Alike (right.configured config') where
  status := alike.status
  error := alike.error
  log := alike.log

theorem scan_alike (job : Job) (formatter : Formatter) (binary : ByteArray)
    (gamedata : Gamedata.Extract) :
    (scan job binary gamedata).Alike (scan { job with formatter := formatter } binary gamedata) := by
  cases report : (Scan.run ⟨binary.data, job.options⟩ gamedata.entries).report with
  | ok reported =>
    simp only [scan, report]
    exact ⟨rfl, rfl, rfl⟩
  | error error =>
    simp only [scan, report]
    exact ⟨rfl, rfl, rfl⟩

theorem perform_alike {path path' : String} (first : stored path = stored' path)
    (second : stored path' = stored' path') (options : Options) (formatter formatter' : Formatter) :
    (perform (m := Id) stored ⟨path, path', options, formatter⟩).Alike
      (perform (m := Id) stored' ⟨path, path', options, formatter'⟩) := by
  by_cases readable : ∃ bytes, stored path = .content bytes
  · obtain ⟨bytes, read⟩ := readable
    by_cases loadable : ∃ gamedata, Gamedata.Kept (stored path') gamedata
    · obtain ⟨gamedata, kept⟩ := loadable
      rw [perform_of_kept read kept, perform_of_kept (first ▸ read) (second ▸ kept)]
      exact scan_alike ⟨path, path', options, formatter⟩ formatter' bytes _
    · have unloadable := not_exists.mp loadable
      rw [perform_of_unloadable read unloadable,
        perform_of_unloadable (first ▸ read) (second ▸ unloadable)]
      exact ⟨rfl, rfl, rfl⟩
  · have unreadable := not_exists.mp readable
    rw [perform_of_unreadable unreadable, perform_of_unreadable (first ▸ unreadable)]
    exact ⟨rfl, rfl, rfl⟩

theorem settle_alike (same : s.substance = s'.substance)
    (inputs : ∀ path, s.binary = some path ∨ s.gamedata = some path → stored path = stored' path) :
    (settle (m := Id) stored s).Alike (settle (m := Id) stored' s') := by
  obtain ⟨binary, gamedata, options, missing⟩ := Settings.of_substance same
  rcases named_or_missing s with ⟨path, path', named, named'⟩ | lacking
  · have first := inputs path (.inl named)
    have second := inputs path' (.inr named')
    rw [settle_of_named named named', settle_of_named (binary ▸ named) (gamedata ▸ named'), options]
    exact perform_alike first second s'.options s.formatter s'.formatter
  · have lacking' : s'.binary = none ∨ s'.gamedata = none := by rwa [binary, gamedata] at lacking
    rw [settle_of_missing lacking, settle_of_missing lacking', missing]
    exact ⟨rfl, rfl, rfl⟩

theorem Variants.follow_alike (variants : Variants stored stored' a a') :
    (follow (m := Id) stored a).Alike (follow (m := Id) stored' a') := by
  by_cases configured : ∃ s, Configured stored a s
  · obtain ⟨s, configured⟩ := configured
    obtain ⟨s', configured', same⟩ :=
      configured_alike variants.arguments variants.kept configured
    obtain ⟨config, followed⟩ := follow_of_configured configured
    obtain ⟨config', followed'⟩ := follow_of_configured configured'
    rw [followed, followed']
    exact (settle_alike same fun path => variants.inputs s path configured).configured config config'
  · have unconfigured := not_exists.mp configured
    obtain ⟨error, failed, ended⟩ := follow_of_not_configured unconfigured
    have failed' := variants.kept.load_error failed
    rw [variants.config] at failed'
    rw [ended, follow_of_load_error failed']
    exact ⟨rfl, rfl, rfl⟩

theorem Variants.presents (variants : Variants stored stored' a a') {findings : List Finding}
    (results : Results stored a findings) :
    Results stored' a' findings ∧ Presents stored a findings (follow (m := Id) stored a).output ∧
      Presents stored' a' findings (follow (m := Id) stored' a').output := by
  have results' := variants.results results
  exact ⟨results', results.presents, results'.presents⟩

/-- Whatever the format, a finding is left out just if it was found and is not to be written. The
    settings for presentation decide that and the format, and nothing else of a command. -/
theorem presentation_changes_no_substance :
    (∀ (s : Scan) (entries : List Entry), ∀ f ∈ (s.run entries).seen, ∀ p : Formatter,
      (p.record? f).isSome = true ↔ p.printFound = true ∨ f.found = false) ∧
    (∀ (stored stored' : String → Stored) (arguments arguments' : List String)
        (a a' : Arguments), read {} arguments = .ok a → read {} arguments' = .ok a' →
      Variants stored stored' a a' →
      let ending : Ending := run (m := Id) stored arguments
      let ending' : Ending := run (m := Id) stored' arguments'
      ending.Alike ending' ∧ (∃ findings, Results stored a findings) ∧
        ∀ findings, Results stored a findings → Results stored' a' findings ∧
          Presents stored a findings ending.output ∧
          Presents stored' a' findings ending'.output) ∧
    (∀ (stored stored' : String → Stored) (arguments arguments' : List String) (stop : Stop),
      read {} arguments = .error stop → read {} arguments' = .error stop →
      (run (m := Id) stored arguments : Ending) = run (m := Id) stored' arguments') := by
  refine ⟨?_, ?_, ?_⟩
  · intro s entries f seen p
    rw [p.record?_of_offset (Scan.offset_of_seen seen)]
    cases f.found <;> cases p.printFound <;> simp
  · intro stored stored' arguments arguments' a a' accepted accepted' variants
    rw [run_of_accepted accepted, run_of_accepted accepted']
    exact ⟨variants.follow_alike, results_exist stored a, fun _ => variants.presents⟩
  · intro stored stored' arguments arguments' stop refused refused'
    cases stop <;> simp only [run, refused, refused']

theorem quiet_json_shows_same_findings :
    let gamedata := String.ofList (Gamedata.twoSignatures.lexemes.flatMap KeyValues.Lexeme.written)
    let stored (path : String) : Stored :=
      if path = "server.dll" then .content ⟨#[0x90]⟩
      else if path = "games.txt" then .content gamedata.toUTF8 else .missing
    let config := Stored.content "format = \"json\"\n".toUTF8
    let stored' (path : String) : Stored := if path = "sigcheck.toml" then config else stored path
    let arguments := ["--dll=server.dll", "--gamedata=games.txt"]
    let arguments' := ["--dll=server.dll", "--gamedata=games.txt", "-q"]
    let settings : Settings := { binary := some "server.dll", gamedata := some "games.txt" }
    let a : Arguments := { settings := settings }
    let a' : Arguments := { settings := { settings with quiet := some true } }
    let findings := [Finding.hit "Think" 0 1, Finding.miss "Touch" "ec"]
    let ending : Ending := run (m := Id) stored arguments
    let ending' : Ending := run (m := Id) stored' arguments'
    read {} arguments = .ok a ∧ read {} arguments' = .ok a' ∧ Variants stored stored' a a' ∧
      Results stored a findings ∧ Results stored' a' findings ∧ ending.Alike ending' ∧
      Presents stored a findings ending.output ∧ Presents stored' a' findings ending'.output := by
  intro gamedata stored config stored' arguments arguments' settings a a' findings ending ending'
  have accepted : read {} arguments = .ok a := by decide +kernel
  have accepted' : read {} arguments' = .ok a' := by decide +kernel
  have content : config.text = .ok "format = \"json\"\n" := by decide +kernel
  have holds : Settings.ofToml? "format = \"json\"\n" = some { format := some .json } := by
    decide +kernel
  have variants : Variants stored stored' a a' := by
    refine ⟨rfl, rfl, .settings .missing (.toml content holds) rfl, ?_⟩
    intro s path configured named
    cases configured.unique ⟨{}, .missing, rfl⟩
    rcases named with named | named <;> cases named <;> rfl
  have text : (stored "games.txt").text = .ok gamedata := by decide +kernel
  have ready : Inputs.Ready stored a ⟨settings, ⟨#[0x90]⟩, ⟨Gamedata.twoEntries, []⟩⟩ :=
    ⟨⟨{}, .missing, rfl⟩, ⟨_, rfl, rfl⟩, ⟨_, rfl, _, text, Gamedata.ofText_twoSignatures⟩⟩
  have results : Results stored a findings := by
    have seen : (Scan.run ⟨#[0x90], settings.options⟩ Gamedata.twoEntries).seen = findings := by
      decide +kernel
    rw [← seen]
    exact .scanned ready
  obtain ⟨-, same, -⟩ := presentation_changes_no_substance
  obtain ⟨alike, -, presents⟩ :=
    same stored stored' arguments arguments' a a' accepted accepted' variants
  obtain ⟨results', shown, shown'⟩ := presents findings results
  exact ⟨accepted, accepted', variants, results, results', alike, shown, shown'⟩

end Command

end SigScan
