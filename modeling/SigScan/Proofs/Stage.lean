import SigScan.Proofs.Inputs
import SigScan.Proofs.Policy

namespace SigScan

def Scan.compiles (source : Entry × String) : Bool :=
  match Signature.compile source.2 with
  | .ok _ => true
  | .error _ => false

namespace Command

inductive Stage
  | config
  | resolve
  | binary
  | gamedata
  | scan
deriving DecidableEq, Repr

namespace Stage

def all : List Stage := [.config, .resolve, .binary, .gamedata, .scan]

def before (stage : Stage) : List Stage := all.takeWhile (· ≠ stage)

/-- Whether the stage has what it needs, whatever becomes of the others. -/
def Passes (stored : String → Stored) (a : Arguments) : Stage → Prop
  | .config => ∃ s, Configured stored a s
  | .resolve => ∃ s, Configured stored a s ∧ s.binary.isSome ∧ s.gamedata.isSome
  | .binary => ∃ s path bytes, Configured stored a s ∧ s.binary = some path ∧
      stored path = .content bytes
  | .gamedata => ∃ s path gamedata, Configured stored a s ∧ s.gamedata = some path ∧
      Gamedata.Kept (stored path) gamedata
  | .scan => ∃ s path gamedata, Configured stored a s ∧ s.gamedata = some path ∧
      Gamedata.Kept (stored path) gamedata ∧
      (s.keepGoing = some true ∨
        ∀ source ∈ s.options.applicable gamedata.entries, Scan.compiles source = true)

structure FailsFirst (stored : String → Stored) (a : Arguments) (stage : Stage) : Prop where
  passed : ∀ earlier ∈ stage.before, earlier.Passes stored a
  fails : ¬ stage.Passes stored a

inductive Line (stored : String → Stored) (a : Arguments) : Stage → String → Prop
  | unreadable {failure : Failure} (content : (stored a.configPath).text = .error failure) :
      Line stored a .config ("Failed to read " ++ a.configPath)
  | invalid {text : String} (content : (stored a.configPath).text = .ok text) :
      Line stored a .config ("Failed to parse " ++ a.configPath)
  | missing {s : Settings} (configured : Configured stored a s) :
      Line stored a .resolve ("Missing required input: " ++ ", ".intercalate s.missing)
  | binary {s : Settings} {path : String} (configured : Configured stored a s)
      (named : s.binary = some path) : Line stored a .binary ("Failed to read binary " ++ path)
  | gamedata {s : Settings} {path : String} (configured : Configured stored a s)
      (named : s.gamedata = some path) :
      Line stored a .gamedata ("Failed to load gamedata " ++ path)
  | scan : Line stored a .scan "Signature scan aborted"

end Stage

def Inputs.Prints (i : Inputs) (sources : List (Entry × String)) (output : String) : Prop :=
  ∃ findings, List.Forall₂ i.scan.Gives sources findings ∧
    output = String.join ((findings.filterMap i.settings.formatter.record?).map (· ++ "\n"))

/-- How a command ends: at the first stage that fails, or with all stages passed. -/
inductive Ends (stored : String → Stored) (a : Arguments) : Ending → Prop
  | stopped {stage : Stage} {line : String} {config : Option Event} {log : List Event}
      (first : stage.FailsFirst stored a) (early : stage ≠ .scan) (told : stage.Line stored a line) :
      Ends stored a ⟨1, "", some ("Error: " ++ line), config, log⟩
  | aborted {i : Inputs} {line output : String} {config : Option Event} {log : List Event}
      (first : Stage.scan.FailsFirst stored a) (told : Stage.scan.Line stored a line)
      (ready : i.Ready stored a)
      (prints : i.Prints (i.applicable.takeWhile Scan.compiles) output) :
      Ends stored a ⟨1, output, some ("Error: " ++ line), config, log⟩
  | done {i : Inputs} {output : String} {config : Option Event} {log : List Event}
      (passed : ∀ stage, Stage.Passes stored a stage) (ready : i.Ready stored a)
      (prints : i.Prints (i.applicable.filter Scan.compiles) output) :
      Ends stored a ⟨0, output, none, config, log⟩

end Command

namespace Scan

theorem compiles_of_ok (e : Entry) {raw : String} {pattern : Pattern}
    (compiled : Signature.compile raw = .ok pattern) : compiles (e, raw) = true := by
  simp only [compiles, compiled]

theorem not_compiles_of_error (e : Entry) {raw : String} {error : Signature.Error}
    (failed : Signature.compile raw = .error error) : compiles (e, raw) = false := by
  simp only [compiles, failed]

theorem gives_compiling (s : Scan) (entries : List Entry) :
    List.Forall₂ s.Gives
      ((s.options.applicable entries).filter compiles) (entries.filterMap s.finding?) := by
  induction entries with
  | nil => exact .nil
  | cons e entries ih =>
    rw [applicable_cons, List.filterMap_cons]
    cases bears : s.options.bearing e with
    | foreign => simpa [finding?, fate, bears] using ih
    | absent => simpa [finding?, fate, bears] using ih
    | symbol => simpa [finding?, fate, bears] using ih
    | signature raw =>
      cases compiled : Signature.compile raw with
      | ok pattern =>
        have given : s.finding? e = some (s.locate e.name pattern) :=
          finding?_eq_some_iff.mpr ⟨raw, bears, pattern, compiled, rfl⟩
        rw [given, List.singleton_append, List.filter_cons_of_pos (compiles_of_ok e compiled)]
        exact .cons ⟨pattern, compiled, rfl⟩ ih
      | error error =>
        have dropped := not_compiles_of_error e compiled
        simpa [finding?, fate, bears, compiled, dropped] using ih

theorem compiles_of_smooth {s : Scan} {entries : List Entry}
    (smooth : ∀ e ∈ entries, (s.fate e).isRefused = false) :
    ∀ source ∈ s.options.applicable entries, compiles source = true := by
  intro source applies
  obtain ⟨e, raw⟩ := source
  obtain ⟨member, bears⟩ := mem_applicable_iff.mp applies
  have here := smooth e member
  cases compiled : Signature.compile raw with
  | ok pattern => exact compiles_of_ok e compiled
  | error error =>
    rw [fate_eq_refused_iff.mpr ⟨bears, compiled⟩] at here
    cases here

theorem applicable_takeWhile {s : Scan} {before : List Entry}
    (smooth : ∀ e ∈ before, (s.fate e).isRefused = false) {e : Entry} {raw : String}
    {error : Signature.Error} (refused : s.fate e = .refused raw error) (after : List Entry) :
    (s.options.applicable (before ++ e :: after)).takeWhile compiles =
      s.options.applicable before := by
  obtain ⟨bears, failed⟩ := fate_eq_refused_iff.mp refused
  have split : s.options.applicable (before ++ e :: after) =
      s.options.applicable before ++ (e, raw) :: s.options.applicable after := by
    rw [Options.applicable, List.filterMap_append]
    change s.options.applicable before ++ s.options.applicable (e :: after) = _
    rw [applicable_cons, bears, List.singleton_append]
  have stops := not_compiles_of_error e failed
  rw [split, List.takeWhile_append_of_pos (compiles_of_smooth smooth),
    List.takeWhile_cons_of_neg (by simp [stops]), List.append_nil]

/-- A signature that does not compile ends a run that is to abort, and no other run. -/
theorem fault_eq_none_iff (s : Scan) (entries : List Entry) :
    (s.trail entries).fault = none ↔ s.options.policy = .skip ∨
      ∀ source ∈ s.options.applicable entries, compiles source = true := by
  cases policy : s.options.policy with
  | skip => simp [trail_of_skip policy]
  | abort =>
    rcases smooth_or_refused s entries with smooth | ⟨before, e, after, raw, error, rfl, smooth, refused⟩
    · simp only [trail_of_smooth smooth, true_iff]
      exact .inr (compiles_of_smooth smooth)
    · obtain ⟨bears, failed⟩ := fate_eq_refused_iff.mp refused
      simp only [trail_of_abort policy smooth refused, reduceCtorEq, false_or, false_iff]
      intro all
      have applies : (e, raw) ∈ s.options.applicable (before ++ e :: after) :=
        mem_applicable_iff.mpr ⟨by simp, bears⟩
      have compiles := all _ applies
      rw [not_compiles_of_error e failed] at compiles
      cases compiles

theorem gives_up_to_fault {s : Scan} {entries : List Entry} {error : Signature.Error}
    (faulty : (s.trail entries).fault = some error) :
    List.Forall₂ s.Gives ((s.options.applicable entries).takeWhile compiles)
      (s.trail entries).findings := by
  cases policy : s.options.policy with
  | skip =>
    rw [trail_of_skip policy] at faulty
    cases faulty
  | abort =>
    rcases smooth_or_refused s entries with smooth | ⟨before, e, after, raw, error, rfl, smooth, refused⟩
    · rw [trail_of_smooth smooth] at faulty
      cases faulty
    · rw [applicable_takeWhile smooth refused, trail_of_abort policy smooth refused]
      exact gives_applicable smooth

end Scan

namespace Command

variable {stored : String → Stored} {a : Arguments} {s : Settings}

theorem Inputs.Ready.passes {i : Inputs} (ready : i.Ready stored a) :
    ∀ stage, stage ≠ .scan → Stage.Passes stored a stage := by
  obtain ⟨configured, ⟨path, named, read⟩, ⟨path', named', kept⟩⟩ := ready
  intro stage early
  cases stage with
  | config => exact ⟨_, configured⟩
  | resolve => exact ⟨_, configured, by simp [named], by simp [named']⟩
  | binary => exact ⟨_, path, _, configured, named, read⟩
  | gamedata => exact ⟨_, path', _, configured, named', kept⟩
  | scan => exact absurd rfl early

theorem policy_eq_skip_iff (s : Settings) : s.options.policy = .skip ↔ s.keepGoing = some true := by
  unfold Settings.options
  rcases s.keepGoing with _ | _ | _ <;> simp

theorem Inputs.Ready.passes_scan_iff {i : Inputs} (ready : i.Ready stored a) :
    Stage.Passes stored a .scan ↔ (i.scan.trail i.gamedata.entries).fault = none := by
  rw [Scan.fault_eq_none_iff, show i.scan.options = i.settings.options from rfl, policy_eq_skip_iff]
  obtain ⟨configured, -, ⟨path, named, kept⟩⟩ := ready
  constructor
  · intro passes
    obtain ⟨s, path', gamedata, configured', named', kept', sound⟩ := passes
    cases configured.unique configured'
    rw [named] at named'
    cases named'
    cases kept.unique kept'
    exact sound
  · intro sound
    exact ⟨_, path, _, configured, named, kept, sound⟩

theorem Inputs.Ready.follow_ends {i : Inputs} (ready : i.Ready stored a) :
    Ends stored a (follow (m := Id) stored a) := by
  have passes := ready.passes_scan_iff
  cases fault : (i.scan.trail i.gamedata.entries).fault with
  | none =>
    have passed : ∀ stage, Stage.Passes stored a stage := by
      intro stage
      by_cases last : stage = .scan
      · subst last
        exact passes.mpr fault
      · exact ready.passes stage last
    obtain ⟨config, log, ended⟩ := follow_of_no_fault ready fault
    rw [ended, Scan.run_seen, Scan.findings_of_no_fault fault]
    exact .done passed ready ⟨_, Scan.gives_compiling i.scan i.gamedata.entries, rfl⟩
  | some error =>
    have first : Stage.scan.FailsFirst stored a := by
      constructor
      · intro earlier member
        apply ready.passes
        intro last
        subst last
        exact absurd member (by decide)
      · rw [passes, fault]
        simp
    obtain ⟨config, log, ended⟩ := follow_of_fault ready fault
    rw [ended, Scan.run_seen]
    exact .aborted first .scan ready ⟨_, Scan.gives_up_to_fault fault, rfl⟩

theorem line_of_load_error {error : Settings.LoadError}
    (failed : Settings.load (stored a.configPath) a.configPath = .error error) :
    Stage.Line stored a .config error.message := by
  unfold Settings.load at failed
  split at failed
  · rename_i failure content
    split at failed
    · cases failed
    · cases failed
      exact .unreadable content
  · rename_i text content
    split at failed
    · cases failed
    · cases failed
      exact .invalid content

theorem config_failsFirst (unconfigured : ∀ s, ¬ Configured stored a s) :
    Stage.config.FailsFirst stored a := by
  constructor
  · intro earlier member
    cases earlier <;> exact absurd member (by decide)
  · exact not_exists.mpr unconfigured

theorem resolve_failsFirst (configured : Configured stored a s)
    (lacking : s.binary = none ∨ s.gamedata = none) : Stage.resolve.FailsFirst stored a := by
  constructor
  · intro earlier member
    cases earlier with
    | config => exact ⟨s, configured⟩
    | resolve | binary | gamedata | scan => exact absurd member (by decide)
  · intro passes
    obtain ⟨t, other, binary, gamedata⟩ := passes
    cases configured.unique other
    rcases lacking with lacking | lacking
    · simp [lacking] at binary
    · simp [lacking] at gamedata

theorem binary_failsFirst {path path' : String} (configured : Configured stored a s)
    (named : s.binary = some path) (named' : s.gamedata = some path')
    (unreadable : ∀ bytes, stored path ≠ .content bytes) : Stage.binary.FailsFirst stored a := by
  constructor
  · intro earlier member
    cases earlier with
    | config => exact ⟨s, configured⟩
    | resolve => exact ⟨s, configured, by simp [named], by simp [named']⟩
    | binary | gamedata | scan => exact absurd member (by decide)
  · intro passes
    obtain ⟨t, path'', bytes, other, named'', read⟩ := passes
    cases configured.unique other
    rw [named] at named''
    cases named''
    exact unreadable bytes read

theorem gamedata_failsFirst {path path' : String} {bytes : ByteArray}
    (configured : Configured stored a s) (named : s.binary = some path)
    (named' : s.gamedata = some path') (read : stored path = .content bytes)
    (unloadable : ∀ gamedata, ¬ Gamedata.Kept (stored path') gamedata) :
    Stage.gamedata.FailsFirst stored a := by
  constructor
  · intro earlier member
    cases earlier with
    | config => exact ⟨s, configured⟩
    | resolve => exact ⟨s, configured, by simp [named], by simp [named']⟩
    | binary => exact ⟨s, path, bytes, configured, named, read⟩
    | gamedata | scan => exact absurd member (by decide)
  · intro passes
    obtain ⟨t, path'', gamedata, other, named'', kept⟩ := passes
    cases configured.unique other
    rw [named'] at named''
    cases named''
    exact unloadable gamedata kept

theorem named_or_missing (s : Settings) :
    (∃ path path', s.binary = some path ∧ s.gamedata = some path') ∨
      (s.binary = none ∨ s.gamedata = none) := by
  cases binary : s.binary <;> cases gamedata : s.gamedata <;> simp

theorem settle_ends (configured : Configured stored a s) :
    Ends stored a (follow (m := Id) stored a) := by
  obtain ⟨config, followed⟩ := follow_of_configured configured
  rcases named_or_missing s with ⟨path, path', named, named'⟩ | lacking
  · by_cases readable : ∃ bytes, stored path = .content bytes
    · obtain ⟨bytes, read⟩ := readable
      by_cases loadable : ∃ gamedata, Gamedata.Kept (stored path') gamedata
      · obtain ⟨gamedata, kept⟩ := loadable
        have ready : Inputs.Ready stored a ⟨s, bytes, gamedata⟩ :=
          ⟨configured, ⟨path, named, read⟩, ⟨path', named', kept⟩⟩
        exact ready.follow_ends
      · have unloadable := not_exists.mp loadable
        rw [followed, settle_of_named named named', perform_of_unloadable read unloadable]
        exact .stopped (gamedata_failsFirst configured named named' read unloadable) (by decide)
          (.gamedata configured named')
    · have unreadable := not_exists.mp readable
      rw [followed, settle_of_named named named', perform_of_unreadable unreadable]
      exact .stopped (binary_failsFirst configured named named' unreadable) (by decide)
        (.binary configured named)
  · rw [followed, settle_of_missing lacking]
    exact .stopped (resolve_failsFirst configured lacking) (by decide) (.missing configured)

theorem follow_ends (stored : String → Stored) (a : Arguments) :
    Ends stored a (follow (m := Id) stored a) := by
  by_cases configured : ∃ s, Configured stored a s
  · obtain ⟨s, configured⟩ := configured
    exact settle_ends configured
  · have unconfigured := not_exists.mp configured
    obtain ⟨error, failed, ended⟩ := follow_of_not_configured unconfigured
    rw [ended]
    exact .stopped (config_failsFirst unconfigured) (by decide) (line_of_load_error failed)

theorem Ends.status_eq_zero_iff {ending : Ending} (ends : Ends stored a ending) :
    ending.status = 0 ↔ ∀ stage, Stage.Passes stored a stage := by
  cases ends with
  | stopped first early told => simpa using ⟨_, first.fails⟩
  | aborted first told ready prints => simpa using ⟨_, first.fails⟩
  | done passed ready prints => simpa using passed

/-- A command succeeds just if each of its stages passes. Otherwise the first that fails says how it
    ends, and only a scan that fails leaves output behind: the records up to the signature at
    fault. -/
theorem run_ends_at_first_failing_stage {arguments : List String} {a : Arguments}
    (accepted : read {} arguments = .ok a) (stored : String → Stored) :
    let ending : Ending := run (m := Id) stored arguments
    Ends stored a ending ∧ (ending.status = 0 ↔ ∀ stage, Stage.Passes stored a stage) := by
  have ends := follow_ends stored a
  rw [run_of_accepted accepted]
  exact ⟨ends, ends.status_eq_zero_iff⟩

theorem run_ends_at_unreadable_binary :
    let arguments := ["--gamedata=games.txt", "--dll", "server.dll", "-q"]
    let a : Arguments := { settings :=
      { binary := some "server.dll", gamedata := some "games.txt", quiet := some true } }
    let stored (path : String) : Stored :=
      if path = "server.dll" then .directory else .missing
    let ending : Ending := run (m := Id) stored arguments
    read {} arguments = .ok a ∧
      ending.error = some "Error: Failed to read binary server.dll" ∧
      Ends stored a ending ∧ (ending.status = 0 ↔ ∀ stage, Stage.Passes stored a stage) := by
  intro arguments a stored ending
  have accepted : read {} arguments = .ok a := by decide +kernel
  have told : ending.error = some "Error: Failed to read binary server.dll" := by decide +kernel
  exact ⟨accepted, told, run_ends_at_first_failing_stage accepted stored⟩

end Command

end SigScan
