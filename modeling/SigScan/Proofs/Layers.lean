import Mathlib.Data.List.Induction
import SigScan.Proofs.Switches

namespace SigScan.Settings

def stacked (layers : List Settings) : Settings := layers.foldl merge {}

def lastSet {α : Type} (field : Settings → Option α) (layers : List Settings) : Option α :=
  (layers.filterMap field).getLast?

structure Settles (layers : List Settings) (job : Job) : Prop where
  binary : lastSet (·.binary) layers = some job.binary
  gamedata : lastSet (·.gamedata) layers = some job.gamedata
  library : job.options.library = (lastSet (·.library) layers).getD "server"
  platform : job.options.platform = (lastSet (·.platform) layers).getD .windows
  policy : job.options.policy =
    if lastSet (·.keepGoing) layers = some true then .skip else .abort
  format : job.formatter.format = (lastSet (·.format) layers).getD .text
  printFound : job.formatter.printFound = !decide (lastSet (·.quiet) layers = some true)

inductive Lacks (layers : List Settings) : String → Prop
  | binary (unset : ∀ s ∈ layers, s.binary = none) (set : ∃ s ∈ layers, s.gamedata ≠ none) :
      Lacks layers "binary (use --dll to specify a dll)"
  | gamedata (set : ∃ s ∈ layers, s.binary ≠ none) (unset : ∀ s ∈ layers, s.gamedata = none) :
      Lacks layers "gamedata (use --gamedata to specify a gamedata file)"
  | both (binary : ∀ s ∈ layers, s.binary = none) (gamedata : ∀ s ∈ layers, s.gamedata = none) :
      Lacks layers ("binary (use --dll to specify a dll), "
        ++ "gamedata (use --gamedata to specify a gamedata file)")

section Field

variable {α : Type} {field : Settings → Option α}

/-- A field that no other field has a part in when settings are merged. -/
structure IsLayered (field : Settings → Option α) : Prop where
  unset : field {} = none
  merge (lower upper : Settings) : field (lower.merge upper) = (field upper).or (field lower)

theorem lastSet_append_singleton (layers : List Settings) (s : Settings) :
    lastSet field (layers ++ [s]) = (field s).or (lastSet field layers) := by
  rw [lastSet, List.filterMap_append, List.getLast?_append]
  cases set : field s <;> simp [set, lastSet]

theorem lastSet_eq_none_iff {layers : List Settings} :
    lastSet field layers = none ↔ ∀ s ∈ layers, field s = none := by
  rw [lastSet, List.getLast?_eq_none_iff, List.filterMap_eq_nil_iff]

theorem lastSet_ne_none_iff {layers : List Settings} :
    lastSet field layers ≠ none ↔ ∃ s ∈ layers, field s ≠ none := by
  rw [Ne, lastSet_eq_none_iff]
  simp only [not_forall, exists_prop, ne_eq]

theorem stacked_append_singleton (layers : List Settings) (s : Settings) :
    stacked (layers ++ [s]) = (stacked layers).merge s := by
  rw [stacked, List.foldl_append]
  rfl

theorem IsLayered.stacked (layered : IsLayered field) (layers : List Settings) :
    field (stacked layers) = lastSet field layers := by
  induction layers using List.reverseRecOn with
  | nil => exact layered.unset
  | append_singleton layers s ih =>
    rw [stacked_append_singleton, layered.merge, lastSet_append_singleton, ih]

end Field

theorem stacked_eq (layers : List Settings) :
    stacked layers =
      { binary := lastSet (·.binary) layers
        gamedata := lastSet (·.gamedata) layers
        library := lastSet (·.library) layers
        platform := lastSet (·.platform) layers
        quiet := lastSet (·.quiet) layers
        keepGoing := lastSet (·.keepGoing) layers
        format := lastSet (·.format) layers } := by
  have binary : IsLayered (·.binary) := ⟨rfl, fun _ _ => rfl⟩
  have gamedata : IsLayered (·.gamedata) := ⟨rfl, fun _ _ => rfl⟩
  have library : IsLayered (·.library) := ⟨rfl, fun _ _ => rfl⟩
  have platform : IsLayered (·.platform) := ⟨rfl, fun _ _ => rfl⟩
  have quiet : IsLayered (·.quiet) := ⟨rfl, fun _ _ => rfl⟩
  have keepGoing : IsLayered (·.keepGoing) := ⟨rfl, fun _ _ => rfl⟩
  have format : IsLayered (·.format) := ⟨rfl, fun _ _ => rfl⟩
  rw [← binary.stacked, ← gamedata.stacked, ← library.stacked, ← platform.stacked, ← quiet.stacked,
    ← keepGoing.stacked, ← format.stacked]

theorem merge_assoc (a b c : Settings) : (a.merge b).merge c = a.merge (b.merge c) := by
  simp only [merge, Option.or_assoc]

theorem empty_merge (s : Settings) : merge {} s = s := by
  simp only [merge, Option.or_none]

theorem merge_empty (s : Settings) : merge s {} = s := by
  simp only [merge, Option.none_or]

theorem resolve_eq_ok_iff {s : Settings} {job : Job} :
    s.resolve = .ok job ↔ s.binary = some job.binary ∧ s.gamedata = some job.gamedata ∧
      s.options = job.options ∧ s.formatter = job.formatter := by
  constructor
  · intro resolved
    unfold resolve at resolved
    split at resolved
    · rename_i first second
      cases resolved
      exact ⟨first, second, rfl, rfl⟩
    · cases resolved
  · intro parts
    obtain ⟨first, second, options, formatter⟩ := parts
    rw [resolve_of_named first second, options, formatter]

theorem resolve_eq_error_iff {s : Settings} {failure : Failure} :
    s.resolve = .error failure ↔ (s.binary = none ∨ s.gamedata = none) ∧
      failure = .missingInput (", ".intercalate s.missing) := by
  constructor
  · intro failed
    by_cases lacking : s.binary = none ∨ s.gamedata = none
    · rw [resolve_of_missing lacking] at failed
      exact ⟨lacking, (Except.error.inj failed).symm⟩
    · obtain ⟨first, second⟩ := not_or.mp lacking
      obtain ⟨binary, first⟩ := Option.ne_none_iff_exists'.mp first
      obtain ⟨gamedata, second⟩ := Option.ne_none_iff_exists'.mp second
      rw [resolve_of_named first second] at failed
      cases failed
  · intro parts
    obtain ⟨lacking, same⟩ := parts
    rw [resolve_of_missing lacking, same]

theorem stacked_settles_iff (layers : List Settings) (job : Job) :
    (stacked layers).resolve = .ok job ↔ Settles layers job := by
  have options : (stacked layers).options =
      ⟨(lastSet (·.library) layers).getD "server", (lastSet (·.platform) layers).getD .windows,
        if lastSet (·.keepGoing) layers = some true then .skip else .abort⟩ := by
    rw [stacked_eq, Settings.options]
    rcases lastSet (·.keepGoing) layers with _ | _ | _ <;> rfl
  have formatter : (stacked layers).formatter =
      ⟨(lastSet (·.format) layers).getD .text, !decide (lastSet (·.quiet) layers = some true)⟩ := by
    rw [stacked_eq, Settings.formatter]
    rcases lastSet (·.quiet) layers with _ | _ | _ <;> rfl
  rw [resolve_eq_ok_iff, options, formatter, stacked_eq]
  constructor
  · intro parts
    obtain ⟨binary, gamedata, options, formatter⟩ := parts
    exact ⟨binary, gamedata, by rw [← options], by rw [← options], by rw [← options],
      by rw [← formatter], by rw [← formatter]⟩
  · intro settles
    obtain ⟨path, path', ⟨library, platform, policy⟩, ⟨format, printFound⟩⟩ := job
    obtain ⟨binary, gamedata, rfl, rfl, rfl, rfl, rfl⟩ := settles
    exact ⟨binary, gamedata, rfl, rfl⟩

theorem missing_eq (s : Settings) :
    ", ".intercalate s.missing =
      match s.binary, s.gamedata with
      | none, none => "binary (use --dll to specify a dll), "
          ++ "gamedata (use --gamedata to specify a gamedata file)"
      | none, some _ => "binary (use --dll to specify a dll)"
      | some _, none => "gamedata (use --gamedata to specify a gamedata file)"
      | some _, some _ => "" := by
  rw [missing]
  cases s.binary <;> cases s.gamedata <;> rfl

theorem lacks_iff {layers : List Settings} {what : String} :
    Lacks layers what ↔ ((stacked layers).binary = none ∨ (stacked layers).gamedata = none) ∧
      what = ", ".intercalate (stacked layers).missing := by
  have binary : (stacked layers).binary = lastSet (·.binary) layers := by rw [stacked_eq]
  have gamedata : (stacked layers).gamedata = lastSet (·.gamedata) layers := by rw [stacked_eq]
  rw [missing_eq, binary, gamedata]
  constructor
  · intro lacks
    cases lacks with
    | binary unset set =>
      obtain ⟨path, named⟩ := Option.ne_none_iff_exists'.mp (lastSet_ne_none_iff.mpr set)
      rw [lastSet_eq_none_iff.mpr unset, named]
      exact ⟨.inl rfl, rfl⟩
    | gamedata set unset =>
      obtain ⟨path, named⟩ := Option.ne_none_iff_exists'.mp (lastSet_ne_none_iff.mpr set)
      rw [lastSet_eq_none_iff.mpr unset, named]
      exact ⟨.inr rfl, rfl⟩
    | both first second =>
      rw [lastSet_eq_none_iff.mpr first, lastSet_eq_none_iff.mpr second]
      exact ⟨.inl rfl, rfl⟩
  · intro lacks
    obtain ⟨lacking, same⟩ := lacks
    cases first : lastSet (·.binary) layers with
    | none =>
      cases second : lastSet (·.gamedata) layers with
      | none =>
        rw [same, first, second]
        exact .both (lastSet_eq_none_iff.mp first) (lastSet_eq_none_iff.mp second)
      | some path =>
        rw [same, first, second]
        exact .binary (lastSet_eq_none_iff.mp first) (lastSet_ne_none_iff.mp (by simp [second]))
    | some path =>
      cases second : lastSet (·.gamedata) layers with
      | none =>
        rw [same, first, second]
        exact .gamedata (lastSet_ne_none_iff.mp (by simp [first])) (lastSet_eq_none_iff.mp second)
      | some path' => simp [first, second] at lacking

theorem stacked_fails_iff (layers : List Settings) (failure : Failure) :
    (stacked layers).resolve = .error failure ↔
      ∃ what, Lacks layers what ∧ failure = .missingInput what := by
  simp only [resolve_eq_error_iff, lacks_iff]
  constructor
  · intro fails
    exact ⟨_, ⟨fails.1, rfl⟩, fails.2⟩
  · intro fails
    obtain ⟨what, ⟨lacking, rfl⟩, same⟩ := fails
    exact ⟨lacking, same⟩

theorem stacked_resolves_iff (layers : List Settings) :
    (∃ job, (stacked layers).resolve = .ok job) ↔
      (∃ s ∈ layers, s.binary ≠ none) ∧ ∃ s ∈ layers, s.gamedata ≠ none := by
  rw [← lastSet_ne_none_iff, ← lastSet_ne_none_iff]
  constructor
  · intro resolves
    obtain ⟨job, resolved⟩ := resolves
    have settles := (stacked_settles_iff layers job).mp resolved
    exact ⟨by simp [settles.binary], by simp [settles.gamedata]⟩
  · intro named
    obtain ⟨path, first⟩ := Option.ne_none_iff_exists'.mp named.1
    obtain ⟨path', second⟩ := Option.ne_none_iff_exists'.mp named.2
    have binary : (stacked layers).binary = some path := by rw [stacked_eq, first]
    have gamedata : (stacked layers).gamedata = some path' := by rw [stacked_eq, second]
    exact ⟨_, resolve_of_named binary gamedata⟩

theorem stacked_pair (lower upper : Settings) : stacked [lower, upper] = lower.merge upper :=
  congrArg (·.merge upper) (empty_merge lower)

theorem switches_win {arguments : List String} {a : Command.Arguments}
    (accepted : Command.read {} arguments = .ok a) (lower : Settings) :
    (stacked [lower, a.settings]).quiet =
        (if .quiet ∈ Command.switches arguments then some true else lower.quiet) ∧
      (stacked [lower, a.settings]).keepGoing =
        (if .keepGoing ∈ Command.switches arguments then some true else lower.keepGoing) := by
  have quiet : a.settings.quiet = Command.raised (Command.switches arguments) .quiet none :=
    @Command.flag_read {} a .quiet arguments accepted
  have keepGoing : a.settings.keepGoing = Command.raised (Command.switches arguments) .keepGoing none :=
    @Command.flag_read {} a .keepGoing arguments accepted
  rw [stacked_pair]
  constructor
  · rw [merge, quiet, Command.raised]
    split <;> rfl
  · rw [merge, keepGoing, Command.raised]
    split <;> rfl

/-- Of settings in layers, the last that sets a field decides on it, whatever the others say, so
    that it does not matter how layers are put together. They make a job if and only if some layer
    names each input, and else it is told which of the two no layer names. A command goes by its
    stored settings with those of its arguments on top, where a switch that is not given leaves
    what is stored alone. -/
theorem layers_last_set_wins :
    (∀ layers, stacked layers =
      { binary := lastSet (·.binary) layers
        gamedata := lastSet (·.gamedata) layers
        library := lastSet (·.library) layers
        platform := lastSet (·.platform) layers
        quiet := lastSet (·.quiet) layers
        keepGoing := lastSet (·.keepGoing) layers
        format := lastSet (·.format) layers }) ∧
    (∀ a b c : Settings, (a.merge b).merge c = a.merge (b.merge c)) ∧
    (∀ s : Settings, merge {} s = s ∧ merge s {} = s) ∧
    (∀ layers, (∃ job, (stacked layers).resolve = .ok job) ↔
      (∃ s ∈ layers, s.binary ≠ none) ∧ ∃ s ∈ layers, s.gamedata ≠ none) ∧
    (∀ layers job, (stacked layers).resolve = .ok job ↔ Settles layers job) ∧
    (∀ layers failure, (stacked layers).resolve = .error failure ↔
      ∃ what, Lacks layers what ∧ failure = .missingInput what) ∧
    ∀ (stored : String → Stored) (arguments : List String) (a : Command.Arguments) (lower : Settings),
      Command.read {} arguments = .ok a → Kept (stored a.configPath) lower →
      let s := stacked [lower, a.settings]
      (∃ loaded, load (stored a.configPath) a.configPath = .ok loaded ∧
        Command.run (m := Id) stored arguments =
          (Command.settle (m := Id) stored s).configured (told a.configPath loaded)) ∧
        s.quiet = (if .quiet ∈ Command.switches arguments then some true else lower.quiet) ∧
        s.keepGoing =
          (if .keepGoing ∈ Command.switches arguments then some true else lower.keepGoing) := by
  refine ⟨stacked_eq, merge_assoc, fun s => ⟨empty_merge s, merge_empty s⟩, stacked_resolves_iff,
    stacked_settles_iff, stacked_fails_iff, ?_⟩
  intro stored arguments a lower accepted kept s
  obtain ⟨loaded, loads, same⟩ := (kept_iff a.configPath).mp kept
  refine ⟨⟨loaded, loads, ?_⟩, switches_win accepted lower⟩
  rw [Command.run_of_accepted accepted, Command.follow_of_load_ok loads, same, ← stacked_pair]

theorem layers_of_stored_settings_and_switch :
    let config := Stored.content "quiet = true\nkeep_going = false\nbinary = \"a.dll\"".toUTF8
    let stored (path : String) : Stored := if path = "sigcheck.toml" then config else .missing
    let arguments := ["--dll=b.dll", "--keep-going"]
    let a : Command.Arguments := { settings := { binary := some "b.dll", keepGoing := some true } }
    let lower : Settings :=
      { binary := some "a.dll", quiet := some true, keepGoing := some false }
    let s := stacked [lower, a.settings]
    Command.read {} arguments = .ok a ∧ Kept (stored a.configPath) lower ∧
      Command.switches arguments = [.keepGoing] ∧
      (∃ loaded, load (stored a.configPath) a.configPath = .ok loaded ∧
        Command.run (m := Id) stored arguments =
          (Command.settle (m := Id) stored s).configured (told a.configPath loaded)) ∧
      s.binary = some "b.dll" ∧ s.quiet = some true ∧ s.keepGoing = some true ∧
      s.resolve = .error (.missingInput "gamedata (use --gamedata to specify a gamedata file)") := by
  intro config stored arguments a lower s
  have accepted : Command.read {} arguments = .ok a := by decide +kernel
  have content : config.text = .ok "quiet = true\nkeep_going = false\nbinary = \"a.dll\"" := by
    decide +kernel
  have holds : ofToml? "quiet = true\nkeep_going = false\nbinary = \"a.dll\"" = some lower := by
    decide +kernel
  have kept : Kept (stored a.configPath) lower := .toml content holds
  have given : Command.switches arguments = [.keepGoing] := by decide +kernel
  obtain ⟨layered, -, -, -, -, fails, command⟩ := layers_last_set_wins
  obtain ⟨runs, quiet, keepGoing⟩ := command stored arguments a lower accepted kept
  rw [given] at quiet keepGoing
  have lacks : Lacks [lower, a.settings] "gamedata (use --gamedata to specify a gamedata file)" :=
    .gamedata ⟨lower, by simp, by simp [lower]⟩ (by simp [lower, a])
  exact ⟨accepted, kept, given, runs, congrArg Settings.binary (layered [lower, a.settings]), quiet,
    keepGoing, (fails [lower, a.settings] _).mpr ⟨_, lacks, rfl⟩⟩

end SigScan.Settings
