import SigScan.Command.Run
import SigScan.Proofs.Fate
import SigScan.Proofs.Grammar

namespace SigScan

/-- The settings that a file keeps. One that is not there keeps none. -/
inductive Settings.Kept : Stored → Settings → Prop
  | missing : Kept .missing {}
  | toml {file : Stored} {text : String} {s : Settings} (content : file.text = .ok text)
      (holds : ofToml? text = some s) : Kept file s

def Gamedata.Kept (file : Stored) (gamedata : Extract) : Prop :=
  ∃ text, file.text = .ok text ∧ ofText text = .ok gamedata

theorem Stored.bytes_eq_ok_iff {file : Stored} {bytes : ByteArray} :
    file.bytes = .ok bytes ↔ file = .content bytes := by
  cases file <;> simp [Stored.bytes]

theorem Stored.isNotFound_iff {file : Stored} {failure : Failure}
    (failed : file.text = .error failure) : failure.isNotFound = true ↔ file = .missing := by
  cases file with
  | missing =>
    cases failed
    simp [Failure.isNotFound]
  | unreadable reason =>
    cases failed
    simp [Failure.isNotFound]
  | content bytes =>
    unfold Stored.text at failed
    simp only [Stored.bytes] at failed
    split at failed
    · cases failed
    · cases failed
      simp [Failure.isNotFound]

namespace Settings

theorem kept_iff {file : Stored} {s : Settings} (path : String) :
    Kept file s ↔ ∃ lower, load file path = .ok lower ∧ lower.getD {} = s := by
  constructor
  · intro kept
    cases kept with
    | missing => exact ⟨none, rfl, rfl⟩
    | toml content holds => exact ⟨some s, by simp only [load, content, holds], rfl⟩
  · intro loads
    obtain ⟨lower, loaded, rfl⟩ := loads
    unfold load at loaded
    split at loaded
    · rename_i failure failed
      split at loaded
      · rename_i absent
        cases loaded
        rw [(Stored.isNotFound_iff failed).mp absent]
        exact .missing
      · cases loaded
    · rename_i text content
      split at loaded
      · rename_i s holds
        cases loaded
        exact .toml content holds
      · cases loaded

theorem Kept.unique {file : Stored} {s t : Settings} (left : Kept file s) (right : Kept file t) :
    s = t := by
  obtain ⟨lower, loaded, rfl⟩ := (kept_iff "").mp left
  obtain ⟨lower', loaded', rfl⟩ := (kept_iff "").mp right
  rw [loaded] at loaded'
  cases loaded'
  rfl

theorem resolve_of_named {s : Settings} {binary gamedata : String} (first : s.binary = some binary)
    (second : s.gamedata = some gamedata) :
    s.resolve = .ok ⟨binary, gamedata, s.options, s.formatter⟩ := by
  simp only [resolve, first, second]

theorem resolve_of_missing {s : Settings} (lacking : s.binary = none ∨ s.gamedata = none) :
    s.resolve = .error (.missingInput (", ".intercalate s.missing)) := by
  unfold resolve
  split
  · rename_i first second
    rw [first, second] at lacking
    rcases lacking with absurd | absurd <;> cases absurd
  · rfl

end Settings

theorem Gamedata.load_eq_ok_iff {file : Stored} {path : String} {loaded : Extract} :
    load file path = .ok loaded ↔ ∃ gamedata, Kept file gamedata ∧
      loaded = { gamedata with log := gamedata.log ++ [.loaded gamedata.entries.length path] } := by
  unfold load
  rw [bind_eq_ok_iff]
  constructor
  · intro loads
    obtain ⟨text, content, loads⟩ := loads
    obtain ⟨gamedata, drawn, whole⟩ := bind_eq_ok_iff.mp loads
    cases whole
    exact ⟨gamedata, ⟨text, content, drawn⟩, rfl⟩
  · intro loads
    obtain ⟨gamedata, ⟨text, content, drawn⟩, rfl⟩ := loads
    exact ⟨text, content, bind_eq_ok_iff.mpr ⟨gamedata, drawn, rfl⟩⟩

theorem Gamedata.Kept.unique {file : Stored} {left right : Extract} (kept : Kept file left)
    (kept' : Kept file right) : left = right := by
  obtain ⟨text, content, drawn⟩ := kept
  obtain ⟨text', content', drawn'⟩ := kept'
  rw [content] at content'
  cases content'
  rw [drawn] at drawn'
  cases drawn'
  rfl

namespace Command

def Arguments.configPath (a : Arguments) : String := a.config.getD defaultConfig

def Configured (stored : String → Stored) (a : Arguments) (s : Settings) : Prop :=
  ∃ lower, Settings.Kept (stored a.configPath) lower ∧ lower.merge a.settings = s

structure Inputs where
  settings : Settings
  binary : ByteArray
  gamedata : Gamedata.Extract

namespace Inputs

/-- The inputs are those that a command comes to when nothing fails before its scan. -/
structure Ready (stored : String → Stored) (a : Arguments) (i : Inputs) : Prop where
  configured : Configured stored a i.settings
  binary : ∃ path, i.settings.binary = some path ∧ stored path = .content i.binary
  gamedata : ∃ path, i.settings.gamedata = some path ∧ Gamedata.Kept (stored path) i.gamedata

def scan (i : Inputs) : Scan := ⟨i.binary.data, i.settings.options⟩

def applicable (i : Inputs) : List (Entry × String) :=
  i.settings.options.applicable i.gamedata.entries

def job (i : Inputs) (binary gamedata : String) : Job :=
  ⟨binary, gamedata, i.settings.options, i.settings.formatter⟩

end Inputs

variable {stored : String → Stored} {a : Arguments} {s : Settings}

theorem Configured.unique {t : Settings} (left : Configured stored a s)
    (right : Configured stored a t) : s = t := by
  obtain ⟨lower, kept, rfl⟩ := left
  obtain ⟨lower', kept', rfl⟩ := right
  rw [kept.unique kept']

theorem run_of_accepted {arguments : List String} (accepted : read {} arguments = .ok a) :
    run (m := Id) stored arguments = follow (m := Id) stored a := by
  simp only [run, accepted]

theorem follow_of_load_ok {lower : Option Settings}
    (loads : Settings.load (stored a.configPath) a.configPath = .ok lower) :
    follow (m := Id) stored a =
      (settle (m := Id) stored ((lower.getD {}).merge a.settings)).configured
        (Settings.told a.configPath lower) := by
  unfold follow
  dsimp only [Arguments.configPath] at loads
  simp only [bind, pure, loads]
  rfl

theorem follow_of_load_error {error : Settings.LoadError}
    (loads : Settings.load (stored a.configPath) a.configPath = .error error) :
    follow (m := Id) stored a = .failure error.message [] := by
  unfold follow
  dsimp only [Arguments.configPath] at loads
  simp only [bind, pure, loads]

theorem follow_of_configured (configured : Configured stored a s) :
    ∃ config, follow (m := Id) stored a = (settle (m := Id) stored s).configured config := by
  obtain ⟨lower, kept, rfl⟩ := configured
  obtain ⟨lower, loaded, rfl⟩ := (Settings.kept_iff a.configPath).mp kept
  exact ⟨_, follow_of_load_ok loaded⟩

theorem follow_of_not_configured (unconfigured : ∀ s, ¬ Configured stored a s) :
    ∃ error, Settings.load (stored a.configPath) a.configPath = .error error ∧
      follow (m := Id) stored a = .failure error.message [] := by
  cases loads : Settings.load (stored a.configPath) a.configPath with
  | ok lower =>
    have kept := (Settings.kept_iff a.configPath).mpr ⟨lower, loads, rfl⟩
    exact absurd ⟨_, kept, rfl⟩ (unconfigured _)
  | error error => exact ⟨error, rfl, follow_of_load_error loads⟩

theorem settle_of_missing (lacking : s.binary = none ∨ s.gamedata = none) :
    settle (m := Id) stored s =
      .failure (Failure.missingInput (", ".intercalate s.missing)).message [] := by
  simp only [settle, pure, Settings.resolve_of_missing lacking]

theorem settle_of_named {binary gamedata : String} (first : s.binary = some binary)
    (second : s.gamedata = some gamedata) :
    settle (m := Id) stored s =
      perform (m := Id) stored ⟨binary, gamedata, s.options, s.formatter⟩ := by
  simp only [settle, Settings.resolve_of_named first second]

theorem perform_of_unreadable {job : Job}
    (unreadable : ∀ bytes, stored job.binary ≠ .content bytes) :
    perform (m := Id) stored job = .failure ("Failed to read binary " ++ job.binary) [] := by
  cases read : (stored job.binary).bytes with
  | ok bytes => exact absurd (Stored.bytes_eq_ok_iff.mp read) (unreadable bytes)
  | error failure => simp only [perform, bind, pure, read]

theorem perform_of_unloadable {job : Job} {binary : ByteArray}
    (read : stored job.binary = .content binary)
    (unloadable : ∀ gamedata, ¬ Gamedata.Kept (stored job.gamedata) gamedata) :
    perform (m := Id) stored job = .failure ("Failed to load gamedata " ++ job.gamedata)
      [.binaryLoaded job.binary binary.size] := by
  cases loads : Gamedata.load (stored job.gamedata) job.gamedata with
  | ok loaded =>
    obtain ⟨gamedata, kept, -⟩ := Gamedata.load_eq_ok_iff.mp loads
    exact absurd kept (unloadable gamedata)
  | error failure =>
    simp only [perform, bind, pure, Stored.bytes_eq_ok_iff.mpr read, loads]

theorem perform_of_kept {job : Job} {binary : ByteArray} {gamedata : Gamedata.Extract}
    (read : stored job.binary = .content binary)
    (kept : Gamedata.Kept (stored job.gamedata) gamedata) :
    perform (m := Id) stored job = Command.scan job binary
      { gamedata with log := gamedata.log ++ [.loaded gamedata.entries.length job.gamedata] } := by
  have loads : Gamedata.load (stored job.gamedata) job.gamedata = .ok _ :=
    Gamedata.load_eq_ok_iff.mpr ⟨gamedata, kept, rfl⟩
  simp only [perform, bind, pure, Stored.bytes_eq_ok_iff.mpr read, loads]

theorem follow_of_ready {i : Inputs} (ready : i.Ready stored a) :
    ∃ config path path' log, follow (m := Id) stored a =
      (Command.scan (i.job path path') i.binary { i.gamedata with log := log }).configured config := by
  obtain ⟨configured, ⟨path, named, read⟩, ⟨path', named', kept⟩⟩ := ready
  obtain ⟨config, followed⟩ := follow_of_configured configured
  rw [followed, settle_of_named named named', perform_of_kept read kept]
  exact ⟨config, path, path', _, rfl⟩

theorem follow_of_no_fault {i : Inputs} (ready : i.Ready stored a)
    (sound : (i.scan.trail i.gamedata.entries).fault = none) :
    ∃ config log, follow (m := Id) stored a =
      ⟨0, written i.settings.formatter (i.scan.run i.gamedata.entries).seen, none, config, log⟩ := by
  obtain ⟨config, path, path', log, followed⟩ := follow_of_ready ready
  have passed : (Scan.run ⟨i.binary.data, (i.job path path').options⟩ i.gamedata.entries).report =
      .ok _ :=
    congrArg Scan.Outcome.report (Scan.run_of_no_fault sound)
  rw [followed]
  simp only [Command.scan, passed]
  exact ⟨_, _, rfl⟩

theorem follow_of_fault {i : Inputs} {error : Signature.Error} (ready : i.Ready stored a)
    (faulty : (i.scan.trail i.gamedata.entries).fault = some error) :
    ∃ config log, follow (m := Id) stored a =
      ⟨1, written i.settings.formatter (i.scan.run i.gamedata.entries).seen,
        some "Error: Signature scan aborted", config, log⟩ := by
  obtain ⟨config, path, path', log, followed⟩ := follow_of_ready ready
  have aborted : (Scan.run ⟨i.binary.data, (i.job path path').options⟩ i.gamedata.entries).report =
      .error _ :=
    congrArg Scan.Outcome.report (Scan.run_of_fault faulty)
  rw [followed]
  simp only [Command.scan, aborted]
  exact ⟨_, _, rfl⟩

end Command

end SigScan
