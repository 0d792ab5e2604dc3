import SigScan.Command.Arguments
import SigScan.Gamedata
import SigScan.Settings.Toml

namespace SigScan.Command

/-- How a command ends: its exit status, what it writes, the line that says what failed, what was
    told of the stored settings, and what was told after that. -/
structure Ending where
  status : Nat
  output : String
  error : Option String
  config : Option Event
  log : List Event
deriving DecidableEq, Repr

def Ending.failure (message : String) (log : List Event) : Ending :=
  ⟨1, "", some ("Error: " ++ message), none, log⟩

def Ending.configured (e : Ending) (config : Event) : Ending := { e with config := some config }

def defaultConfig : String := "sigcheck.toml"

def written (formatter : Formatter) (findings : List Finding) : String :=
  String.join ((findings.filterMap formatter.record?).map (· ++ "\n"))

def inputLog (job : Job) (binary : ByteArray) (gamedata : Gamedata.Extract) : List Event :=
  .binaryLoaded job.binary binary.size :: gamedata.log
    ++ (if gamedata.entries.isEmpty then [.noEntries job.gamedata] else [])

def scan (job : Job) (binary : ByteArray) (gamedata : Gamedata.Extract) : Ending :=
  let outcome := Scan.run ⟨binary.data, job.options⟩ gamedata.entries
  let output := written job.formatter outcome.seen
  let log := inputLog job binary gamedata ++ outcome.log
  match outcome.report with
  | .ok report =>
    ⟨0, output, none, none, log ++ report.skipped.map fun s => .wasSkipped s.name s.error⟩
  | .error _ => ⟨1, output, some "Error: Signature scan aborted", none, log⟩

variable {m : Type → Type} [Monad m]

def perform (stored : String → m Stored) (job : Job) : m Ending := do
  match (← stored job.binary).bytes with
  | .error _ => return .failure ("Failed to read binary " ++ job.binary) []
  | .ok binary =>
    match Gamedata.load (← stored job.gamedata) job.gamedata with
    | .error _ =>
      return .failure ("Failed to load gamedata " ++ job.gamedata)
        [.binaryLoaded job.binary binary.size]
    | .ok gamedata => return scan job binary gamedata

def settle (stored : String → m Stored) (s : Settings) : m Ending :=
  match s.resolve with
  | .error failure => return .failure failure.message []
  | .ok job => perform stored job

def follow (stored : String → m Stored) (a : Arguments) : m Ending := do
  let config := a.config.getD defaultConfig
  match Settings.load (← stored config) config with
  | .error error => return .failure error.message []
  | .ok settings =>
    let ending ← settle stored ((settings.getD {}).merge a.settings)
    return ending.configured (Settings.told config settings)

def usage : String :=
  "Check gamedata signatures against a binary module\n\n"
    ++ "Options: --dll FILE, --gamedata FILE, --lib NAME, --platform windows|linux, --quiet,\n"
    ++ "  --keep-going, --format text|json, --config FILE, --verbose, --help\n"

def run (stored : String → m Stored) (arguments : List String) : m Ending :=
  match read {} arguments with
  | .ok a => follow stored a
  | .error .help => return ⟨0, usage, none, none, []⟩
  | .error .misuse => return ⟨2, "", none, none, []⟩

end SigScan.Command
