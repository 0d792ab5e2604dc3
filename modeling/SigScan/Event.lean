import SigScan.Entry
import SigScan.Hex
import SigScan.Signature

namespace SigScan

inductive Level
  | error
  | warn
  | info
  | debug
deriving DecidableEq, Repr

def Level.word : Level → String
  | .error => "ERROR"
  | .warn => "WARN"
  | .info => "INFO"
  | .debug => "DEBUG"

inductive Event
  | noConfig (path : String)
  | configLoaded (path : String)
  | binaryLoaded (path : String) (bytes : Nat)
  | notGames (key : String)
  | noLibrary (name game : String)
  | loaded (entries : Nat) (path : String)
  | noEntries (path : String)
  | symbol (name : String) (platform : Platform)
  | scanning (bytes : Nat) (library : String) (platform : Platform)
  | malformed (name raw : String)
  | skipping (name : String) (error : Signature.Error)
  | ambiguous (name : String) (occurrences : Nat)
  | located (name : String) (offset : Option Nat)
  | scanned (total found missing skipped : Nat)
  | wasSkipped (name : String) (error : Signature.Error)
deriving DecidableEq, Repr

namespace Event

def level : Event → Level
  | .malformed .. => .error
  | .noLibrary .. | .noEntries .. | .skipping .. | .ambiguous .. | .wasSkipped .. => .warn
  | .configLoaded .. | .binaryLoaded .. | .loaded .. | .scanned .. => .info
  | .noConfig .. | .notGames .. | .symbol .. | .scanning .. | .located .. => .debug

def place : Option Nat → String
  | some offset => "0x" ++ String.ofList (Hex.upper offset)
  | none => "not found"

def message : Event → String
  | .noConfig path => s!"No config file at {path}"
  | .configLoaded path => "Loaded config from " ++ Text.quoted path
  | .binaryLoaded path bytes => s!"Loaded {path} ({bytes} bytes)"
  | .notGames key => s!"Root key '{key}' is not a Games section"
  | .noLibrary name game => s!"Signature '{name}' ({game}) has no library, skipping"
  | .loaded entries path => s!"Loaded {entries} signature entries from {path}"
  | .noEntries path => s!"No signature entries in {path}"
  | .symbol name platform => s!"{name}: {platform.word} value is a symbol, skipping"
  | .scanning bytes library platform =>
    s!"Scanning {bytes} bytes for library '{library}' ({platform.word})"
  | .malformed name raw => s!"{name}: {raw}"
  | .skipping name error => s!"Skipping {name}: {error.message}"
  | .ambiguous name occurrences =>
    s!"{name} matches {occurrences} locations, reporting the first"
  | .located name offset => s!"  {name}: {place offset}"
  | .scanned total found missing skipped =>
    s!"Scanned {total} signatures: {found} found, {missing} missing, " ++ s!"{skipped} skipped"
  | .wasSkipped name error => s!"{name} was skipped: {error.message}"

end Event

end SigScan
