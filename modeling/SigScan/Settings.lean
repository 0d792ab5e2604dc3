import SigScan.Failure
import SigScan.Line
import SigScan.Scan

namespace SigScan

structure Settings where
  binary : Option String := none
  gamedata : Option String := none
  library : Option String := none
  platform : Option Platform := none
  quiet : Option Bool := none
  keepGoing : Option Bool := none
  format : Option Format := none
deriving DecidableEq, Repr

structure Job where
  binary : String
  gamedata : String
  options : Options
  formatter : Formatter
deriving DecidableEq, Repr

namespace Settings

/-- Lays settings on top of others: what they set wins. -/
def merge (lower upper : Settings) : Settings where
  binary := upper.binary.or lower.binary
  gamedata := upper.gamedata.or lower.gamedata
  library := upper.library.or lower.library
  platform := upper.platform.or lower.platform
  quiet := upper.quiet.or lower.quiet
  keepGoing := upper.keepGoing.or lower.keepGoing
  format := upper.format.or lower.format

def missing (s : Settings) : List String :=
  (if s.binary.isNone then ["binary (use --dll to specify a dll)"] else [])
    ++ (if s.gamedata.isNone then ["gamedata (use --gamedata to specify a gamedata file)"] else [])

def options (s : Settings) : Options where
  library := s.library.getD defaultLibrary
  platform := s.platform.getD .windows
  policy := if s.keepGoing.getD false then .skip else .abort

def formatter (s : Settings) : Formatter where
  format := s.format.getD .text
  printFound := !s.quiet.getD false

def resolve (s : Settings) : Except Failure Job :=
  match s.binary, s.gamedata with
  | some binary, some gamedata => .ok ⟨binary, gamedata, s.options, s.formatter⟩
  | _, _ => .error (.missingInput (", ".intercalate s.missing))

end Settings

end SigScan
