import SigScan.Cursor
import SigScan.Entry
import SigScan.Event
import SigScan.Finding

namespace SigScan

inductive Policy
  | abort
  | skip
deriving DecidableEq, Repr, Inhabited

def defaultLibrary : String := "server"

structure Options where
  library : String := defaultLibrary
  platform : Platform := .windows
  policy : Policy := .abort
deriving DecidableEq, Repr

inductive Bearing
  | foreign
  | absent
  | symbol
  | signature (raw : String)
deriving DecidableEq, Repr

def Options.bearing (o : Options) (e : Entry) : Bearing :=
  if e.library = o.library then
    if e.isSymbol o.platform then .symbol
    else
      match e.value? o.platform with
      | none => .absent
      | some raw => .signature raw
  else .foreign

def Options.applicable (o : Options) (entries : List Entry) : List (Entry × String) :=
  entries.filterMap fun e =>
    match o.bearing e with
    | .signature raw => some (e, raw)
    | _ => none

structure Scan where
  binary : Array UInt8
  options : Options
deriving DecidableEq, Repr

namespace Scan

def locate (s : Scan) (name : String) (pattern : Pattern) : Finding :=
  match (Cursor.start s.binary pattern).advance with
  | (some offset, moved) => .hit name offset (1 + moved.count)
  | (none, _) => .miss name pattern.searchString

def ambiguity (f : Finding) : List Event :=
  if f.occurrences > 1 then [.ambiguous f.name f.occurrences] else []

structure Trail where
  findings : List Finding := []
  skipped : List Skipped := []
  log : List Event := []
  fault : Option Signature.Error := none
deriving DecidableEq, Repr

def Trail.afterSymbol (t : Trail) (name : String) (platform : Platform) : Trail :=
  { t with log := .symbol name platform :: t.log }

def Trail.afterFinding (t : Trail) (f : Finding) : Trail :=
  { t with findings := f :: t.findings, log := ambiguity f ++ .located f.name f.offset :: t.log }

def Trail.afterSkipped (t : Trail) (name raw : String) (error : Signature.Error) : Trail :=
  { t with
    skipped := ⟨name, error⟩ :: t.skipped
    log := .malformed name raw :: .skipping name error :: t.log }

/-- Walks through entries in order, up to a signature that does not compile if the policy is to
    abort there. -/
def trail (s : Scan) : List Entry → Trail
  | [] => {}
  | e :: entries =>
    match s.options.bearing e with
    | .foreign | .absent => s.trail entries
    | .symbol => (s.trail entries).afterSymbol e.name s.options.platform
    | .signature raw =>
      match Signature.compile raw with
      | .ok pattern => (s.trail entries).afterFinding (s.locate e.name pattern)
      | .error error =>
        match s.options.policy with
        | .abort => { log := [.malformed e.name raw], fault := some error }
        | .skip => (s.trail entries).afterSkipped e.name raw error

structure Outcome where
  report : Except Signature.Error Report
  seen : List Finding
  log : List Event

def summary (r : Report) : Event :=
  .scanned (r.findings.length + r.skipped.length) r.foundCount r.missingCount r.skipped.length

def run (s : Scan) (entries : List Entry) : Outcome :=
  let opening := Event.scanning s.binary.size s.options.library s.options.platform
  let trail := s.trail entries
  match trail.fault with
  | some error => ⟨.error error, trail.findings, opening :: trail.log⟩
  | none =>
    let report : Report := ⟨trail.findings, trail.skipped⟩
    ⟨.ok report, trail.findings, opening :: trail.log ++ [summary report]⟩

end Scan

end SigScan
