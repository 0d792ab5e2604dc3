import SigScan.Signature

namespace SigScan

structure Finding where
  name : String
  found : Bool
  offset : Option Nat
  occurrences : Nat
  search : Option String
deriving DecidableEq, Repr

def Finding.hit (name : String) (offset occurrences : Nat) : Finding :=
  ⟨name, true, some offset, occurrences, none⟩

def Finding.miss (name search : String) : Finding := ⟨name, false, none, 0, some search⟩

structure Skipped where
  name : String
  error : Signature.Error
deriving DecidableEq, Repr

structure Report where
  findings : List Finding
  skipped : List Skipped
deriving DecidableEq, Repr

def Report.foundCount (r : Report) : Nat := r.findings.countP (·.found)

def Report.missingCount (r : Report) : Nat := r.findings.length - r.foundCount

end SigScan
