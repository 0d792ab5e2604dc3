import SigScan.Text

namespace SigScan

inductive Platform
  | windows
  | linux
deriving DecidableEq, Repr, Inhabited

namespace Platform

def all : List Platform := [.windows, .linux]

def word : Platform → String
  | .windows => "windows"
  | .linux => "linux"

def ofWord? (text : String) : Option Platform := all.find? fun p => Text.sameWord p.word text

end Platform

structure Entry where
  name : String
  game : String
  library : String
  windows : Option String
  linux : Option String
deriving DecidableEq, Repr, Inhabited

namespace Entry

def given (e : Entry) : Platform → Option String
  | .windows => e.windows
  | .linux => e.linux

/-- The value for a platform. An empty one counts as absent. -/
def value? (e : Entry) (platform : Platform) : Option String :=
  (e.given platform).filter (· ≠ "")

theorem value?_eq_some_iff {e : Entry} {platform : Platform} {raw : String} :
    e.value? platform = some raw ↔ e.given platform = some raw ∧ raw ≠ "" := by
  simp [value?, Option.filter_eq_some_iff]

def isSymbol (e : Entry) (platform : Platform) : Bool :=
  (e.value? platform).any fun value => value.toList.head? = some '@'

end Entry

end SigScan
