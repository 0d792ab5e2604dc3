import SigScan.Finding
import SigScan.Json
import SigScan.Text

namespace SigScan

inductive Format
  | text
  | json
deriving DecidableEq, Repr, Inhabited

namespace Format

def all : List Format := [.text, .json]

def word : Format → String
  | .text => "text"
  | .json => "json"

def ofWord? (text : String) : Option Format := all.find? fun f => Text.sameWord f.word text

end Format

structure Formatter where
  format : Format
  printFound : Bool
deriving DecidableEq, Repr

namespace Finding

def textRecord (f : Finding) : String :=
  match f.offset with
  | some offset => f.name ++ " FOUND@" ++ toString offset
  | none => f.name ++ " NOT FOUND\n" ++ f.search.getD ""

def jsonRecord (f : Finding) : String :=
  String.ofList (Json.object (
    [Json.member "found" (Json.bool f.found), Json.member "name" (Json.string f.name)]
    ++ (if f.occurrences > 1 then [Json.member "occurrences" (Json.number f.occurrences)] else [])
    ++ [Json.member "offset" (Json.number? f.offset)]
    ++ (f.search.map fun search => Json.member "search" (Json.string search)).toList))

end Finding

/-- What is written for a finding, if anything. Text goes by the offset and JSON by the flag. -/
def Formatter.record? (p : Formatter) (f : Finding) : Option String :=
  match p.format with
  | .text => if f.offset.isSome && !p.printFound then none else some f.textRecord
  | .json => if f.found && !p.printFound then none else some f.jsonRecord

end SigScan
