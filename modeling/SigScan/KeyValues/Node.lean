import SigScan.Text

namespace SigScan.KeyValues

inductive Node
  | text (value : String)
  | object (entries : List (String × Node))
deriving Repr, Inhabited

def sortEntries (entries : List (String × Node)) : List (String × Node) :=
  entries.mergeSort fun a b => a.1 ≤ b.1

def Node.ofEntries (entries : List (String × Node)) : Node := .object (sortEntries entries)

structure Document where
  key : String
  value : Node
deriving Repr, Inhabited

def objects (entries : List (String × Node)) : List (String × List (String × Node)) :=
  entries.filterMap fun (key, node) =>
    match node with
    | .text _ => none
    | .object inner => some (key, inner)

def under (key : String) (entries : List (String × Node)) : List (String × Node) :=
  entries.filter fun entry => Text.sameWord entry.1 key

def text? (key : String) (entries : List (String × Node)) : Option String :=
  (under key entries).findSome? fun (_, node) =>
    match node with
    | .text value => some value
    | .object _ => none

end SigScan.KeyValues
