namespace SigScan.KeyValues

inductive Expected
  | endOfText
  | baseDirective
  | baseArgument
  | pair
  | object
  | quotedText
  | word
deriving DecidableEq, Repr

def Expected.all : List Expected :=
  [.endOfText, .baseDirective, .baseArgument, .pair, .object, .quotedText, .word]

def Expected.name : Expected → String
  | .endOfText => "EOI"
  | .baseDirective => "base_macro"
  | .baseArgument => "quoted_raw_string"
  | .pair => "pair"
  | .object => "obj"
  | .quotedText => "quoted_string"
  | .word => "unquoted_string"

structure Complaint where
  expected : List Expected
  left : List Char
deriving DecidableEq, Repr

namespace Complaint

/-- The one of two complaints that came further; at the same place they are one. -/
def further (a b : Complaint) : Complaint :=
  if a.left.length < b.left.length then a
  else if b.left.length < a.left.length then b
  else ⟨a.expected ++ b.expected, a.left⟩

def names (c : Complaint) : List String :=
  (Expected.all.filter (· ∈ c.expected)).map Expected.name

def enumerate : List String → String
  | [] => ""
  | [a] => a
  | [a, b] => a ++ " or " ++ b
  | items => ", ".intercalate items.dropLast ++ ", or " ++ items.getLastD ""

def before (c : Complaint) (text : List Char) : List Char :=
  text.take (text.length - c.left.length)

def line (c : Complaint) (text : List Char) : Nat := (c.before text).count '\n' + 1

def lineStart (c : Complaint) (text : List Char) : List Char :=
  ((c.before text).reverse.takeWhile (· ≠ '\n')).reverse

def column (c : Complaint) (text : List Char) : Nat := (c.lineStart text).length + 1

def lineText (c : Complaint) (text : List Char) : List Char :=
  (c.lineStart text ++ c.left.takeWhile (· ≠ '\n')).filter (· ≠ '\r')

def indent (c : Complaint) (text : List Char) : List Char :=
  ((c.lineText text).take (c.column text - 1)).map fun ch => if ch = '\t' then '\t' else ' '

def message (c : Complaint) (text : List Char) : String :=
  let line := toString (c.line text)
  let margin := String.ofList (List.replicate line.length ' ')
  "Failed parsing input Error: " ++ margin ++ "--> " ++ line ++ ":" ++ toString (c.column text)
    ++ "\n" ++ margin ++ " |\n" ++ line ++ " | " ++ String.ofList (c.lineText text)
    ++ "\n" ++ margin ++ " | " ++ String.ofList (c.indent text) ++ "^---\n" ++ margin ++ " |\n"
    ++ margin ++ " = expected " ++ enumerate c.names

end Complaint

end SigScan.KeyValues
