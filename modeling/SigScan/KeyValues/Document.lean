import SigScan.KeyValues.Complaint
import SigScan.KeyValues.Node
import SigScan.KeyValues.Token

namespace SigScan.KeyValues

def leftAt : List Token → List Char
  | [] => []
  | token :: _ => token.start

structure Enclosing where
  key : String
  entries : List (String × Node)
deriving Repr

def readObject (key : String) (entries : List (String × Node)) (around : List Enclosing) :
    List Token → Except Complaint (Document × List Char)
  | ⟨.closing, _, rest⟩ :: tokens =>
    let node := Node.ofEntries entries.reverse
    match around with
    | [] => .ok (⟨key, node⟩, rest)
    | outer :: around => readObject outer.key ((key, node) :: outer.entries) around tokens
  | ⟨.text inner, _, _⟩ :: ⟨.text value, _, _⟩ :: tokens =>
    readObject key ((inner, .text value) :: entries) around tokens
  | ⟨.text inner, _, _⟩ :: ⟨.opening, _, _⟩ :: tokens =>
    readObject inner [] (⟨key, entries⟩ :: around) tokens
  | ⟨.text _, _, _⟩ :: tokens => .error ⟨[.object, .quotedText, .word], leftAt tokens⟩
  | tokens => .error ⟨[.pair], leftAt tokens⟩

def readPair : List Token → Except Complaint (Document × List Char)
  | ⟨.text key, _, _⟩ :: ⟨.text value, _, rest⟩ :: _ => .ok (⟨key, .text value⟩, rest)
  | ⟨.text key, _, _⟩ :: ⟨.opening, _, _⟩ :: tokens => readObject key [] [] tokens
  | ⟨.text _, _, _⟩ :: tokens => .error ⟨[.object, .quotedText, .word], leftAt tokens⟩
  | tokens => .error ⟨[.baseDirective, .pair], leftAt tokens⟩

def baseArgument? (text : List Char) : Option Token :=
  match token? text with
  | some ⟨.text value, start, rest⟩ => some ⟨.text value, start, rest⟩
  | _ => none

theorem baseArgument?_rest_lt {text : List Char} {token : Token}
    (found : baseArgument? text = some token) : token.rest.length < text.length := by
  rw [baseArgument?] at found
  split at found
  · rename_i value start rest read
    cases found
    exact token?_rest_lt read
  · cases found

/-- Drops the base directives in front of a document. One without an argument is left where it
    is, and what is missing there is told. -/
def dropBases (text : List Char) : List Char × Option Complaint :=
  match text with
  | '#' :: 'b' :: 'a' :: 's' :: 'e' :: after =>
    match _ : baseArgument? (dropGap false after) with
    | some argument => dropBases (dropGap false argument.rest)
    | none => (text, some ⟨[.baseArgument, .word], dropGap false after⟩)
  | _ => (text, none)
termination_by text.length
decreasing_by
  have := baseArgument?_rest_lt ‹_›
  have := dropGap_length_le false argument.rest
  have := dropGap_length_le false after
  simp only [List.length_cons]
  omega

def dropEnd (text : List Char) : List Char :=
  match dropGap false text with
  | '\x00' :: rest => dropGap false rest
  | rest => rest

def Document.read (text : List Char) : Except Complaint Document :=
  let (body, stray) := dropBases (dropGap false text)
  let refuse (c : Complaint) : Except Complaint Document :=
    .error (stray.elim c (Complaint.further c))
  match readPair (tokens body) with
  | .error c => refuse c
  | .ok (document, rest) =>
    match dropEnd rest with
    | [] => .ok document
    | left => refuse ⟨[.endOfText], left⟩

end SigScan.KeyValues
