import SigScan.Hex
import SigScan.Pattern
import SigScan.Text.Quoted

namespace SigScan.Signature

inductive Defect
  | malformed
  | notHex
deriving DecidableEq, Repr

structure Error where
  defect : Defect
  signature : String
  token : String
deriving DecidableEq, Repr

def Defect.message : Defect → String
  | .malformed => "byte longer than expected"
  | .notHex => "byte was not a number"

def Error.message (e : Error) : String :=
  e.defect.message ++ ": token " ++ Text.quoted e.token ++ " in signature " ++ e.signature

def wildcardByte : UInt8 := 0x2A

def pieces : List Char → List (List Char)
  | [] => [[]]
  | '\\' :: 'x' :: text => [] :: pieces text
  | c :: text =>
    match pieces text with
    | [] => [[c]]
    | piece :: others => (c :: piece) :: others

def readByte (token : List Char) : Except (Defect × List Char) Descriptor :=
  match token with
  | [high, low] =>
    match Hex.byte? high low with
    | some value => .ok (if value = wildcardByte then .wildcard else .exact value)
    | none => .error (.notHex, token)
  | _ => .error (.malformed, token)

/-- Reads what follows the wildcard signs of a piece. Each sign stands alone, so text that is
    glued to one makes a token with it that is too long. -/
def readWildcards : List (List Char) → Except (Defect × List Char) Pattern
  | [] => .ok []
  | [] :: others => return .wildcard :: (← readWildcards others)
  | glued :: _ => .error (.malformed, '*' :: glued)

def readPiece (piece : List Char) : Except (Defect × List Char) Pattern :=
  match piece.splitOn '*' with
  | [] => .ok []
  | [] :: glued => readWildcards glued
  | digits :: glued => return (← readByte digits) :: (← readWildcards glued)

def readPieces : List (List Char) → Except (Defect × List Char) Pattern
  | [] => .ok []
  | piece :: others => return (← readPiece piece) ++ (← readPieces others)

def compile (text : String) : Except Error Pattern :=
  match readPieces (pieces text.toList) with
  | .ok pattern => .ok pattern
  | .error (defect, token) => .error ⟨defect, text, String.ofList token⟩

end SigScan.Signature
