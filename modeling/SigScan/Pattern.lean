import SigScan.Hex

namespace SigScan

inductive Descriptor
  | exact (value : UInt8)
  | wildcard
deriving DecidableEq, Repr, Inhabited

def Descriptor.accepts : Descriptor → UInt8 → Bool
  | .exact value, byte => value == byte
  | .wildcard, _ => true

def Descriptor.searchToken : Descriptor → List Char
  | .exact value => Hex.ofByte value
  | .wildcard => ['.', '.']

abbrev Pattern := List Descriptor

namespace Pattern

/-- Whether every descriptor accepts the byte it lies on when the pattern is laid at `offset`.
    No byte stands past the end, so a pattern that runs over it is not accepted there. -/
def acceptsAt (bytes : Array UInt8) : Pattern → (offset : Nat) → Bool
  | [], _ => true
  | descriptor :: rest, offset =>
    match bytes[offset]? with
    | some byte => descriptor.accepts byte && acceptsAt bytes rest (offset + 1)
    | none => false

def anchor? : Pattern → Option (Nat × UInt8)
  | [] => none
  | .exact value :: _ => some (0, value)
  | .wildcard :: rest => (anchor? rest).map fun (index, value) => (index + 1, value)

def searchString (pattern : Pattern) : String :=
  String.ofList ([' '].intercalate (pattern.map Descriptor.searchToken))

end Pattern

end SigScan
