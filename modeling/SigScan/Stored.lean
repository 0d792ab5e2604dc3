import SigScan.Failure

namespace SigScan

inductive Stored
  | missing
  | unreadable (reason : String)
  | content (bytes : ByteArray)
deriving Inhabited

namespace Stored

def directory : Stored := .unreadable "Is a directory (os error 21)"

def bytes : Stored → Except Failure ByteArray
  | .missing => .error (.reading true "No such file or directory (os error 2)")
  | .unreadable reason => .error (.reading false reason)
  | .content bytes => .ok bytes

def text (stored : Stored) : Except Failure String :=
  match stored.bytes with
  | .error failure => .error failure
  | .ok bytes =>
    match String.fromUTF8? bytes with
    | some text => .ok text
    | none => .error (.reading false "stream did not contain valid UTF-8")

end Stored

end SigScan
