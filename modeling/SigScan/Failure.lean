import SigScan.Signature

namespace SigScan

inductive Failure
  | missingInput (what : String)
  | signature (error : Signature.Error)
  | gamedata (complaint : String)
  /-- Reading failed; the flag says whether there was nothing to read. -/
  | reading (notFound : Bool) (reason : String)
deriving DecidableEq, Repr

namespace Failure

def message : Failure → String
  | .missingInput what => "Missing required input: " ++ what
  | .signature error => "Failed to parse signature: " ++ error.message
  | .gamedata complaint => "Malformed gamedata: " ++ complaint
  | .reading _ reason => "IO error: " ++ reason

def isNotFound : Failure → Bool
  | .reading notFound _ => notFound
  | _ => false

def offending? : Failure → Option String
  | .signature error => some error.signature
  | _ => none

end Failure

end SigScan
