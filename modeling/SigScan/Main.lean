import SigScan.Command.Run

namespace SigScan.Command

def stored (path : String) : IO Stored := do
  try
    return .content (← IO.FS.readBinFile path)
  catch
    | .noFileOrDirectory .. => return .missing
    | error => return .unreadable (toString error)

def report (ending : Ending) (verbose : Bool) : IO UInt32 := do
  for event in ending.config.toList ++ ending.log do
    if verbose || event.level != .debug then
      IO.eprintln s!"{event.level.word} {event.message}"
  IO.print ending.output
  match ending.error with
  | some line => IO.eprintln line
  | none => if ending.status != 0 then IO.eprintln usage
  return ending.status.toUInt32

end SigScan.Command

open SigScan

def main (arguments : List String) : IO UInt32 := do
  let verbose := match Command.read {} arguments with
    | .ok a => a.verbose
    | .error _ => false
  Command.report (← Command.run Command.stored arguments) verbose
