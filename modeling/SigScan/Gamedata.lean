import SigScan.Entry
import SigScan.Event
import SigScan.KeyValues.Document
import SigScan.Stored
import SigScan.Text

namespace SigScan.Gamedata

open KeyValues

structure Record where
  game : String
  name : String
  library : Option String
  windows : Option String
  linux : Option String
deriving DecidableEq, Repr

namespace Record

def ofFields (game name : String) (fields : List (String × Node)) : Record :=
  ⟨game, name, text? "library" fields, text? "windows" fields, text? "linux" fields⟩

def entry? (r : Record) : Option Entry :=
  r.library.map fun library => ⟨r.name, r.game, library, r.windows, r.linux⟩

def warning? (r : Record) : Option Event :=
  match r.library with
  | some _ => none
  | none => some (.noLibrary r.name r.game)

end Record

def games? (document : Document) : Option (List (String × Node)) :=
  match document.value with
  | .object games => if Text.sameWord document.key "Games" then some games else none
  | .text _ => none

def records (games : List (String × Node)) : List Record :=
  (objects games).flatMap fun (game, body) =>
    (objects (under "Signatures" body)).flatMap fun (_, signatures) =>
      (objects signatures).map fun (name, fields) => .ofFields game name fields

structure Extract where
  entries : List Entry
  log : List Event
deriving DecidableEq, Repr

def ofDocument (document : Document) : Extract :=
  match games? document with
  | none => ⟨[], [.notGames document.key]⟩
  | some games =>
    ⟨(records games).filterMap Record.entry?, (records games).filterMap Record.warning?⟩

def ofText (text : String) : Except Failure Extract :=
  let plain := Text.uncommentFrom .plain text.toList
  match Document.read plain with
  | .ok document => .ok (ofDocument document)
  | .error complaint => .error (.gamedata (complaint.message plain))

def load (stored : Stored) (path : String) : Except Failure Extract := do
  let extract ← ofText (← stored.text)
  return { extract with log := extract.log ++ [.loaded extract.entries.length path] }

end SigScan.Gamedata
