import SigScan.Settings.Toml.Statement
import SigScan.Stored

namespace SigScan.Settings.Toml

/-- The value of a setting about which a document says no more than the given, in this order. A
    table may be opened only once, and not at all if a line outside of it has given it a member. -/
def valueOf? : List Statement → Option Value
  | [.value value] => some value
  | [.member name] | [.header none, .member name] | [.header (some name)]
  | [.header none, .header (some name)] | [.header (some name), .header none] =>
    some (.mapping [(name, .null)])
  | _ => none

def read? (text : String) : Option (List (String × Value)) := do
  let text := match text.toList with
    | '\uFEFF' :: text => text
    | text => text
  let said ← statements? [] (unifyLineEnds text)
  (said.map Prod.fst).eraseDups.mapM fun key => do
    return (key, ← valueOf? (said.filterMap fun (about, statement) =>
      if about = key then some statement else none))

end SigScan.Settings.Toml

namespace SigScan.Settings

def ofToml? (text : String) : Option Settings := do
  let fields ← Toml.read? text
  match ofFields fields with
  | .ok settings => some settings
  | .error _ => none

inductive LoadError
  | unreadable (path : String)
  | invalid (path : String)
deriving DecidableEq, Repr

def LoadError.message : LoadError → String
  | .unreadable path => "Failed to read " ++ path
  | .invalid path => "Failed to parse " ++ path

def load (stored : Stored) (path : String) : Except LoadError (Option Settings) :=
  match stored.text with
  | .error failure => if failure.isNotFound then .ok none else .error (.unreadable path)
  | .ok text =>
    match ofToml? text with
    | some settings => .ok (some settings)
    | none => .error (.invalid path)

def told (path : String) : Option Settings → Event
  | some _ => .configLoaded path
  | none => .noConfig path

end SigScan.Settings
