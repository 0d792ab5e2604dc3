import SigScan.Settings

namespace SigScan.Settings

inductive Value
  | null
  | text (value : String)
  | flag (value : Bool)
  | integer (value : Int)
  | sequence
  | mapping (members : List (String × Value))
deriving Repr

inductive FieldError
  | unknownKey (key : String)
  | unknownWord (word : String) (known : List String)
  | wrongType (value : Value) (wanted : String)
  | notSingle
deriving Repr

namespace Value

def asText (wanted : String) : Value → Except FieldError (Option String)
  | .null => .ok none
  | .text value => .ok (some value)
  | value => .error (.wrongType value wanted)

def asFlag : Value → Except FieldError (Option Bool)
  | .null => .ok none
  | .flag value => .ok (some value)
  | value => .error (.wrongType value "a boolean")

def known {α : Type} (all : List α) (word : α → String) (name : String) : Except FieldError α :=
  match all.find? fun a => word a == name with
  | some a => .ok a
  | none => .error (.unknownWord name (all.map word))

/-- One of a few words, each of which stands for something. It is given as itself or as the name
    of the only member of a mapping, which holds nothing. -/
def asWord {α : Type} (all : List α) (word : α → String) : Value → Except FieldError (Option α)
  | .null => .ok none
  | .text name => return some (← known all word name)
  | .mapping [(name, .null)] => return some (← known all word name)
  | .mapping [(name, value)] => do
    let _ ← known all word name
    .error (.wrongType value "unit")
  | .mapping _ => .error .notSingle
  | value => .error (.wrongType value "string or map")

def asPlatform : Value → Except FieldError (Option Platform) := asWord Platform.all Platform.word

def asFormat : Value → Except FieldError (Option Format) := asWord Format.all Format.word

end Value

def put (s : Settings) (key : String) (value : Value) : Except FieldError Settings :=
  match key with
  | "binary" => return { s with binary := ← value.asText "path string" }
  | "gamedata" => return { s with gamedata := ← value.asText "path string" }
  | "library" => return { s with library := ← value.asText "a string" }
  | "platform" => return { s with platform := ← value.asPlatform }
  | "quiet" => return { s with quiet := ← value.asFlag }
  | "keep_going" => return { s with keepGoing := ← value.asFlag }
  | "format" => return { s with format := ← value.asFormat }
  | _ => .error (.unknownKey key)

def ofFields (fields : List (String × Value)) : Except FieldError Settings :=
  fields.foldlM (fun s (key, value) => s.put key value) {}

end SigScan.Settings
