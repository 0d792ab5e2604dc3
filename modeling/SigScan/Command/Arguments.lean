import SigScan.Settings

namespace SigScan.Command

structure Arguments where
  settings : Settings := {}
  config : Option String := none
  verbose : Bool := false
deriving DecidableEq, Repr

inductive Stop
  | help
  | misuse
deriving DecidableEq, Repr

inductive Switch
  | quiet
  | keepGoing
  | verbose
deriving DecidableEq, Repr

inductive Choice
  | binary
  | gamedata
  | library
  | platform
  | format
  | config
deriving DecidableEq, Repr

def Switch.ofName? : String → Option Switch
  | "quiet" => some .quiet
  | "keep-going" => some .keepGoing
  | "verbose" => some .verbose
  | _ => none

def Choice.ofName? : String → Option Choice
  | "dll" | "binary" => some .binary
  | "gamedata" => some .gamedata
  | "lib" => some .library
  | "platform" => some .platform
  | "format" => some .format
  | "config" => some .config
  | _ => none

def once {α : Type} (given : Option α) (value : Option α) : Except Stop (Option α) :=
  match given, value with
  | none, some value => .ok (some value)
  | _, _ => .error .misuse

def path? (text : String) : Option String := if text = "" then none else some text

namespace Arguments

def turnOn (a : Arguments) : Switch → Except Stop Arguments
  | .quiet => return { a with settings.quiet := ← once a.settings.quiet (some true) }
  | .keepGoing => return { a with settings.keepGoing := ← once a.settings.keepGoing (some true) }
  | .verbose => if a.verbose then .error .misuse else .ok { a with verbose := true }

def choose (a : Arguments) (choice : Choice) (value : String) : Except Stop Arguments :=
  match choice with
  | .binary => return { a with settings.binary := ← once a.settings.binary (path? value) }
  | .gamedata => return { a with settings.gamedata := ← once a.settings.gamedata (path? value) }
  | .library => return { a with settings.library := ← once a.settings.library (some value) }
  | .platform =>
    return { a with settings.platform := ← once a.settings.platform (Platform.ofWord? value) }
  | .format => return { a with settings.format := ← once a.settings.format (Format.ofWord? value) }
  | .config => return { a with config := ← once a.config (path? value) }

end Arguments

def isOption (argument : String) : Bool :=
  match argument.toList with
  | '-' :: _ :: _ => true
  | _ => false

structure Letters where
  arguments : Arguments
  wanting : Option Choice

/-- Reads letters behind one dash. The first option with a value takes the letters after it as
    its value, with or without a sign between them. -/
def readLetters (a : Arguments) : List Char → Except Stop Letters
  | [] => .ok ⟨a, none⟩
  | 'q' :: letters => do readLetters (← a.turnOn .quiet) letters
  | 'v' :: letters => do readLetters (← a.turnOn .verbose) letters
  | 'c' :: '=' :: value => return ⟨← a.choose .config (String.ofList value), none⟩
  | ['c'] => .ok ⟨a, some .config⟩
  | 'c' :: value => return ⟨← a.choose .config (String.ofList value), none⟩
  | 'h' :: _ => .error .help
  | _ => .error .misuse

def splitLong (text : List Char) : String × Option String :=
  let name := String.ofList (text.takeWhile (· ≠ '='))
  match text.dropWhile (· ≠ '=') with
  | [] => (name, none)
  | _ :: value => (name, some (String.ofList value))

def readLong (a : Arguments) (text : List Char) : Except Stop Letters :=
  let (name, value) := splitLong text
  match Switch.ofName? name, Choice.ofName? name, value with
  | some switch, _, none => return ⟨← a.turnOn switch, none⟩
  | _, some choice, some value => return ⟨← a.choose choice value, none⟩
  | _, some choice, none => .ok ⟨a, some choice⟩
  | _, _, none => .error (if name = "help" then .help else .misuse)
  | _, _, _ => .error .misuse

/-- Reads the argument in front of others up to the value that it still needs, if it needs one.
    Nothing but options is taken, also not behind the mark that ends them. -/
def readArgument (a : Arguments) (argument : String) (others : List String) : Except Stop Letters :=
  match argument.toList with
  | ['-', '-'] => if others.isEmpty then .ok ⟨a, none⟩ else .error .misuse
  | '-' :: '-' :: text => readLong a text
  | '-' :: c :: cs => readLetters a (c :: cs)
  | _ => .error .misuse

def read (a : Arguments) : List String → Except Stop Arguments
  | [] => .ok a
  | argument :: arguments =>
    match readArgument a argument arguments with
    | .error stop => .error stop
    | .ok ⟨a, none⟩ => read a arguments
    | .ok ⟨a, some choice⟩ =>
      match arguments with
      | [] => .error .misuse
      | value :: arguments =>
        if isOption value then .error .misuse
        else
          match a.choose choice value with
          | .error stop => .error stop
          | .ok a => read a arguments

end SigScan.Command
