import SigScan.Settings.Field
import SigScan.Settings.Toml.Text

namespace SigScan.Settings.Toml

/-- What a line of TOML says about a setting: a text or a flag, or a table of one empty member, which
    names a word. Whatever else TOML can say is no value of a setting and is refused. -/
inductive Statement
  | value (value : Value)
  | member (name : String)
  | header (member : Option String)

def isBare (c : Char) : Bool := c.isAlphanum ∨ c = '_' ∨ c = '-'

def key? : List Char → Option (String × List Char)
  | '"' :: text => (basic? text).map ofText
  | '\x27' :: text => (literal? text).map ofText
  | text =>
    match text.takeWhile isBare with
    | [] => none
    | key => some (String.ofList key, text.dropWhile isBare)
where
  ofText : List Char × List Char → String × List Char
    | (content, rest) => (String.ofList content, rest)

def path? (text : List Char) : Option (List String × List Char) := do
  let (key, rest) ← key? text
  match rest.dropWhile isBlank with
  | '.' :: rest =>
    let (inner, rest) ← key? (rest.dropWhile isBlank)
    return ([key, inner], rest.dropWhile isBlank)
  | rest => return ([key], rest)

def lineEnd? (text : List Char) : Option (List Char) :=
  let text := text.dropWhile isBlank
  let text := if text.head? = some '#' then (text.drop 1).dropWhile isPlain else text
  match text with
  | [] => some []
  | '\n' :: rest => some rest
  | _ => none

def skipLines (text : List Char) : List Char :=
  match lineEnd? text with
  | some rest => if rest.length < text.length then skipLines rest else rest
  | none => text.dropWhile isBlank
termination_by text.length

def empty? : List Char → Option (List Char)
  | '[' :: text => closed? ']' (skipLines text)
  | '\x7b' :: text => closed? '\x7d' (text.dropWhile isBlank)
  | _ => none
where
  closed? (bracket : Char) : List Char → Option (List Char)
    | [] => none
    | c :: rest => if c = bracket then some rest else none

def assigned? (text : List Char) : Option (List Char) :=
  match text.dropWhile isBlank with
  | '=' :: text => some (text.dropWhile isBlank)
  | _ => none

def single? (text : List Char) : Option (Value × List Char) := do
  let (name, text) ← key? (text.dropWhile isBlank)
  let text ← empty? (← assigned? text)
  match text.dropWhile isBlank with
  | '\x7d' :: rest => return (.mapping [(name, .null)], rest)
  | _ => none

def value? : List Char → Option (Value × List Char)
  | '"' :: '"' :: '"' :: text => (basicLines? (dropFirstLineEnd text)).map ofText
  | '"' :: text => (basic? text).map ofText
  | '\x27' :: '\x27' :: '\x27' :: text => (literalLines? (dropFirstLineEnd text)).map ofText
  | '\x27' :: text => (literal? text).map ofText
  | 't' :: 'r' :: 'u' :: 'e' :: rest => some (.flag true, rest)
  | 'f' :: 'a' :: 'l' :: 's' :: 'e' :: rest => some (.flag false, rest)
  | '\x7b' :: text => single? text
  | _ => none
where
  ofText : List Char × List Char → Value × List Char
    | (content, rest) => (.text (String.ofList content), rest)

def field? (table : List String) (text : List Char) :
    Option ((String × Statement) × List Char) := do
  let (path, text) ← path? text
  let text ← assigned? text
  match table ++ path with
  | [key] =>
    let (value, rest) ← value? text
    return ((key, .value value), rest)
  | [key, member] => return ((key, .member member), ← empty? text)
  | _ => none

def header? (text : List Char) : Option ((String × Statement) × List String × List Char) := do
  match ← path? (text.dropWhile isBlank) with
  | ([key], ']' :: rest) => return ((key, .header none), [key], rest)
  | ([key, member], ']' :: rest) => return ((key, .header (some member)), [key, member], rest)
  | _ => none

def statement? (table : List String) :
    List Char → Option ((String × Statement) × List String × List Char)
  | '[' :: text => header? text
  | text => (field? table text).map fun (said, rest) => (said, table, rest)

/-- What the lines of a text say, the first of which stands in a table. Every line takes at least
    one character, and a reader that took none would make no way. -/
def statements? (table : List String) (text : List Char) : Option (List (String × Statement)) :=
  match lineEnd? text with
  | some rest =>
    if text.isEmpty then some []
    else if rest.length < text.length then statements? table rest
    else none
  | none => do
    let (said, table, rest) ← statement? table (text.dropWhile isBlank)
    let rest ← lineEnd? rest
    if rest.length < text.length then return said :: (← statements? table rest) else none
termination_by text.length

end SigScan.Settings.Toml
