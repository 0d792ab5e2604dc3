import SigScan.Hex

namespace SigScan.Json

def escapedChar (c : Char) : List Char :=
  if c = '"' then ['\\', '"']
  else if c = '\\' then ['\\', '\\']
  else if c = '\x08' then ['\\', 'b']
  else if c = '\x0c' then ['\\', 'f']
  else if c = '\n' then ['\\', 'n']
  else if c = '\r' then ['\\', 'r']
  else if c = '\t' then ['\\', 't']
  else if c.toNat < 0x20 then ['\\', 'u', '0', '0'] ++ Hex.ofByte (UInt8.ofNat c.toNat)
  else [c]

def string (text : String) : List Char := '"' :: text.toList.flatMap escapedChar ++ ['"']

def bool (b : Bool) : List Char := (if b then "true" else "false").toList

def number (n : Nat) : List Char := (toString n).toList

def number? : Option Nat → List Char
  | some n => number n
  | none => "null".toList

def member (key : String) (value : List Char) : List Char := string key ++ ':' :: value

def object (members : List (List Char)) : List Char :=
  '\x7b' :: [','].intercalate members ++ ['\x7d']

end SigScan.Json
