namespace SigScan.Hex

def digit? (c : Char) : Option Nat :=
  if '0' ≤ c ∧ c ≤ '9' then some (c.toNat - '0'.toNat)
  else if 'a' ≤ c ∧ c ≤ 'f' then some (c.toNat - 'a'.toNat + 10)
  else if 'A' ≤ c ∧ c ≤ 'F' then some (c.toNat - 'A'.toNat + 10)
  else none

def byte? (high low : Char) : Option UInt8 :=
  match digit? high, digit? low with
  | some h, some l => some (UInt8.ofNat (16 * h + l))
  | _, _ => none

def ofByte (byte : UInt8) : List Char :=
  [Nat.digitChar (byte.toNat / 16), Nat.digitChar (byte.toNat % 16)]

def lower (n : Nat) : List Char := Nat.toDigits 16 n

def upper (n : Nat) : List Char := (lower n).map Char.toUpper

end SigScan.Hex
