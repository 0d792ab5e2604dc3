import SigScan.Hex

namespace SigScan.Hex

structure Digit where
  value : Fin 16
  upper : Bool
deriving DecidableEq, Repr

namespace Digit

def lowerSigns : Vector Char 16 :=
  #v['0', '1', '2', '3', '4', '5', '6', '7', '8', '9', 'a', 'b', 'c', 'd', 'e', 'f']

def upperSigns : Vector Char 16 :=
  #v['0', '1', '2', '3', '4', '5', '6', '7', '8', '9', 'A', 'B', 'C', 'D', 'E', 'F']

def sign (d : Digit) : Char := if d.upper then upperSigns[d.value] else lowerSigns[d.value]

theorem sign_ne {c : Char} (plain : digit? c = none) (d : Digit) : d.sign ≠ c := by
  intro same
  subst same
  obtain ⟨value, upper⟩ := d
  revert value upper
  decide

end Digit

theorem digit?_sign (d : Digit) : digit? d.sign = some d.value.val := by
  obtain ⟨value, upper⟩ := d
  revert value upper
  decide

theorem digit?_small {c : Char} {n : Nat} (read : digit? c = some n) : c.toNat < 103 := by
  simp only [digit?, Char.le_def, UInt32.le_iff_toNat_le, Char.toNat_val, Char.reduceToNat] at read
  split at read
  · omega
  · split at read
    · omega
    · split at read
      · omega
      · cases read

theorem digit?_table : ∀ code < 103, ∀ n, digit? (Char.ofNat code) = some n →
    ∃ (value : Fin 16) (upper : Bool),
      (Digit.mk value upper).sign = Char.ofNat code ∧ value.val = n := by
  decide

theorem digit?_eq_some_iff {c : Char} {n : Nat} :
    digit? c = some n ↔ ∃ d : Digit, d.sign = c ∧ d.value.val = n := by
  constructor
  · intro read
    have row := digit?_table c.toNat (digit?_small read) n
    rw [Char.ofNat_toNat] at row
    obtain ⟨value, upper, sign, same⟩ := row read
    exact ⟨⟨value, upper⟩, sign, same⟩
  · intro written
    obtain ⟨d, sign, value⟩ := written
    subst sign value
    exact digit?_sign d

theorem byte?_eq_some_iff {high low : Char} {byte : UInt8} :
    byte? high low = some byte ↔ ∃ h l : Digit, h.sign = high ∧ l.sign = low ∧
      UInt8.ofNat (16 * h.value.val + l.value.val) = byte := by
  constructor
  · intro read
    rw [byte?] at read
    split at read
    · rename_i first second
      obtain ⟨h, rfl, rfl⟩ := digit?_eq_some_iff.mp first
      obtain ⟨l, rfl, rfl⟩ := digit?_eq_some_iff.mp second
      exact ⟨h, l, rfl, rfl, Option.some.inj read⟩
    · cases read
  · intro written
    obtain ⟨h, l, high_sign, low_sign, same⟩ := written
    subst high_sign low_sign same
    simp [byte?, digit?_sign]

end SigScan.Hex
