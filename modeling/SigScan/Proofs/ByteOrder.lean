import Mathlib.Data.String.Basic

namespace SigScan.Text

def utf8 (text : String) : List UInt8 := text.toUTF8.data.toList

theorem utf8_eq_flatMap (text : String) : utf8 text = text.toList.flatMap String.utf8EncodeChar := by
  rw [utf8, String.toUTF8, ← String.utf8Encode_toList]
  simp [List.utf8Encode]

section Digits

variable {m n v w : Nat} {x y : List UInt8}

theorem byte_cons_lt (small : n < 256) (order : m ≤ n) (rest : m = n → x < y) :
    UInt8.ofNat m :: x < UInt8.ofNat n :: y := by
  rw [List.cons_lt_cons_iff]
  rcases Nat.lt_or_eq_of_le order with below | rfl
  · left
    rw [UInt8.lt_iff_toNat_lt, UInt8.toNat_ofNat', UInt8.toNat_ofNat']
    omega
  · exact .inr ⟨rfl, rest rfl⟩

theorem lead_cons_lt (small : n < 256) (below : m < n) : UInt8.ofNat m :: x < UInt8.ofNat n :: y :=
  byte_cons_lt small (Nat.le_of_lt below) fun same => absurd same (Nat.ne_of_lt below)

theorem last_digit_lt (below : v % 64 < w % 64) :
    UInt8.ofNat (v % 64 + 128) :: x < UInt8.ofNat (w % 64 + 128) :: y :=
  lead_cons_lt (by omega) (by omega)

theorem last_two_digits_lt (below : v % 4096 < w % 4096) :
    UInt8.ofNat (v / 64 % 64 + 128) :: UInt8.ofNat (v % 64 + 128) :: x <
      UInt8.ofNat (w / 64 % 64 + 128) :: UInt8.ofNat (w % 64 + 128) :: y := by
  apply byte_cons_lt (by omega) (by omega)
  intro same
  exact last_digit_lt (by omega)

theorem last_three_digits_lt (below : v % 262144 < w % 262144) :
    UInt8.ofNat (v / 4096 % 64 + 128) :: UInt8.ofNat (v / 64 % 64 + 128) ::
        UInt8.ofNat (v % 64 + 128) :: x <
      UInt8.ofNat (w / 4096 % 64 + 128) :: UInt8.ofNat (w / 64 % 64 + 128) ::
        UInt8.ofNat (w % 64 + 128) :: y := by
  apply byte_cons_lt (by omega) (by omega)
  intro same
  exact last_two_digits_lt (by omega)

end Digits

/-- The first byte grows with the number of bytes. Codes of one length compare as the numbers whose
    digits to the base 64 they hold. -/
theorem encoded_lt {c d : Char} (below : c < d) (x y : List UInt8) :
    String.utf8EncodeChar c ++ x < String.utf8EncodeChar d ++ y := by
  have values : c.val.toNat < d.val.toNat := below
  have top : d.val.toNat < 0x110000 := by
    have valid := d.valid
    simp only [UInt32.isValidChar, Nat.isValidChar] at valid
    omega
  unfold String.utf8EncodeChar
  generalize c.val.toNat = v at values
  generalize d.val.toNat = w at values top
  dsimp only
  split
  · split
    · exact lead_cons_lt (by omega) values
    · split
      · exact lead_cons_lt (by omega) (by omega)
      · split <;> exact lead_cons_lt (by omega) (by omega)
  · split
    · rw [if_neg (by omega)]
      split
      · apply byte_cons_lt (by omega) (by omega)
        intro same
        exact last_digit_lt (by omega)
      · split <;> exact lead_cons_lt (by omega) (by omega)
    · split
      · rw [if_neg (by omega), if_neg (by omega)]
        split
        · apply byte_cons_lt (by omega) (by omega)
          intro same
          exact last_two_digits_lt (by omega)
        · exact lead_cons_lt (by omega) (by omega)
      · rw [if_neg (by omega), if_neg (by omega), if_neg (by omega)]
        apply byte_cons_lt (by omega) (by omega)
        intro same
        exact last_three_digits_lt (by omega)

theorem flatMap_encoded_lt {l m : List Char} (below : l < m) :
    l.flatMap String.utf8EncodeChar < m.flatMap String.utf8EncodeChar := by
  induction l generalizing m with
  | nil =>
    cases m with
    | nil => exact absurd below (lt_irrefl _)
    | cons d m =>
      rw [List.flatMap_cons]
      cases code : String.utf8EncodeChar d with
      | nil => exact absurd code (by simp)
      | cons byte bytes => exact List.nil_lt_cons _ _
  | cons c l ih =>
    cases m with
    | nil => exact absurd below (List.not_lt_nil _)
    | cons d m =>
      rcases List.cons_lt_cons_iff.mp below with lower | ⟨rfl, rest⟩
      · exact encoded_lt lower _ _
      · exact List.append_left_lt (ih rest)

theorem lt_iff_utf8_lt (a b : String) : a < b ↔ utf8 a < utf8 b := by
  have grows {a b : String} (below : a < b) : utf8 a < utf8 b := by
    rw [utf8_eq_flatMap, utf8_eq_flatMap]
    exact flatMap_encoded_lt (String.lt_iff_toList_lt.mp below)
  constructor
  · exact grows
  · intro below
    rcases lt_trichotomy a b with lower | rfl | higher
    · exact lower
    · exact absurd below (List.lt_irrefl _)
    · exact absurd below (List.lt_asymm (grows higher))

theorem le_iff_utf8_le (a b : String) : a ≤ b ↔ utf8 a ≤ utf8 b := by
  rw [← not_lt, lt_iff_utf8_lt, List.not_lt]

end SigScan.Text
