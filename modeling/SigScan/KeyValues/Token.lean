namespace SigScan.KeyValues

def isBlank (c : Char) : Bool := c = ' ' ∨ c = '\t' ∨ c = '\r' ∨ c = '\n'

def isBare (c : Char) : Bool := !isBlank c && c ≠ '"' && c ≠ '\x7b' && c ≠ '\x7d'

/-- Drops blanks and line comments from the front. The flag says whether the text starts inside
    a comment, which ends before the next line feed. -/
def dropGap : Bool → List Char → List Char
  | _, [] => []
  | true, c :: text => dropGap (c ≠ '\n') text
  | false, '/' :: '/' :: text => dropGap true text
  | false, c :: text => if isBlank c then dropGap false text else c :: text

theorem dropGap_length_le (comment : Bool) (text : List Char) :
    (dropGap comment text).length ≤ text.length := by
  fun_induction dropGap comment text with
  | case1 | case5 => exact Nat.le_refl _
  | case2 _ _ ih => exact Nat.le_succ_of_le ih
  | case3 _ ih => exact Nat.le_succ_of_le (Nat.le_succ_of_le ih)
  | case4 _ _ _ _ ih => exact Nat.le_succ_of_le ih

inductive Lexeme
  | text (value : String)
  | opening
  | closing
  | unclosed
deriving DecidableEq, Repr

structure Token where
  lexeme : Lexeme
  start : List Char
  rest : List Char
deriving DecidableEq, Repr

def token? (text : List Char) : Option Token :=
  match text with
  | [] => none
  | '\x7b' :: rest => some ⟨.opening, text, rest⟩
  | '\x7d' :: rest => some ⟨.closing, text, rest⟩
  | '"' :: quoted =>
    match quoted.dropWhile (· ≠ '"') with
    | [] => some ⟨.unclosed, text, []⟩
    | _ :: rest => some ⟨.text (String.ofList (quoted.takeWhile (· ≠ '"'))), text, rest⟩
  | c :: word =>
    some ⟨.text (String.ofList (c :: word.takeWhile isBare)), text, word.dropWhile isBare⟩

theorem token?_rest_lt {text : List Char} {token : Token} (found : token? text = some token) :
    token.rest.length < text.length := by
  have shorter (p : Char → Bool) (l : List Char) : (l.dropWhile p).length ≤ l.length :=
    (List.dropWhile_sublist p).length_le
  unfold token? at found
  split at found
  · cases found
  · cases found
    simp
  · cases found
    simp
  · rename_i quoted
    split at found
    · cases found
      simp
    · rename_i c rest after
      cases found
      have := shorter (· ≠ '"') quoted
      rw [after] at this
      simp only [List.length_cons] at *
      omega
  · rename_i c word _ _ _
    cases found
    have := shorter isBare word
    simp only [List.length_cons] at *
    omega

def tokens (text : List Char) : List Token :=
  match _ : token? (dropGap false text) with
  | none => []
  | some token => token :: tokens token.rest
termination_by text.length
decreasing_by exact Nat.lt_of_lt_of_le (token?_rest_lt ‹_›) (dropGap_length_le false text)

end SigScan.KeyValues
