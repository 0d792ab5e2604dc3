import SigScan.Hex

namespace SigScan.Settings.Toml

def isBlank (c : Char) : Bool := c = ' ' ∨ c = '\t'

def isPlain (c : Char) : Bool := c = '\t' ∨ (' ' ≤ c ∧ c ≠ '\x7f')

def unifyLineEnds : List Char → List Char
  | [] => []
  | '\r' :: '\n' :: text => '\n' :: unifyLineEnds text
  | c :: text => c :: unifyLineEnds text

def charOfHex? (digits : List Char) : Option Char := do
  let values ← digits.mapM Hex.digit?
  let code := values.foldl (fun n digit => 16 * n + digit) 0
  if code.isValidChar then some (Char.ofNat code) else none

def escaped? : Char → Option Char
  | 'b' => some '\x08'
  | 't' => some '\t'
  | 'n' => some '\n'
  | 'f' => some '\x0c'
  | 'r' => some '\r'
  | '"' => some '"'
  | '\\' => some '\\'
  | _ => none

def push (c : Char) : Option (List Char × List Char) → Option (List Char × List Char) :=
  Option.map fun (content, rest) => (c :: content, rest)

def basic? : List Char → Option (List Char × List Char)
  | [] => none
  | '"' :: rest => some ([], rest)
  | '\\' :: 'u' :: a :: b :: c :: d :: rest => do push (← charOfHex? [a, b, c, d]) (basic? rest)
  | '\\' :: 'U' :: a :: b :: c :: d :: e :: f :: g :: h :: rest => do
    push (← charOfHex? [a, b, c, d, e, f, g, h]) (basic? rest)
  | '\\' :: c :: rest => do push (← escaped? c) (basic? rest)
  | c :: rest => if isPlain c then push c (basic? rest) else none

def nextLine? (text : List Char) : Option (List Char) :=
  match text.dropWhile isBlank with
  | '\n' :: rest => some (rest.dropWhile fun c => isBlank c ∨ c = '\n')
  | _ => none

theorem nextLine?_length {text rest : List Char} (found : nextLine? text = some rest) :
    rest.length ≤ text.length := by
  have shorter (p : Char → Bool) (l : List Char) : (l.dropWhile p).length ≤ l.length :=
    (List.dropWhile_sublist p).length_le
  rw [nextLine?] at found
  split at found
  · rename_i line ended
    cases found
    have blanks := shorter isBlank text
    rw [ended] at blanks
    exact Nat.le_trans (shorter _ line) (Nat.le_of_succ_le blanks)
  · cases found

/-- The content of a text on several lines up to its three closing quotes, and what follows them.
    Up to two quotes directly before the closing ones belong to the content, and a backslash at the
    end of a line joins it to the next. -/
def basicLines? : List Char → Option (List Char × List Char)
  | [] => none
  | '"' :: '"' :: '"' :: '"' :: '"' :: rest => some (['"', '"'], rest)
  | '"' :: '"' :: '"' :: '"' :: rest => some (['"'], rest)
  | '"' :: '"' :: '"' :: rest => some ([], rest)
  | '"' :: rest => push '"' (basicLines? rest)
  | '\\' :: 'u' :: a :: b :: c :: d :: rest => do
    push (← charOfHex? [a, b, c, d]) (basicLines? rest)
  | '\\' :: 'U' :: a :: b :: c :: d :: e :: f :: g :: h :: rest => do
    push (← charOfHex? [a, b, c, d, e, f, g, h]) (basicLines? rest)
  | '\\' :: text =>
    match _ : nextLine? text with
    | some rest => basicLines? rest
    | none =>
      match text with
      | [] => none
      | c :: rest => do push (← escaped? c) (basicLines? rest)
  | c :: rest => if isPlain c ∨ c = '\n' then push c (basicLines? rest) else none
termination_by text => text.length
decreasing_by
  · simp
  · simp only [List.length_cons]; omega
  · simp only [List.length_cons]; omega
  · exact Nat.lt_succ_of_le (nextLine?_length ‹_›)
  · simp only [List.length_cons]; omega
  · simp

def literal? : List Char → Option (List Char × List Char)
  | [] => none
  | '\x27' :: rest => some ([], rest)
  | c :: rest => if isPlain c then push c (literal? rest) else none

def literalLines? : List Char → Option (List Char × List Char)
  | [] => none
  | '\x27' :: '\x27' :: '\x27' :: '\x27' :: '\x27' :: rest => some (['\x27', '\x27'], rest)
  | '\x27' :: '\x27' :: '\x27' :: '\x27' :: rest => some (['\x27'], rest)
  | '\x27' :: '\x27' :: '\x27' :: rest => some ([], rest)
  | c :: rest => if isPlain c ∨ c = '\n' then push c (literalLines? rest) else none

def dropFirstLineEnd : List Char → List Char
  | '\n' :: text => text
  | text => text

end SigScan.Settings.Toml
