import SigScan.Hex

namespace SigScan.Json

structure Decimal where
  mantissa : Int
  exponent : Int
deriving DecidableEq, Repr

inductive Value
  | null
  | bool (b : Bool)
  | number (n : Decimal)
  | string (text : String)
  | array (items : List Value)
  | object (members : List (String × Value))
deriving Repr, Inhabited

def Value.natural (n : Nat) : Value := .number ⟨n, 0⟩

def isBlank (c : Char) : Bool := c = ' ' ∨ c = '\t' ∨ c = '\r' ∨ c = '\n'

def isMark (c : Char) : Bool :=
  c = '\x7b' ∨ c = '\x7d' ∨ c = '[' ∨ c = ']' ∨ c = ':' ∨ c = ','

def isBare (c : Char) : Bool := !isBlank c && !isMark c && c ≠ '"'

def escape? : Char → Option Char
  | '"' => some '"'
  | '\\' => some '\\'
  | '/' => some '/'
  | 'b' => some '\x08'
  | 'f' => some '\x0c'
  | 'n' => some '\n'
  | 'r' => some '\r'
  | 't' => some '\t'
  | _ => none

def unit? : List Char → Option (Nat × List Char)
  | '\\' :: 'u' :: a :: b :: c :: d :: text =>
    match Hex.byte? a b, Hex.byte? c d with
    | some high, some low => some (256 * high.toNat + low.toNat, text)
    | _, _ => none
  | _ => none

def isHighSurrogate (unit : Nat) : Bool := 0xd800 ≤ unit && unit < 0xdc00

def isLowSurrogate (unit : Nat) : Bool := 0xdc00 ≤ unit && unit < 0xe000

def joinSurrogates (high low : Nat) : Char :=
  Char.ofNat (0x10000 + 0x400 * (high - 0xd800) + (low - 0xdc00))

/-- The character that the front of a text in quotes stands for, and the text behind it. Two
    surrogates in a row are one character, and one alone is none. -/
def char? (text : List Char) : Option (Char × List Char) :=
  match unit? text with
  | some (unit, text) =>
    if isHighSurrogate unit then
      match unit? text with
      | some (low, text) =>
        if isLowSurrogate low then some (joinSurrogates unit low, text) else none
      | none => none
    else if isLowSurrogate unit then none
    else some (Char.ofNat unit, text)
  | none =>
    match text with
    | [] => none
    | ['\\'] => none
    | '\\' :: c :: text => (escape? c).map (·, text)
    | c :: text => if c.toNat < 0x20 then none else some (c, text)

theorem unit?_rest_lt {text rest : List Char} {unit : Nat} (read : unit? text = some (unit, rest)) :
    rest.length < text.length := by
  unfold unit? at read
  split at read
  · split at read
    · cases read
      simp only [List.length_cons]
      omega
    · cases read
  · cases read

theorem char?_rest_lt {text rest : List Char} {c : Char} (read : char? text = some (c, rest)) :
    rest.length < text.length := by
  unfold char? at read
  split at read
  · rename_i unit behind first
    have shorter := unit?_rest_lt first
    split at read
    · split at read
      · rename_i low behind' second
        split at read
        · obtain ⟨-, rfl⟩ := Prod.mk.inj (Option.some.inj read)
          exact Nat.lt_trans (unit?_rest_lt second) shorter
        · cases read
      · cases read
    · split at read
      · cases read
      · obtain ⟨-, rfl⟩ := Prod.mk.inj (Option.some.inj read)
        exact shorter
  · split at read
    · cases read
    · cases read
    · obtain ⟨c', -, same⟩ := Option.map_eq_some_iff.mp read
      cases same
      simp only [List.length_cons]
      omega
    · split at read
      · cases read
      · cases read
        exact Nat.lt_succ_self _

def content? (text : List Char) : Option (List Char × List Char) :=
  if text.head? = some '"' then some ([], text.tail)
  else
    match _ : char? text with
    | none => none
    | some (c, rest) => (content? rest).map fun read => (c :: read.1, read.2)
termination_by text.length
decreasing_by exact char?_rest_lt ‹_›

def fraction? : List Char → Option (List Char × List Char)
  | '.' :: text =>
    if text.takeWhile Char.isDigit = [] then none
    else some (text.takeWhile Char.isDigit, text.dropWhile Char.isDigit)
  | text => some ([], text)

def digits? (text : List Char) : Option Nat :=
  if text ≠ [] ∧ text.all Char.isDigit then some (Nat.ofDigitChars 10 text 0) else none

def power? : List Char → Option Int
  | [] => some 0
  | e :: text =>
    if e = 'e' ∨ e = 'E' then
      match text with
      | '-' :: text => (digits? text).map fun n => -(n : Int)
      | '+' :: text => (digits? text).map Int.ofNat
      | text => (digits? text).map Int.ofNat
    else none

def magnitude? (text : List Char) : Option Decimal :=
  let whole := text.takeWhile Char.isDigit
  if whole = ['0'] ∨ whole ≠ [] ∧ whole.head? ≠ some '0' then do
    let (fraction, behind) ← fraction? (text.dropWhile Char.isDigit)
    let power ← power? behind
    return ⟨Nat.ofDigitChars 10 (whole ++ fraction) 0, power - fraction.length⟩
  else none

def decimal? : List Char → Option Decimal
  | '-' :: text => (magnitude? text).map fun n => ⟨-n.mantissa, n.exponent⟩
  | text => magnitude? text

def word? (text : List Char) : Option Value :=
  if text = "true".toList then some (.bool true)
  else if text = "false".toList then some (.bool false)
  else if text = "null".toList then some .null
  else (decimal? text).map .number

inductive Token
  | mark (c : Char)
  | value (v : Value)
deriving Repr, Inhabited

def token? : List Char → Option (Token × List Char)
  | [] => none
  | '"' :: quoted =>
    (content? quoted).map fun read => (.value (.string (String.ofList read.1)), read.2)
  | c :: text =>
    if isMark c then some (.mark c, text)
    else (word? (c :: text.takeWhile isBare)).map (.value ·, text.dropWhile isBare)

theorem content?_rest_lt {text content rest : List Char} (read : content? text = some (content, rest)) :
    rest.length < text.length := by
  fun_induction content? text generalizing content with
  | case1 text quote =>
    cases read
    obtain ⟨behind, rfl⟩ := List.head?_eq_some_iff.mp quote
    exact Nat.lt_succ_self _
  | case2 => cases read
  | case3 text _ c behind first ih =>
    obtain ⟨⟨tail, last⟩, others, same⟩ := Option.map_eq_some_iff.mp read
    cases same
    exact Nat.lt_trans (ih others) (char?_rest_lt first)

theorem token?_rest_lt {text rest : List Char} {token : Token}
    (read : token? text = some (token, rest)) : rest.length < text.length := by
  unfold token? at read
  split at read
  · cases read
  · obtain ⟨⟨content, behind⟩, quoted, same⟩ := Option.map_eq_some_iff.mp read
    cases same
    exact Nat.lt_trans (content?_rest_lt quoted) (Nat.lt_succ_self _)
  · split at read
    · cases read
      exact Nat.lt_succ_self _
    · obtain ⟨v, -, same⟩ := Option.map_eq_some_iff.mp read
      cases same
      exact Nat.lt_succ_of_le (List.dropWhile_sublist isBare).length_le

def tokens? (text : List Char) : Option (List Token) :=
  if text.all isBlank then some []
  else
    match _ : token? (text.dropWhile isBlank) with
    | none => none
    | some (token, rest) => (tokens? rest).map (token :: ·)
termination_by text.length
decreasing_by exact Nat.lt_of_lt_of_le (token?_rest_lt ‹_›) (List.dropWhile_sublist isBlank).length_le

inductive Frame
  | array (items : List Value)
  | object (members : List (String × Value)) (key : String)
deriving Repr, Inhabited

mutual

def expect? : List Frame → List Token → Option Value
  | frames, .value v :: tokens => settle? frames v tokens
  | frames, .mark '[' :: .mark ']' :: tokens => settle? frames (.array []) tokens
  | frames, .mark '[' :: tokens => expect? (.array [] :: frames) tokens
  | frames, .mark '\x7b' :: .mark '\x7d' :: tokens => settle? frames (.object []) tokens
  | frames, .mark '\x7b' :: .value (.string key) :: .mark ':' :: tokens =>
    expect? (.object [] key :: frames) tokens
  | _, _ => none

def settle? : List Frame → Value → List Token → Option Value
  | [], v, [] => some v
  | .array items :: frames, v, .mark ',' :: tokens => expect? (.array (v :: items) :: frames) tokens
  | .array items :: frames, v, .mark ']' :: tokens => settle? frames (.array (v :: items).reverse) tokens
  | .object members key :: frames, v, .mark ',' :: .value (.string next) :: .mark ':' :: tokens =>
    expect? (.object ((key, v) :: members) next :: frames) tokens
  | .object members key :: frames, v, .mark '\x7d' :: tokens =>
    settle? frames (.object ((key, v) :: members).reverse) tokens
  | _, _, _ => none

end

def read? (text : String) : Option Value := (tokens? text.toList).bind (expect? [])

end SigScan.Json
