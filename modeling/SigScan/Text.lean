namespace SigScan.Text

def sameWord (a b : String) : Bool := a.toLower == b.toLower

inductive Surroundings
  | plain
  | quotes
  | blockComment
  | lineComment
deriving DecidableEq, Repr

/-- Erases comments from a text that starts inside the surroundings. Quotes hold no comment and a
    block comment leaves its line feeds behind, so no line changes its number. -/
def uncommentFrom : Surroundings → List Char → List Char
  | _, [] => []
  | .plain, '"' :: text => '"' :: uncommentFrom .quotes text
  | .plain, '/' :: '*' :: text => uncommentFrom .blockComment text
  | .plain, '/' :: '/' :: text => uncommentFrom .lineComment text
  | .plain, c :: text => c :: uncommentFrom .plain text
  | .quotes, '"' :: text => '"' :: uncommentFrom .plain text
  | .quotes, c :: text => c :: uncommentFrom .quotes text
  | .blockComment, '*' :: '/' :: text => uncommentFrom .plain text
  | .blockComment, '\n' :: text => '\n' :: uncommentFrom .blockComment text
  | .blockComment, _ :: text => uncommentFrom .blockComment text
  | .lineComment, '\n' :: text => '\n' :: uncommentFrom .plain text
  | .lineComment, _ :: text => uncommentFrom .lineComment text

def uncomment (text : String) : String :=
  String.ofList (uncommentFrom .plain text.toList)

end SigScan.Text
