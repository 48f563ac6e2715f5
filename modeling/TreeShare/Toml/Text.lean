import TreeShare.Text.Hex
import TreeShare.Toml.Reader

/-! Strings: basic ones with escapes, literal ones without, each on one line or on several. -/
namespace TreeShare.Toml

open Reader

def codePoint (digits : Nat) : Reader Char := fun input =>
  match Hex.number? (input.take digits) with
  | some n =>
    if (input.take digits).length = digits ∧ n.isValidChar then
      some (Char.ofNat n, input.drop digits)
    else none
  | none => none

def escaped : Reader Char := do
  word "\\"
  match ← one fun _ => true with
  | 'b' => pure '\x08'
  | 't' => pure '\t'
  | 'n' => pure '\n'
  | 'f' => pure '\x0c'
  | 'r' => pure '\r'
  | '\"' => pure '\"'
  | '\\' => pure '\\'
  | 'u' => codePoint 4
  | 'U' => codePoint 8
  | _ => fail

def isBasic (c : Char) : Bool := isShown c && c ≠ '\"' && c ≠ '\\'

def isLiteral (c : Char) : Bool := isShown c && c ≠ '\''

def basicText : Reader String := do
  word "\""
  let chars ← many (one isBasic <|> escaped)
  word "\""
  pure (String.ofList chars)

def literalText : Reader String := do
  word "'"
  let chars ← run isLiteral
  word "'"
  pure (String.ofList chars)

def lineBreak : Reader (List Char) := do newline; pure ['\n']

/-- A backslash at the end of a line takes away the line break and all white space after it. -/
def joinedLines : Reader (List Char) := do
  word "\\"
  blanks
  newline
  discard (many (discard (run1 isBlankChar) <|> newline))
  pure []

/-- One piece of a string on several lines. Quotation marks short of a closing delimiter are content. -/
def longPiece (quote : Char) (plain : Reader (List Char)) : Reader (List Char) :=
  plain <|> lineBreak
    <|> (do exactly [quote, quote]; ahead (one (· ≠ quote)); pure [quote, quote])
    <|> (do exactly [quote]; ahead (one (· ≠ quote)); pure [quote])

/-- The end of a string on several lines, with up to two quotation marks before it. -/
def longEnd (quote : Char) : Reader (List Char) := do
  let marks ← run (· = quote)
  if 3 ≤ marks.length ∧ marks.length ≤ 5 then pure (marks.drop 3) else fail

def longText (quote : Char) (plain : Reader (List Char)) : Reader String := do
  exactly [quote, quote, quote]
  discard (maybe newline)
  let pieces ← many (longPiece quote plain)
  pure (String.ofList (pieces.flatten ++ (← longEnd quote)))

def longBasicText : Reader String :=
  longText '\"' (joinedLines <|> (do pure [← one isBasic <|> escaped]))

def longLiteralText : Reader String := longText '\'' (do pure [← one isLiteral])

def textValue : Reader String :=
  longBasicText <|> basicText <|> longLiteralText <|> literalText

end TreeShare.Toml
