/-! Readers that take something off the front of a text, or fail and leave it whole. -/
namespace TreeShare.Toml

abbrev Reader (α : Type) := StateT (List Char) Option α

namespace Reader

def fail {α : Type} : Reader α := fun _ => none

def one (p : Char → Bool) : Reader Char := fun input =>
  match input with
  | c :: rest => if p c then some (c, rest) else none
  | [] => none

def run (p : Char → Bool) : Reader (List Char) := fun input => some (input.span p)

def run1 (p : Char → Bool) : Reader (List Char) := do
  let c ← one p
  pure (c :: (← run p))

def exactly (word : List Char) : Reader Unit := fun input =>
  if word.isPrefixOf input then some ((), input.drop word.length) else none

def word (s : String) : Reader Unit := exactly s.toList

def ahead (r : Reader α) : Reader Unit := fun input => (r input).map fun _ => ((), input)

def atEnd : Reader Unit := fun input => if input.isEmpty then some ((), input) else none

def maybe (r : Reader α) : Reader (Option α) := fun input =>
  match r input with
  | some (a, rest) => some (some a, rest)
  | none => some (none, input)

def upTo (r : Reader α) : (limit : Nat) → Reader (List α)
  | 0 => pure []
  | limit + 1 => do
    match ← maybe r with
    | some a => pure (a :: (← upTo r limit))
    | none => pure []

/-- As many readings as succeed. Each is to take a character at least, so the length of the text is
limit enough. -/
def many (r : Reader α) : Reader (List α) := fun input => upTo r input.length input

def separated1 (r : Reader α) (separator : Reader Unit) : Reader (List α) := do
  let a ← r
  pure (a :: (← many (separator *> r)))

def separated (r : Reader α) (separator : Reader Unit) : Reader (List α) := do
  pure ((← maybe (separated1 r separator)).getD [])

def all (r : Reader α) (text : String) : Option α :=
  match r text.toList with
  | some (a, []) => some a
  | _ => none

end Reader

open Reader

/-! ## White space and comments -/

def isBlankChar (c : Char) : Bool := c = ' ' || c = '\t'

/-- Whether a character may stand in a comment: a tab, or no control character. -/
def isShown (c : Char) : Bool := c = '\t' || (' ' ≤ c && c ≠ '\x7f')

def blanks : Reader Unit := do discard (run isBlankChar)

def newline : Reader Unit := word "\n" <|> word "\r\n"

def comment : Reader Unit := do
  word "#"
  discard (run isShown)

def lineEnd : Reader Unit := do
  blanks
  discard (maybe comment)
  newline <|> atEnd

def gapPiece : Reader Unit :=
  discard (run1 isBlankChar) <|> newline <|> (do comment; newline)

def gap : Reader Unit := do discard (many gapPiece)

end TreeShare.Toml
