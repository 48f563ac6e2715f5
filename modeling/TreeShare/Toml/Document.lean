import TreeShare.Toml.Value

/-! Documents: lines with keys, headers and comments, which fill one table. -/
namespace TreeShare.Toml

open Reader

inductive Line where
  | blank
  | pair (path : List String) (key : String) (v : Value)
  | header (path : List String) (key : String)
  | listHeader (path : List String) (key : String)

def pairLine : Reader Line := do
  let (path, key) ← dottedKey
  word "="
  blanks
  let v ← value
  lineEnd
  pure (.pair path key v)

def listHeaderLine : Reader Line := do
  word "[["
  let (path, key) ← dottedKey
  word "]]"
  lineEnd
  pure (.listHeader path key)

def headerLine : Reader Line := do
  word "["
  let (path, key) ← dottedKey
  word "]"
  lineEnd
  pure (.header path key)

def blankLine : Reader Line := do
  (do comment; newline <|> atEnd) <|> newline
  pure .blank

def line : Reader Line := do
  let l ← blankLine <|> listHeaderLine <|> headerLine <|> pairLine
  blanks
  pure l

/-- All lines of a text, after a byte order mark if there is one. -/
def lines : Reader (List Line) := do
  discard (maybe (one (· = '\ufeff')))
  blanks
  many line

/-- What the lines so far have filled, and the table that the next pair goes to. -/
structure Progress where
  rows : Rows
  current : List String

namespace Progress

def start : Progress := ⟨[], []⟩

/-- Opens the table of a header. It may be there only because headers below it came first. -/
def openTable (key : String) (_ : Origin) (rows : Rows) : Option Rows :=
  match rows.lookup key with
  | none => some (rows ++ [(key, .table .written [])])
  | some (.table .implied inner) => some (rows.set key (.table .written inner))
  | some _ => none

def openItem (key : String) (_ : Origin) (rows : Rows) : Option Rows :=
  match rows.lookup key with
  | none => some (rows ++ [(key, .tables [[]])])
  | some (.tables items) => some (rows.set key (.tables (items ++ [[]])))
  | some _ => none

def read (p : Progress) : Line → Option Progress
  | .blank => some p
  | .pair path key v => do
    pure { p with rows := ← Rows.change .implied p.current (Rows.insert path key v) .written p.rows }
  | .header path key => do
    pure ⟨← Rows.change .implied path (openTable key) .written p.rows, path ++ [key]⟩
  | .listHeader path key => do
    pure ⟨← Rows.change .implied path (openItem key) .written p.rows, path ++ [key]⟩

end Progress

def parse (text : String) : Option Value := do
  let ls ← Reader.all lines text
  let p ← ls.foldlM Progress.read .start
  pure (.table .written p.rows)

end TreeShare.Toml
