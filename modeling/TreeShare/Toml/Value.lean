import TreeShare.Toml.Text
import TreeShare.Toml.Moment

/-! Values, and the rule by which keys and headers fill tables. -/
namespace TreeShare.Toml

/-- How a table came to be, which decides what may still be added to it. -/
inductive Origin where
  /-- Written between braces: closed. -/
  | inline
  /-- Given by its own header. -/
  | written
  /-- Passed through by a header below it. -/
  | implied
  /-- Passed through by a dotted key. -/
  | dotted
deriving DecidableEq

inductive Value where
  | text (s : String)
  | integer (n : Int)
  | float
  | boolean (b : Bool)
  | moment
  | list (items : List Value)
  | table (origin : Origin) (rows : List (String × Value))
  /-- A list of tables, each with a header of its own. -/
  | tables (items : List (List (String × Value)))

abbrev Rows := List (String × Value)

namespace Rows

def set (key : String) (v : Value) : Rows → Rows
  | [] => [(key, v)]
  | row :: rows => if row.1 = key then (key, v) :: rows else row :: set key v rows

/-- Changes the table at the end of a path. Tables missing on the way are made as `made`. Values stop the
way, and so do tables with their own header for a dotted key; of a list of tables the last is meant. -/
def change (made : Origin) :
    (path : List String) → (Origin → Rows → Option Rows) → Origin → Rows → Option Rows
  | [], f, origin, rows => f origin rows
  | key :: path, f, _, rows =>
    match rows.lookup key with
    | none => do pure (rows.set key (.table made (← change made path f made [])))
    | some (.table .inline _) => none
    | some (.table origin inner) =>
      if made = .dotted ∧ origin = .written then none
      else do pure (rows.set key (.table origin (← change made path f origin inner)))
    | some (.tables items) =>
      match items.getLast? with
      | some inner => do
        let inner ← change made path f .written inner
        pure (rows.set key (.tables (items.dropLast ++ [inner])))
      | none => none
    | some _ => none

/-- Gives a new key its value. A dotted key ends only in a table that dotted keys made. -/
def insert (path : List String) (key : String) (v : Value) : Origin → Rows → Option Rows :=
  change .dotted path fun origin rows =>
    if (origin = .dotted ↔ path = []) ∨ (rows.lookup key).isSome then none
    else some (rows ++ [(key, v)])

end Rows

open Reader

def isBareKey (c : Char) : Bool := c.isAlphanum || c = '_' || c = '-'

def simpleKey : Reader String :=
  basicText <|> literalText <|> (do pure (String.ofList (← run1 isBareKey)))

/-- The bound on the parts of a key and on the depth of values. -/
def depthLimit : Nat := 80

/-- A key with its parts, as the parts before the last and the last. -/
def dottedKey : Reader (List String × String) := do
  let parts ← separated1 (do blanks; let k ← simpleKey; blanks; pure k) (word ".")
  match parts.getLast? with
  | some last => if parts.length < depthLimit then pure (parts.dropLast, last) else fail
  | none => fail

def flag : Reader Bool :=
  (do word "true"; pure true) <|> (do word "false"; pure false)

def scalar : Reader Value :=
  (do pure (.text (← textValue))) <|> (do momentValue; pure .moment)
    <|> (do floatValue; pure .float) <|> (do pure (.integer (← integerValue)))
    <|> (do pure (.boolean (← flag)))

/-- Items between brackets, over several lines if need be, with a comma allowed after the last. -/
def listOf (item : Reader Value) : Reader Value := do
  word "["
  let items ← separated (do gap; let v ← item; gap; pure v) (word ",")
  if !items.isEmpty then discard (maybe (word ","))
  gap
  word "]"
  pure (.list items)

/-- Pairs between braces, on one line, without a comma after the last. -/
def tableOf (item : Reader Value) : Reader Value := do
  word "\x7b"
  let pairs ← separated
    (do let key ← dottedKey; word "="; blanks; let v ← item; blanks; pure (key, v)) (word ",")
  blanks
  word "\x7d"
  match pairs.foldlM (fun rows (key, v) => Rows.insert key.1 key.2 v .inline rows) [] with
  | some rows => pure (.table .inline rows)
  | none => fail

/-- A value with at most `depth` levels of others inside. -/
def valueWithin : (depth : Nat) → Reader Value
  | 0 => scalar
  | depth + 1 => listOf (valueWithin depth) <|> tableOf (valueWithin depth) <|> scalar

def value : Reader Value := valueWithin (depthLimit - 1)

end TreeShare.Toml
