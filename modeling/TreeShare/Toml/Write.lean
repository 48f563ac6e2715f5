import TreeShare.Text.Hex

/-! Writing documents of sections with plain values. -/
namespace TreeShare.Toml

structure TextShape where
  controls : Bool
  backslashes : Bool
  newlines : Bool
  /-- The longest run of double quotation marks. -/
  doubles : Nat
  /-- The longest run of single quotation marks. -/
  singles : Nat

def longestRun (c : Char) : (before : Nat) → List Char → Nat
  | before, [] => before
  | before, d :: rest =>
    if d = c then longestRun c (before + 1) rest else max before (longestRun c 0 rest)

def isControl (c : Char) : Bool := (c < ' ' && c ≠ '\t' && c ≠ '\n') || c = '\x7f'

def TextShape.of (chars : List Char) : TextShape where
  controls := chars.any isControl
  backslashes := chars.contains '\\'
  newlines := chars.contains '\n'
  doubles := longestRun '\"' 0 chars
  singles := longestRun '\'' 0 chars

def escapedChar (c : Char) : List Char :=
  match c with
  | '\x08' => ['\\', 'b']
  | '\t' => ['\\', 't']
  | '\n' => ['\\', 'n']
  | '\x0c' => ['\\', 'f']
  | '\r' => ['\\', 'r']
  | '\"' => ['\\', '\"']
  | '\\' => ['\\', '\\']
  | c =>
    if isControl c then
      '\\' :: 'u' :: '0' :: '0' :: (Hex.encodeChars [UInt8.ofNat c.toNat]).map Char.toUpper
    else [c]

/-- Content between double marks on several lines: line breaks stand as they are, and so do up to `room`
further double marks before one must be escaped. -/
def longEscaped : (room : Nat) → List Char → List Char
  | _, [] => []
  | room, c :: rest =>
    if c = '\n' then c :: longEscaped 2 rest
    else if c = '\"' then
      match room with
      | room + 1 => c :: longEscaped room rest
      | 0 => escapedChar c ++ longEscaped 2 rest
    else escapedChar c ++ longEscaped 2 rest

/-- A string as a value: between double marks if nothing needs escaping, else between single marks if they
can hold it, else on several lines, and with escapes only when nothing else does. -/
def writtenText (s : String) : String :=
  let chars := s.toList
  let shape := TextShape.of chars
  let long (mark : Char) (body : List Char) : List Char :=
    let marks := List.replicate 3 mark
    marks ++ (if shape.newlines then ['\n'] else []) ++ body ++ marks
  let basic := '\"' :: chars.flatMap escapedChar ++ ['\"']
  String.ofList <|
    if !shape.controls ∧ !shape.backslashes ∧ !shape.newlines ∧ shape.doubles = 0 then basic
    else if !shape.controls ∧ !shape.newlines ∧ shape.singles = 0 then '\'' :: chars ++ ['\'']
    else if !shape.controls ∧ !shape.backslashes ∧ shape.doubles ≤ 2 then
      long '\"' (longEscaped 2 chars)
    else if !shape.controls ∧ shape.singles ≤ 2 then long '\'' chars
    else if shape.newlines then long '\"' (longEscaped 2 chars)
    else basic

inductive Plain where
  | text (s : String)
  | number (n : Nat)
  | boolean (b : Bool)

def Plain.written : Plain → String
  | text s => writtenText s
  | number n => toString n
  | boolean b => toString b

structure Section where
  name : String
  rows : List (String × Plain)

def Section.written (s : Section) : String :=
  "[" ++ s.name ++ "]\n" ++ String.join (s.rows.map fun r => r.1 ++ " = " ++ r.2.written ++ "\n")

def written (sections : List Section) : String :=
  "\n".intercalate (sections.map Section.written)

end TreeShare.Toml
