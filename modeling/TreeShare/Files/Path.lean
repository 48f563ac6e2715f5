import TreeShare.Text.Utf8

/-! Paths as byte strings, with `/` between names. Nothing is normalised when paths are joined. -/
namespace TreeShare

structure Path where
  bytes : Bytes
deriving DecidableEq, Inhabited

namespace Path

def slash : UInt8 := 0x2f
def dot : Bytes := [0x2e]
def dotDot : Bytes := [0x2e, 0x2e]

def ofString (s : String) : Path := ⟨Utf8.encode s⟩

def text (p : Path) : String := Utf8.lossy p.bytes

instance : ToString Path := ⟨text⟩

def isAbsolute (p : Path) : Bool := p.bytes.head? == some slash

/-- An absolute second path stands alone; else one `/` goes between, unless the first is empty or ends
in one. -/
def join (p q : Path) : Path :=
  if q.isAbsolute then q
  else if p.bytes = [] ∨ p.bytes.getLast? = some slash then ⟨p.bytes ++ q.bytes⟩
  else ⟨p.bytes ++ slash :: q.bytes⟩

def split : Bytes → List Bytes
  | [] => [[]]
  | x :: b =>
    if x = slash then [] :: split b
    else match split b with
      | part :: parts => (x :: part) :: parts
      | [] => [[x]]

/-- The names on the way, without empty parts and without `.` parts that follow another part. -/
def names (p : Path) : List Bytes :=
  let parts := (split p.bytes).filter (· ≠ [])
  match parts with
  | first :: rest =>
    let rest := rest.filter (· ≠ dot)
    if first = dot ∧ p.isAbsolute then rest else first :: rest
  | [] => []

/-- The last name, unless the path is empty, the root, or ends in `..` or a lone `.`. -/
def fileName? (p : Path) : Option Bytes :=
  match p.names.getLast? with
  | some n => if n = dot ∨ n = dotDot then none else some n
  | none => none

def ofNames (absolute : Bool) (ns : List Bytes) : Path :=
  let tail := ((ns.map fun n => slash :: n).flatten).drop 1
  ⟨if absolute then slash :: tail else tail⟩

def parent? (p : Path) : Option Path :=
  match p.names with
  | [] => none
  | ns => some (ofNames p.isAbsolute ns.dropLast)

end Path
end TreeShare
