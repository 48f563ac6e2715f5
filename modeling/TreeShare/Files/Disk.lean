import TreeShare.Files.Path
import TreeShare.Files.Error
import TreeShare.Table

/-! A file system of files, directories and symbolic links, and the way paths are resolved in it: at most
40 links are followed, a name has at most 255 bytes and a path at most 4095. -/
namespace TreeShare

abbrev Location := List Bytes

inductive FileObject where
  | file (data : Bytes) (mode : Nat)
  | directory
  | link (target : Path)
deriving DecidableEq

/-- The objects below the root, in the order in which directories list them. -/
structure Disk where
  objects : Table Location FileObject
deriving DecidableEq

/-- Where a path leads: to an object, or to a free name in an existing directory. -/
inductive Place where
  | found (loc : Location)
  | vacant (loc : Location)

structure FileStat where
  isDirectory : Bool
  size : Nat
  mode : Nat

namespace Disk

def empty : Disk := ⟨.empty⟩

def object? (d : Disk) (loc : Location) : Option FileObject :=
  if loc = [] then some .directory else d.objects.get? loc

def isDirectory (d : Disk) (loc : Location) : Bool :=
  d.object? loc == some .directory

/-- The steps of a path; a slash at the end is an empty last step, which asks for a directory. -/
def steps (p : Path) : List Bytes :=
  let parts := Path.split p.bytes
  let named := parts.filter (· ≠ [])
  if named ≠ [] ∧ parts.getLast? = some [] then named ++ [[]] else named

/-- What a path is resolved for: to find an object, or to write a file, whose name has no slash at the
end. -/
inductive Purpose where
  | find
  | write
deriving DecidableEq

/-- Walks the steps from a directory. A link in the way is handed on with the steps that are left. -/
def walkUntilLink (d : Disk) (purpose : Purpose)
    (onLink : Location → List Bytes → Except FileError Place) :
    Location → List Bytes → Except FileError Place
  | here, [] => .ok (.found here)
  | here, n :: rest =>
    if !d.isDirectory here then .error .notADirectory
    else if n = [] ∨ n = Path.dot then d.walkUntilLink purpose onLink here rest
    else if n = Path.dotDot then d.walkUntilLink purpose onLink here.dropLast rest
    else if purpose = .write ∧ rest = [[]] then .error .isADirectory
    else if n.length > 255 then .error .nameTooLong
    else match d.object? (here ++ [n]) with
      | none => if rest = [] then .ok (.vacant (here ++ [n])) else .error .notFound
      | some (.link target) =>
        if target.bytes = [] then .error .notFound
        else onLink (if target.isAbsolute then [] else here) (steps target ++ rest)
      | some _ => d.walkUntilLink purpose onLink (here ++ [n]) rest

def walk (d : Disk) (purpose : Purpose) :
    (links : Nat) → Location → List Bytes → Except FileError Place
  | 0 => d.walkUntilLink purpose fun _ _ => .error .tooManyLinks
  | links + 1 => d.walkUntilLink purpose (d.walk purpose links)

def pathMax : Nat := 4096
def linkMax : Nat := 40

/-- Relative paths start at the root. -/
def locate (d : Disk) (purpose : Purpose) (p : Path) : Except FileError Place :=
  if (0 : UInt8) ∈ p.bytes then .error .nulInPath
  else if p.bytes = [] then .error .notFound
  else if pathMax ≤ p.bytes.length then .error .nameTooLong
  else d.walk purpose linkMax [] (steps p)

def resolve (d : Disk) (p : Path) : Except FileError Location := do
  match ← d.locate .find p with
  | .found loc => pure loc
  | .vacant _ => .error .notFound

def stat (d : Disk) (p : Path) : Except FileError FileStat := do
  let loc ← d.resolve p
  match d.object? loc with
  | some (.file data mode) => pure ⟨false, data.length, mode⟩
  | some .directory => pure ⟨true, 0, 0o755⟩
  | _ => .error .notFound

def contains (d : Disk) (p : Path) : Bool :=
  match d.stat p with
  | .ok _ => true
  | .error _ => false

def read (d : Disk) (p : Path) : Except FileError Bytes := do
  let loc ← d.resolve p
  match d.object? loc with
  | some (.file data _) => pure data
  | some .directory => .error .isADirectory
  | _ => .error .notFound

def readText (d : Disk) (p : Path) : Except FileError String := do
  match Utf8.decode? (← d.read p) with
  | some s => pure s
  | none => .error .notUtf8

def namesIn (d : Disk) (loc : Location) : List Bytes :=
  d.objects.rows.filterMap fun o => if o.1.dropLast = loc then o.1.getLast? else none

def list (d : Disk) (p : Path) : Except FileError (List Bytes) := do
  let loc ← d.resolve p
  if d.isDirectory loc then pure (d.namesIn loc) else .error .notADirectory

def set (d : Disk) (loc : Location) (o : FileObject) : Disk :=
  ⟨d.objects.set loc o⟩

def remove (d : Disk) (loc : Location) : Disk :=
  ⟨⟨d.objects.rows.filter fun x => !loc.isPrefixOf x.1⟩⟩

/-- Replaces the content of a file and keeps its mode, or makes a file with mode 644. -/
def write (d : Disk) (p : Path) (data : Bytes) : Except FileError Disk := do
  match ← d.locate .write p with
  | .vacant loc => pure (d.set loc (.file data 0o644))
  | .found loc =>
    match d.object? loc with
    | some (.file _ mode) => pure (d.set loc (.file data mode))
    | _ => .error .isADirectory

def setMode (d : Disk) (p : Path) (mode : Nat) : Except FileError Disk := do
  let loc ← d.resolve p
  match d.object? loc with
  | some (.file data _) => pure (d.set loc (.file data mode))
  | _ => pure d

/-- Makes one directory. A link that leads nowhere occupies its name. -/
def makeDirectory (d : Disk) (p : Path) : Except FileError Disk := do
  match p.parent?, p.names.getLast? with
  | some parent, some name =>
    let here ← if parent.bytes = [] then pure [] else d.resolve parent
    if !d.isDirectory here then .error .notADirectory
    else if name.length > 255 then .error .nameTooLong
    else if name = Path.dot ∨ name = Path.dotDot ∨ (d.object? (here ++ [name])).isSome then
      .error .alreadyThere
    else pure (d.set (here ++ [name]) .directory)
  | _, _ => .error .alreadyThere

end Disk

/-- A computation on a disk. What it changed stays changed when it fails. -/
abbrev OnDisk (ε α : Type) := ExceptT ε (StateM Disk) α

namespace OnDisk

/-- A single change, which happens whole or not at all. -/
def change (f : Disk → Except FileError Disk) : OnDisk FileError Unit :=
  fun d => match f d with
    | .ok d' => (.ok (), d')
    | .error e => (.error e, d)

def writeFile (p : Path) (data : Bytes) : OnDisk FileError Unit := change (·.write p data)

def setMode (p : Path) (mode : Nat) : OnDisk FileError Unit := change (·.setMode p mode)

def ensureDirectory (p : Path) : OnDisk FileError Unit :=
  fun d => match d.makeDirectory p, d.stat p with
    | .ok d', _ => (.ok (), d')
    | .error e, .ok s => (if s.isDirectory then .ok () else .error e, d)
    | .error e, .error _ => (.error e, d)

/-- Makes a directory after those above it that are missing, at most `depth` of them. -/
def ensureBelow : (depth : Nat) → Path → OnDisk FileError Unit
  | 0, p => ensureDirectory p
  | depth + 1, p => do
    match (← get).makeDirectory p, p.parent? with
    | .error .notFound, some parent =>
      if parent.bytes ≠ [] then ensureBelow depth parent
      ensureDirectory p
    | _, _ => ensureDirectory p

def ensureDirectories (p : Path) : OnDisk FileError Unit :=
  if p.bytes = [] then pure () else ensureBelow p.names.length p

end OnDisk
end TreeShare
