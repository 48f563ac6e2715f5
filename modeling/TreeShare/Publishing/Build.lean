import TreeShare.Publishing.Tree
import TreeShare.Files.Order

/-! Walking a directory into a tree. Any error ends the walk: a path that leads nowhere, a directory of
more than 16 entries, a name that fits no slot, a file of more than one chunk. -/
namespace TreeShare.PublishedTree

abbrev Walk := Except PublishError (Nat × List TreeNode)

def entrySlot (path : Path) (name : Bytes) : Except PublishError (String × Slot) :=
  match Utf8.decode? name with
  | none => .error (.badName path)
  | some s =>
    match Slot.ofName s with
    | .ok slot => .ok (s, slot)
    | .error (.tooLong _) => .error (.nameTooLong path)
    | .error _ => .error (.badName path)

def addEntries (add : Path → String → List TreeNode → Walk) (parent : Path) :
    List Bytes → List TreeNode → Except PublishError (List (Slot × Nat) × List TreeNode)
  | [], nodes => .ok ([], nodes)
  | name :: names, nodes => do
    let path := parent.join ⟨name⟩
    let (s, slot) ← entrySlot path name
    let (id, nodes) ← add path s nodes
    let (rest, nodes) ← addEntries add parent names nodes
    pure ((slot, id) :: rest, nodes)

def setParents (parent : Nat) (ids : List Nat) (nodes : List TreeNode) : List TreeNode :=
  nodes.mapIdx fun i n => if i ∈ ids then { n with parent := some parent } else n

/-- Adds what a path leads to, links followed. `room` is what is left of the longest path: each level
takes at least one byte of it, so a walk around a cycle of links comes to an end. -/
def addNode (d : Disk) : (room : Nat) → Path → String → List TreeNode → Walk
  | 0, path, _, _ => .error (.file path .nameTooLong)
  | room + 1, path, name, nodes => do
    let stat ← (d.stat path).mapError (.file path)
    if stat.isDirectory then
      let names := Bytes.inOrder (← (d.list path).mapError (.file path))
      if names.length > 16 then .error (.tooManyEntries path names.length)
      else
        let (children, nodes) ← addEntries (addNode d room) path names nodes
        let id := nodes.length
        pure (id, setParents id (children.map Prod.snd) nodes ++ [⟨name, .directory children, none, none⟩])
    else if stat.size > 1024 then .error (.notImplemented path)
    else
      let data ← d.readChunk path 0
      pure (nodes.length, nodes ++ [⟨name, .chunk path 0, none, some (Datum.hashOf .chunk data)⟩])

def rootName (path : Path) : String :=
  match path.fileName? with
  | some n => Utf8.lossy n
  | none => ""

/-- The tree below a path. Files have their hash; directories do not yet. -/
def walk (d : Disk) (path : Path) : Except PublishError PublishedTree := do
  let (root, nodes) ← addNode d (Disk.pathMax - path.bytes.length + 1) path (rootName path) []
  pure ⟨nodes, root, .empty⟩

def build (d : Disk) (path : Path) : Except PublishError PublishedTree := do
  let t ← walk d path
  let (_, t) ← t.computeHashes d
  pure t

end TreeShare.PublishedTree
