import TreeShare.Datum
import TreeShare.Files.Disk
import TreeShare.Table

/-! A published tree: its nodes in a list, children before their directory, each with the hash of its
content. Only the paths of files are kept; their bytes are read again whenever a chunk is served. -/
namespace TreeShare

/-- A chunk is a run of 1024 bytes of a file. The slots of a directory are in ascending order. -/
inductive TreeNodeBody where
  | chunk (path : Path) (index : Nat)
  | directory (children : List (Slot × Nat))
deriving DecidableEq

structure TreeNode where
  name : String
  body : TreeNodeBody
  parent : Option Nat
  hash : Option Digest
deriving DecidableEq

/-- The index finds a node by its hash, once hashes have been computed. -/
structure PublishedTree where
  nodes : List TreeNode
  root : Nat
  index : Table Digest Nat
deriving DecidableEq

inductive PublishError where
  | file (path : Path) (cause : FileError)
  | notImplemented (path : Path)
  | nameTooLong (path : Path)
  | badName (path : Path)
  | tooManyEntries (path : Path) (count : Nat)
  | stale (path : Path)
  | unhashed (node : Nat)
  | badDatum (cause : DatumError)
deriving DecidableEq

def PublishError.message : PublishError → String
  | file path cause => s!"{path}: {cause.message}"
  | notImplemented path => s!"{path}: files larger than one chunk are not implemented"
  | nameTooLong path => s!"{path}: file name longer than 32 bytes"
  | badName path => s!"{path}: file name is not valid UTF-8 or contains NUL"
  | tooManyEntries path count => s!"{path}: directory has {count} entries, at most 16 are supported"
  | stale path => s!"{path}: file changed since it was exported"
  | unhashed node => s!"node {node} has no hash yet"
  | badDatum cause => cause.message

/-- Reads one chunk of a file; the first may not be followed by more. -/
def Disk.readChunk (d : Disk) (path : Path) (index : Nat) : Except PublishError Bytes := do
  let data := ((← (d.read path).mapError (.file path)).drop (1024 * index)).take 1025
  if index = 0 ∧ data.length > 1024 then .error (.stale path) else pure (data.take 1024)

namespace PublishedTree

def hashOf (nodes : List TreeNode) (id : Nat) : Except PublishError Digest :=
  match nodes[id]?.bind (·.hash) with
  | some h => .ok h
  | none => .error (.unhashed id)

def directoryPayload (nodes : List TreeNode) : List (Slot × Nat) → Except PublishError Bytes
  | [] => .ok []
  | (slot, id) :: rest => do
    let h ← hashOf nodes id
    let bytes ← directoryPayload nodes rest
    pure (slot.toList ++ h.toList ++ bytes)

def computeHash (d : Disk) (nodes : List TreeNode) : TreeNodeBody → Except PublishError Digest
  | .chunk path index => (d.readChunk path index).map (Datum.hashOf .chunk)
  | .directory children => (directoryPayload nodes children).map (Datum.hashOf .directory)

def fillHashes (d : Disk) : List Nat → List TreeNode → Except PublishError (Nat × List TreeNode)
  | [], nodes => .ok (0, nodes)
  | id :: ids, nodes =>
    match nodes[id]? with
    | none => fillHashes d ids nodes
    | some node =>
      if node.hash.isSome then fillHashes d ids nodes
      else do
        let h ← computeHash d nodes node.body
        let (count, nodes) ← fillHashes d ids (nodes.set id { node with hash := some h })
        pure (count + 1, nodes)

/-- Of nodes with equal hashes the last one is found. -/
def indexFrom (start : Nat) : List TreeNode → Table Digest Nat → Table Digest Nat
  | [], t => t
  | node :: nodes, t =>
    indexFrom (start + 1) nodes <| match node.hash with
      | some h => t.set h start
      | none => t

def computeHashes (t : PublishedTree) (d : Disk) : Except PublishError (Nat × PublishedTree) := do
  let (count, nodes) ← fillHashes d (List.range t.nodes.length) t.nodes
  pure (count, { t with nodes, index := indexFrom 0 nodes .empty })

def rootHash? (t : PublishedTree) : Option Digest :=
  t.nodes[t.root]?.bind (·.hash)

def lookup? (t : PublishedTree) (h : Digest) : Option Nat := t.index.get? h

def entries (nodes : List TreeNode) : List (Slot × Nat) → Except PublishError (List DirectoryEntry)
  | [] => .ok []
  | (_, id) :: rest => do
    let h ← hashOf nodes id
    let es ← entries nodes rest
    pure (⟨(nodes[id]?.map (·.name)).getD "", h⟩ :: es)

/-- The datum of a node, read from disk again where it is a chunk; a file that changed since yields
none. -/
def datum (t : PublishedTree) (d : Disk) (id : Nat) : Except PublishError Datum := do
  let expected ← hashOf t.nodes id
  match t.nodes[id]?.map TreeNode.body with
  | some (.chunk path index) =>
    let data ← d.readChunk path index
    let datum ← (Datum.ofContent (.chunk data)).mapError .badDatum
    if datum.hash = expected then pure datum else .error (.stale path)
  | some (.directory children) =>
    (Datum.ofContent (.directory (← entries t.nodes children))).mapError .badDatum
  | none => .error (.unhashed id)

def datumMessage (t : PublishedTree) (d : Disk) (id : Nat) (request : UInt32) :
    Except PublishError Message := do
  let datum ← t.datum d id
  (datum.toMessage request).mapError .badDatum

end PublishedTree
end TreeShare
