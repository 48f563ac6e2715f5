import TreeShare.Publishing.Build

/-! The tree that is published now. An export that fails leaves the last one in place. -/
namespace TreeShare

structure Publication where
  tree : Option PublishedTree
deriving DecidableEq

namespace Publication

def empty : Publication := ⟨none⟩

def publish (t : PublishedTree) : Publication := ⟨some t⟩

def exportPath (s : Publication) (d : Disk) (path : Path) :
    Except PublishError Digest × Publication :=
  match PublishedTree.build d path with
  | .error e => (.error e, s)
  | .ok t =>
    match t.rootHash? with
    | some h => (.ok h, publish t)
    | none => (.error (.unhashed t.root), s)

/-- The hash of the empty byte string when nothing is published. -/
def rootHash (s : Publication) : Digest :=
  (s.tree.bind PublishedTree.rootHash?).getD Datum.emptyRoot

def datumFor (s : Publication) (d : Disk) (h : Digest) (request : UInt32) :
    Except PublishError (Option Message) :=
  match s.tree with
  | none => .ok none
  | some t =>
    match t.lookup? h with
    | none => .ok none
    | some id => (t.datumMessage d id request).map some

end Publication
end TreeShare
