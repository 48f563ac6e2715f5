import TreeShare.Directory

/-! The keys that peers published, as far as the directory was asked. That a peer publishes none is
remembered too; that the directory did not answer is not. -/
namespace TreeShare

structure KeyCache where
  keys : Table String (Option PublicKey)
deriving DecidableEq

namespace KeyCache

def empty : KeyCache := ⟨.empty⟩

def cached? (r : KeyCache) (peer : String) : Option (Option PublicKey) :=
  r.keys.get? peer

def insert (r : KeyCache) (peer : String) (key : Option PublicKey) : KeyCache :=
  ⟨r.keys.set peer key⟩

/-- The key of a peer, asking the directory only for what is not cached. -/
def keyOf (r : KeyCache) (d : Directory) (peer : String) :
    Except DirectoryError (Option PublicKey) × KeyCache :=
  match r.cached? peer with
  | some key => (.ok key, r)
  | none =>
    match d.key peer with
    | .ok key => (.ok key, r.insert peer key)
    | .error e => (.error e, r)

@[simp] theorem cached?_insert (r : KeyCache) (p q : String) (key : Option PublicKey) :
    (r.insert p key).cached? q = if q = p then some key else r.cached? q := by
  simp [insert, cached?]

end KeyCache
end TreeShare
