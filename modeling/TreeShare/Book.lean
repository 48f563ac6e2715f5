import TreeShare.Table
import TreeShare.Net.Address

/-! The address book: the addresses that answered for each peer, in the order of their registration. A
peer whose addresses are all gone stays known. -/
namespace TreeShare

structure PeerBook where
  peers : Table String (List Address)
deriving DecidableEq

namespace PeerBook

def empty : PeerBook := ⟨.empty⟩

def addresses? (b : PeerBook) (peer : String) : Option (List Address) :=
  b.peers.get? peer

def known (b : PeerBook) (peer : String) : List Address :=
  (b.addresses? peer).getD []

def contains (b : PeerBook) (peer : String) (a : Address) : Bool :=
  a ∈ b.known peer

def knows (b : PeerBook) (peer : String) : Bool :=
  b.peers.contains peer

/-- Adds an address at the end, and tells whether it was absent. -/
def register (b : PeerBook) (peer : String) (a : Address) : Bool × PeerBook :=
  if b.contains peer a then (false, b)
  else (true, ⟨b.peers.set peer (b.known peer ++ [a])⟩)

def evict (b : PeerBook) (peer : String) (a : Address) : Bool × PeerBook :=
  if b.contains peer a then
    (true, ⟨b.peers.set peer ((b.known peer).filter (· ≠ a))⟩)
  else (false, b)

/-- A peer that has this address. -/
def peerAt? (b : PeerBook) (a : Address) : Option String :=
  (b.peers.rows.find? fun r => a ∈ r.2).map Prod.fst

def size (b : PeerBook) : Nat := b.peers.size

@[simp] theorem addresses?_register (b : PeerBook) (p q : String) (a : Address) :
    (b.register p a).2.addresses? q =
      if q = p ∧ a ∉ b.known p then some (b.known p ++ [a]) else b.addresses? q := by
  unfold register contains
  by_cases ha : a ∈ b.known p <;> by_cases hq : q = p <;> simp [ha, hq, addresses?]

@[simp] theorem addresses?_evict (b : PeerBook) (p q : String) (a : Address) :
    (b.evict p a).2.addresses? q =
      if q = p ∧ a ∈ b.known p then some ((b.known p).filter (· ≠ a)) else b.addresses? q := by
  unfold evict contains
  by_cases ha : a ∈ b.known p <;> by_cases hq : q = p <;> simp [ha, hq, addresses?]

theorem known_register (b : PeerBook) (p q : String) (a : Address) :
    (b.register p a).2.known q =
      if q = p ∧ a ∉ b.known p then b.known p ++ [a] else b.known q := by
  change ((b.register p a).2.addresses? q).getD [] = _
  rw [addresses?_register]
  split <;> rfl

theorem known_evict (b : PeerBook) (p q : String) (a : Address) :
    (b.evict p a).2.known q =
      if q = p ∧ a ∈ b.known p then (b.known p).filter (· ≠ a) else b.known q := by
  change ((b.evict p a).2.addresses? q).getD [] = _
  rw [addresses?_evict]
  split <;> rfl

theorem mem_known_register {b : PeerBook} {p q : String} {a x : Address} :
    x ∈ (b.register p a).2.known q ↔ x ∈ b.known q ∨ q = p ∧ x = a := by
  rw [known_register]
  split <;> grind

theorem mem_known_evict {b : PeerBook} {p q : String} {a x : Address} :
    x ∈ (b.evict p a).2.known q ↔ x ∈ b.known q ∧ ¬ (q = p ∧ x = a) := by
  rw [known_evict]
  split <;> grind

end PeerBook
end TreeShare
