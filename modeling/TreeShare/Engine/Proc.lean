import TreeShare.Replies
import TreeShare.Settings
import TreeShare.Engine.Error
import TreeShare.Publishing.Publication

/-! What the tasks of an engine do, as programs that ask one thing at a time. Other tasks may go on
between any two questions. -/
namespace TreeShare

/-- How a wait for a reply ends: with one, because the slot is gone, or in silence. -/
inductive Wait where
  | reply (m : Message)
  | swept
  | silence
deriving DecidableEq

inductive Op where
  /-- A random id. -/
  | drawId
  | now
  | register (key : ReplyKey)
  | cancel (key : ReplyKey)
  | transmit (target : Address) (datagram : Bytes)
  | awaitReply (t : Ticket) (deadline : Nat)
  | awaitTime (due : Nat)
  | registerPeer (peer : String) (a : Address)
  | evictPeer (peer : String) (a : Address)
  | knownAddresses (peer : String)
  | inBook (peer : String) (a : Address)
  | peerAt (a : Address)
  | findAddresses (peer : String)
  | findRoot (peer : String)
  | findKey (peer : String)
  | cachedKey (peer : String)
  | rememberKey (peer : String) (key : Option PublicKey)
  | publishedRoot
  | servedDatum (hash : Digest) (request : UInt32)
  /-- Starts a punch towards an address unless one is running. -/
  | beginPunch (a : Address)
  /-- Gives up for good: a task whose arithmetic overflows never goes on. -/
  | halt (cause : Overflow)
deriving DecidableEq

namespace Op

@[reducible] def Answer : Op → Type
  | drawId => UInt32
  | now => Nat
  | register _ => Ticket
  | cancel _ => Unit
  | transmit .. => Bool
  | awaitReply .. => Wait
  | awaitTime _ => Unit
  | registerPeer .. => Unit
  | evictPeer .. => Unit
  | knownAddresses _ => List Address
  | inBook .. => Bool
  | peerAt _ => Option String
  | findAddresses _ => Except DirectoryError (List Address)
  | findRoot _ => Except DirectoryError (Option Digest)
  | findKey _ => Except DirectoryError (Option PublicKey)
  | cachedKey _ => Option (Option PublicKey)
  | rememberKey .. => Unit
  | publishedRoot => Digest
  | servedDatum .. => Except PublishError (Option Message)
  | beginPunch _ => Unit
  | halt _ => Empty

end Op

inductive Proc (α : Type) where
  | done (a : α)
  | ask (op : Op) (next : op.Answer → Proc α)

namespace Proc

def bind {α β : Type} : Proc α → (α → Proc β) → Proc β
  | done a, f => f a
  | ask op next, f => ask op fun answer => (next answer).bind f

instance : Monad Proc where
  pure := done
  bind := bind

def perform (op : Op) : Proc op.Answer := ask op done

def orHalt {α : Type} : Except Overflow α → Proc α
  | .ok a => done a
  | .error cause => ask (.halt cause) Empty.elim

@[simp] theorem orHalt_ok {α : Type} (a : α) : orHalt (.ok a) = done a := rfl

theorem bind_done {α : Type} (p : Proc α) : p.bind done = p := by
  induction p with
  | done a => rfl
  | ask op next ih => exact congrArg (ask op) (funext ih)

theorem bind_bind {α β γ : Type} (p : Proc α) (f : α → Proc β) (g : β → Proc γ) :
    (p.bind f).bind g = p.bind fun a => (f a).bind g := by
  induction p with
  | done a => rfl
  | ask op next ih => exact congrArg (ask op) (funext ih)

instance : LawfulMonad Proc := LawfulMonad.mk' Proc bind_done (fun _ _ => rfl) bind_bind

end Proc

abbrev Attempt := ExceptT RequestError Proc

namespace Attempt

def outcome {α : Type} (p : Attempt α) : Attempt (Except RequestError α) :=
  ExceptT.lift (ExceptT.run p)

def ofExcept {α : Type} (r : Except RequestError α) : Attempt α := ExceptT.mk (pure r)

end Attempt

end TreeShare
