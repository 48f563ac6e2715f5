import TreeShare.Engine.Traversal

/-! Requests to a peer by its name, wherever it can be reached. -/
namespace TreeShare.Node

open Proc

/-- Sends to known addresses in turn. Those that fail hard leave the book; none is left when all did. -/
def sendToKnown (n : Node) (peer : String) (m : Message) :
    List Address → Attempt (Option Message)
  | [] => pure none
  | a :: rest => do
    match ← (n.exchange a m).outcome with
    | .ok reply => pure (some reply)
    | .error e =>
      if e.isHard then
        perform (.evictPeer peer a)
        n.sendToKnown peer m rest
      else throw e

def reach (n : Node) (peer : String) (a : Address) : Attempt Bool := do
  match ← (n.greet a).outcome with
  | .ok _ => pure true
  | .error e =>
    if e.isHard then
      match ← (n.traverse peer a).outcome with
      | .ok () => pure true
      | .error _ => pure false
    else throw e

def sendToFresh (n : Node) (peer : String) (m : Message) :
    (tried : List Address) → List Address → Attempt Message
  | _, [] => throw (.unreachable peer)
  | tried, a :: rest => do
    if !a.isV4 || tried.contains a then n.sendToFresh peer m tried rest
    else if !(← n.reach peer a) then n.sendToFresh peer m (a :: tried) rest
    else
      match ← (n.exchange a m).outcome with
      | .ok reply =>
        perform (.registerPeer peer a)
        pure reply
      | .error e =>
        if e.isHard then
          perform (.evictPeer peer a)
          n.sendToFresh peer m (a :: tried) rest
        else throw e

/-- Known addresses first, then those the directory lists. A soft failure ends the search. -/
def request (n : Node) (peer : String) (m : Message) : Attempt Message := do
  let known ← perform (.knownAddresses peer)
  match ← n.sendToKnown peer m known with
  | some reply => pure reply
  | none =>
    match ← perform (.findAddresses peer) with
    | .ok fresh => n.sendToFresh peer m known fresh
    | .error e => throw (.directory e)

def download (n : Node) (peer : String) (hash : Digest) : Attempt Datum := do
  let id ← perform .drawId
  let reply ← n.request peer (.ofDigest id .getDatum hash)
  match reply.type with
  | .datum => Attempt.ofExcept ((Datum.parse reply.body).mapError .corrupted)
  | .noDatum => throw (.noDatum hash)
  | got => throw (.unexpectedReply .getDatum got)

def statedRoot (reply : Message) : Except RequestError Digest :=
  match Bytes.block? 32 reply.body with
  | some h => .ok h
  | none => .error (.malformed (.bodyLength reply.type 32 reply.body.length))

/-- The root that a peer publishes, as it says or else as the directory has it. -/
def rootOf (n : Node) (peer : String) : Attempt Digest := do
  let own ← perform .publishedRoot
  let id ← perform .drawId
  let asked ← (n.request peer (.ofDigest id .root own)).outcome
  match asked.bind statedRoot with
  | .ok h => pure h
  | .error e =>
    match ← perform (.findRoot peer) with
    | .ok (some h) => pure h
    | .ok none | .error _ => throw e

def publicKeyOf (n : Node) (peer : String) : Attempt (Option PublicKey) := do
  let id ← perform .drawId
  let reply ← n.request peer (.empty id .publicKey)
  Attempt.ofExcept ((PublicKey.parse reply.body).mapError .signature)

end TreeShare.Node
