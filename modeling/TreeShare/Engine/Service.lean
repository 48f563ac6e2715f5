import TreeShare.Engine.Traversal

/-! Answering requests. A request must have the right form and must respect its sender's key; one that
does not is dropped without an answer. -/
namespace TreeShare

inductive Request where
  | noOp
  | error
  | hello (h : Hello)
  | publicKey
  | root
  | datum (hash : Digest)
  | relay (target : Endpoint)
  | punch (initiator : Endpoint)
deriving DecidableEq

/-- The request that a message makes, if its body has the form that its type asks for. -/
def Request.ofMessage? (m : Message) : Option Request :=
  match m.type with
  | .noOp => some .noOp
  | .error => some .error
  | .hello => (Hello.parse m.body).toOption.map .hello
  | .publicKey => some .publicKey
  | .root => if m.body.length = 0 ∨ m.body.length = 32 then some .root else none
  | .getDatum => (Bytes.block? 32 m.body).map .datum
  | .natTraversalRequest => (Endpoint.ofBytes m.body).toOption.map .relay
  | .natTraversal => (Endpoint.ofBytes m.body).toOption.map .punch
  | _ => none

namespace Node

open Proc

/-- Sends a message that expects no reply. -/
def post (n : Node) (target : Address) (m : Message) : Proc Unit := do
  discard (perform (.transmit target (n.prepare m).encode))

/-- The body that answers for the node's public key: nothing if it does not sign. -/
def keyReply (n : Node) (id : UInt32) : Message :=
  if n.settings.signMessages then .ofKey id .publicKeyReply n.keys.publicKey
  else .empty id .publicKeyReply

def relayTo (n : Node) (initiator : Address) (target : Endpoint) : Proc Unit := do
  match initiator with
  | .v4 e =>
    if n.settings.relayTraversal then
      let id ← perform .drawId
      discard (perform (.transmit (.v4 target) (Message.ofEndpoint id .natTraversal e).encode))
  | .v6 .. => pure ()

def answer (n : Node) (source : Address) (id : UInt32) : Request → Proc Unit
  | .noOp | .error => pure ()
  | .hello h => do
    perform (.registerPeer h.peer source)
    match Message.hello id .helloReply n.settings.peerName with
    | .ok reply => n.post source reply
    | .error _ => pure ()
  | .publicKey => n.post source (n.keyReply id)
  | .root => do n.post source (.ofDigest id .rootReply (← perform .publishedRoot))
  | .datum hash => do
    match ← perform (.servedDatum hash id) with
    | .ok (some reply) => n.post source reply
    | .ok none | .error _ => n.post source (.ofDigest id .noDatum hash)
  | .relay target => n.relayTo source target
  | .punch initiator => do
    if ← n.isServer source then perform (.beginPunch (.v4 initiator))

def serve (n : Node) (source : Address) (m : Message) : Proc Unit :=
  match Request.ofMessage? m with
  | none => pure ()
  | some r => do
    match ← n.checkSender source m with
    | .ok () => n.answer source m.id r
    | .error _ => pure ()

end Node
end TreeShare
