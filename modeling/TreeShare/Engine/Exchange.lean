import TreeShare.Engine.Error
import TreeShare.Engine.Node
import TreeShare.Engine.Proc
import TreeShare.Message.Hello

/-! One request to one address: send, wait for a window of time, send the same bytes again. The first
reply is checked and settles the request either way. -/
namespace TreeShare.Node

open Proc

/-- The name that the sender of a message goes by: what a Hello claims, else who the book has there. -/
def senderName (source : Address) (m : Message) : Proc (Option String) :=
  match m.claimedName? with
  | some peer => pure (some peer)
  | none => perform (.peerAt source)

def keyOf (peer : String) : Proc (Except DirectoryError (Option PublicKey)) := do
  match ← perform (.cachedKey peer) with
  | some key => pure (.ok key)
  | none =>
    match ← perform (.findKey peer) with
    | .ok key =>
      perform (.rememberKey peer key)
      pure (.ok key)
    | .error e => pure (.error e)

/-- Holds the sender to its published key. Without a name, a key or an answer there is nothing to
hold it to. -/
def checkSender (n : Node) (source : Address) (m : Message) : Proc (Except SignatureError Unit) := do
  match ← senderName source m with
  | none => pure (.ok ())
  | some peer =>
    match ← keyOf peer with
    | .ok (some key) => pure (m.checkSignature n.scheme key)
    | .ok none | .error _ => pure (.ok ())

/-- What a reply must be by itself: no error, of a type that answers the request, and the datum that
was asked for. -/
def checkReply (sent reply : Message) : Except RequestError Unit :=
  if reply.type = .errorReply ∧ sent.type ≠ .error then
    .error (.errorReply (Utf8.lossy reply.body))
  else if !reply.type.answers sent.type then .error (.unexpectedReply sent.type reply.type)
  else if reply.type = .datum then
    match Datum.checkIntegrity reply.body with
    | .error e => .error (.corrupted e)
    | .ok () =>
      if sent.body = reply.body.take 32 then .ok ()
      else .error (.hashMismatch (Bytes.padded 32 sent.body) (Bytes.padded 32 reply.body))
  else .ok ()

def validate (n : Node) (source : Address) (sent reply : Message) : Attempt Message := do
  Attempt.ofExcept (checkReply sent reply)
  ExceptT.mk do pure ((← n.checkSender source reply).mapError .signature)
  pure reply

/-- Sends at most `left` times more of `attempts`, with a slot in the table of pending replies. -/
def sendUpTo (n : Node) (target : Address) (m : Message) (attempts : Nat) :
    (left : Nat) → Ticket → Attempt Message
  | 0, _ => do
    perform (.cancel (target, m.id))
    throw (.noReply target attempts)
  | left + 1, ticket => do
    if ← perform (.transmit target m.encode) then
      let start ← perform .now
      match ← perform (.awaitReply ticket (start + n.settings.replyTimeout)) with
      | .reply r => n.validate target m r
      | .swept => n.sendUpTo target m attempts left (← perform (.register (target, m.id)))
      | .silence => n.sendUpTo target m attempts left ticket
    else
      perform (.cancel (target, m.id))
      throw .socket

def exchange (n : Node) (target : Address) (m : Message) : Attempt Message := do
  let m := n.prepare m
  let attempts ← ExceptT.lift (orHalt n.settings.attempts)
  let ticket ← perform (.register (target, m.id))
  n.sendUpTo target m attempts attempts ticket

def greet (n : Node) (target : Address) : Attempt String := do
  let id ← perform .drawId
  let m ← Attempt.ofExcept ((Message.hello id .hello n.settings.peerName).mapError .malformed)
  let reply ← n.exchange target m
  let hello ← Attempt.ofExcept ((Hello.parse reply.body).mapError .malformed)
  perform (.registerPeer hello.peer target)
  pure hello.peer

end TreeShare.Node
