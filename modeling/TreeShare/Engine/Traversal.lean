import TreeShare.Engine.Exchange

/-! Reaching a peer behind a NAT. The initiator asks the rendezvous server to tell the target; both then
greet each other until one Hello gets through. -/
namespace TreeShare.Node

open Proc

/-- Where the rendezvous server is: what the directory lists for IPv4, or what the book has if the
directory does not answer. -/
def serverAddresses (n : Node) : Proc (List Address) := do
  match ← perform (.findAddresses n.settings.serverName) with
  | .ok found => pure (found.filter Address.isV4)
  | .error _ => perform (.knownAddresses n.settings.serverName)

def isServer (n : Node) (a : Address) : Proc Bool := do
  if ← perform (.inBook n.settings.serverName a) then pure true
  else pure ((← n.serverAddresses).contains a)

def sendToAll (datagram : Bytes) : List Address → Proc Unit
  | [] => pure ()
  | a :: rest => do
    discard (perform (.transmit a datagram))
    sendToAll datagram rest

/-- Rounds of asking the server and greeting the target. The far side's own Hello counts too. -/
def traverseRounds (n : Node) (peer : String) (target : Address) (request : Message) :
    (rounds : Nat) → Attempt Unit
  | 0 => throw (.unreachable peer)
  | rounds + 1 => do
    let servers ← n.serverAddresses
    sendToAll request.encode servers
    match ← (n.greet target).outcome with
    | .ok _ => pure ()
    | .error e =>
      if e.isSoft then throw e
      else if ← perform (.inBook peer target) then pure ()
      else n.traverseRounds peer target request rounds

def traverse (n : Node) (peer : String) (target : Address) : Attempt Unit :=
  match target with
  | .v4 e => do
    let id ← perform .drawId
    n.traverseRounds peer target (.ofEndpoint id .natTraversalRequest e)
      n.settings.traversalRounds.toNat
  | .v6 .. => throw (.unreachable peer)

/-- The target's side: greets an initiator until it answers, well or badly. -/
def punchRounds (n : Node) (initiator : Address) : (rounds : Nat) → Proc Unit
  | 0 => pure ()
  | rounds + 1 => do
    match ← (n.greet initiator).run with
    | .ok _ => pure ()
    | .error e => if e.isSoft then pure () else n.punchRounds initiator rounds

def punch (n : Node) (initiator : Address) : Proc Unit :=
  n.punchRounds initiator n.settings.traversalRounds.toNat

end TreeShare.Node
