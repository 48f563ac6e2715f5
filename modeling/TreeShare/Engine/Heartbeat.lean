import TreeShare.Engine.Traversal

/-! Greeting the rendezvous server at intervals, so that a NAT keeps the way open. -/
namespace TreeShare.Node

open Proc

/-- An address that answers is registered as the server's, one that is dead leaves the book. -/
def greetServers (n : Node) : List Address → Proc Unit
  | [] => pure ()
  | a :: rest => do
    match ← (n.greet a).run with
    | .ok _ => perform (.registerPeer n.settings.serverName a)
    | .error e => if e.isHard then perform (.evictPeer n.settings.serverName a)
    n.greetServers rest

def keepAliveRound (n : Node) (due : Nat) : Proc Unit := do
  perform (.awaitTime due)
  n.greetServers (← n.serverAddresses)

end TreeShare.Node
