import TreeShare.Engine.Search

/-! The calls that a user of the engine can make, and what they come to. -/
namespace TreeShare

inductive Call where
  | greet (target : Address)
  | send (target : Address) (m : Message)
  | request (peer : String) (m : Message)
  | download (peer : String) (hash : Digest)
  | rootOf (peer : String)
  | publicKeyOf (peer : String)
  | traverse (peer : String) (target : Address)
deriving DecidableEq

inductive Outcome where
  | done
  | name (peer : String)
  | reply (m : Message)
  | datum (d : Datum)
  | hash (h : Digest)
  | key (key : Option PublicKey)
  | failed (cause : RequestError)
deriving DecidableEq

def Outcome.of {α : Type} (f : α → Outcome) : Except RequestError α → Outcome
  | .ok a => f a
  | .error e => .failed e

def Node.run (n : Node) : Call → Proc Outcome
  | .greet target => do pure (.of .name (← (n.greet target).run))
  | .send target m => do pure (.of .reply (← (n.exchange target m).run))
  | .request peer m => do pure (.of .reply (← (n.request peer m).run))
  | .download peer hash => do pure (.of .datum (← (n.download peer hash).run))
  | .rootOf peer => do pure (.of .hash (← (n.rootOf peer).run))
  | .publicKeyOf peer => do pure (.of .key (← (n.publicKeyOf peer).run))
  | .traverse peer target => do pure (.of (fun _ => .done) (← (n.traverse peer target).run))

end TreeShare
