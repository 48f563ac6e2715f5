import TreeShare.Engine.Call
import TreeShare.Engine.Service
import TreeShare.Engine.Heartbeat
import TreeShare.Signing.KeyCache
import TreeShare.Book

/-! The state of an engine, and how it answers what a task asks. -/
namespace TreeShare

/-- Whether a datagram for an address leaves the host. -/
structure Network where
  carries : Address → Bytes → Bool

namespace Network

def largestDatagram : Nat := 65507

def ip4 : Network := ⟨fun a b => a.isV4 && a.port ≠ 0 && b.length ≤ largestDatagram⟩

def down : Network := ⟨fun _ _ => false⟩

end Network

/-- Why a task runs, which decides what happens when its program is done. -/
inductive Duty where
  | call
  | service
  | punch (initiator : Address)
  /-- Greets the server again when the time of the next round has come. -/
  | keepAlive (next : Nat)
deriving DecidableEq

structure Task where
  duty : Duty
  /-- The slot the task waits for or waited for last. -/
  ticket : Option Ticket
  program : Proc Outcome

structure Engine where
  book : PeerBook
  replies : ReplyTable
  keyCache : KeyCache
  published : Publication
  /-- Initiators towards which a punch is running. -/
  punches : List Address
  network : Network
  directory : Directory
  disk : Disk
  /-- The clock of waits and intervals. -/
  clock : Nat
  /-- The clock by which parked replies age. -/
  ageClock : Nat
  /-- The time of the next sweep; none if the interval is empty, which no timer accepts. -/
  nextSweep : Option Nat
  /-- How many ids were drawn. -/
  drawn : Nat
  tasks : Table Nat Task
  /-- The number of the next task. -/
  nextTask : Nat

inductive Record where
  | sent (target : Address) (datagram : Bytes)
  | ended (task : Nat) (outcome : Outcome)
deriving DecidableEq

namespace Engine

def start (n : Node) (network : Network) (directory : Directory) (disk : Disk) : Engine where
  book := .empty
  replies := .empty
  keyCache := .empty
  published := .empty
  punches := []
  network := network
  directory := directory
  disk := disk
  clock := 0
  ageClock := 0
  nextSweep := if n.settings.reapInterval = 0 then none else some 0
  drawn := 0
  tasks := .empty
  nextTask := 0

def spawn (e : Engine) (duty : Duty) (program : Proc Outcome) : Nat × Engine :=
  (e.nextTask, { e with
    tasks := e.tasks.set e.nextTask ⟨duty, none, program⟩
    nextTask := e.nextTask + 1 })

def silent (p : Proc Unit) : Proc Outcome := do
  p
  pure .done

def beginPunch (n : Node) (e : Engine) (a : Address) : Engine :=
  if e.punches.contains a then e
  else ({ e with punches := a :: e.punches }.spawn (.punch a) (silent (n.punch a))).2

/-- How a wait for a ticket stands now; none while it goes on. -/
def checkWait (e : Engine) (t : Ticket) (deadline : Nat) : Option (Wait × ReplyTable) :=
  match e.replies.poll t with
  | (.taken m, p) => some (.reply m, p)
  | (.closed, p) => some (.swept, p)
  | (.waiting, p) => if deadline ≤ e.clock then some (.silence, p) else none

/-- Answers a question of a task; none while the task has to wait, which one that halts does for good. -/
def perform (n : Node) (e : Engine) : (op : Op) → Option (op.Answer × Engine × List Record)
  | .drawId => some (n.ids e.drawn, { e with drawn := e.drawn + 1 }, [])
  | .now => some (e.clock, e, [])
  | .register key =>
    let (t, p) := e.replies.register key
    some (t, { e with replies := p }, [])
  | .cancel key => some ((), { e with replies := e.replies.cancel key }, [])
  | .transmit target datagram =>
    if e.network.carries target datagram then some (true, e, [.sent target datagram])
    else some (false, e, [])
  | .awaitReply t deadline =>
    (e.checkWait t deadline).map fun (w, p) => (w, { e with replies := p }, [])
  | .awaitTime due => if due ≤ e.clock then some ((), e, []) else none
  | .registerPeer peer a => some ((), { e with book := (e.book.register peer a).2 }, [])
  | .evictPeer peer a => some ((), { e with book := (e.book.evict peer a).2 }, [])
  | .knownAddresses peer => some (e.book.known peer, e, [])
  | .inBook peer a => some (e.book.contains peer a, e, [])
  | .peerAt a => some (e.book.peerAt? a, e, [])
  | .findAddresses peer => some (e.directory.addresses peer, e, [])
  | .findRoot peer => some (e.directory.root peer, e, [])
  | .findKey peer => some (e.directory.key peer, e, [])
  | .cachedKey peer => some (e.keyCache.cached? peer, e, [])
  | .rememberKey peer key => some ((), { e with keyCache := e.keyCache.insert peer key }, [])
  | .publishedRoot => some (e.published.rootHash, e, [])
  | .servedDatum hash request => some (e.published.datumFor e.disk hash request, e, [])
  | .beginPunch a => some ((), e.beginPunch n a, [])
  | .halt _ => none

/-- Runs a program with nothing going on beside it; none if it has to wait. -/
def alone {α : Type} (n : Node) (e : Engine) : Proc α → Option (α × Engine × List Record)
  | .done a => some (a, e, [])
  | .ask op next => do
    let (answer, e, records) ← e.perform n op
    let (a, e, more) ← alone n e (next answer)
    pure (a, e, records ++ more)

end Engine
end TreeShare
