import TreeShare.Engine.State

/-! The engine as a state machine. Its events are datagrams, calls, the passing of time, and single steps
of its tasks, so that every interleaving of the tasks is a list of events. -/
namespace TreeShare

inductive Event where
  /-- A datagram arrives. -/
  | receive (source : Address) (datagram : Bytes)
  | call (c : Call)
  /-- Starts to greet the server at intervals. No timer accepts an empty interval. -/
  | keepAlive
  /-- Takes a task away where it waits. -/
  | abort (task : Nat)
  /-- Lets a task take one step, if it need not wait. -/
  | run (task : Nat)
  /-- Sweeps the table of pending replies, if it is time. -/
  | sweep
  /-- Lets time pass, by each of the two clocks. -/
  | pass (time age : Nat)
  | network (w : Network)
  | directory (d : Directory)
  | disk (d : Disk)
  | exportPath (p : Path)
  | register (peer : String) (a : Address)
  | evict (peer : String) (a : Address)

namespace Engine

def bufferSize : Nat := 1128

/-- A reply goes to the table of pending replies, a request gets a task of its own, and the rest is
dropped. -/
def receive (n : Node) (e : Engine) (source : Address) (datagram : Bytes) : Engine :=
  match Message.ofDatagram (datagram.take bufferSize) with
  | .error _ => e
  | .ok m =>
    if m.type.isRequest then (e.spawn .service (silent (n.serve source m))).2
    else { e with replies := (e.replies.deliver source m e.ageClock).2 }

def setTask (e : Engine) (task : Nat) (t : Task) : Engine :=
  { e with tasks := e.tasks.set task t }

def endTask (e : Engine) (task : Nat) : Engine :=
  { e with tasks := e.tasks.erase task }

def finish (n : Node) (e : Engine) (task : Nat) (duty : Duty) (outcome : Outcome) :
    Engine × List Record :=
  match duty with
  | .call => (e.endTask task, [.ended task outcome])
  | .service => (e.endTask task, [])
  | .punch a => ({ e with punches := e.punches.filter (· ≠ a) }.endTask task, [])
  | .keepAlive next =>
    let after : Task :=
      ⟨.keepAlive (next + n.settings.keepAlive), none, silent (n.keepAliveRound next)⟩
    (e.setTask task after, [])

def heldTicket (before : Option Ticket) : (op : Op) → op.Answer → Option Ticket
  | .register _, t => some t
  | _, _ => before

/-- One step of a task; none if there is no such task or it has to wait. -/
def run? (n : Node) (e : Engine) (task : Nat) : Option (Engine × List Record) :=
  match e.tasks.get? task with
  | none => none
  | some t =>
    match t.program with
    | .done outcome => some (e.finish n task t.duty outcome)
    | .ask op next =>
      (e.perform n op).map fun (answer, e', records) =>
        (e'.setTask task ⟨t.duty, heldTicket t.ticket op answer, next answer⟩, records)

/-- The sweep of parked replies, which comes round at intervals. There is none without a window that
they may wait for. -/
def sweep? (n : Node) (e : Engine) : Option Engine := do
  let due ← e.nextSweep
  let window ← n.settings.retryWindow.toOption
  if due ≤ e.clock then
    some { e with
      replies := (e.replies.reap window e.ageClock).2
      nextSweep := some (due + n.settings.reapInterval) }
  else none

/-- The task's slot stays until it is swept. -/
def abort (e : Engine) (task : Nat) : Engine :=
  match e.tasks.get? task with
  | none => e
  | some t =>
    match t.ticket with
    | some ticket => { e with replies := e.replies.abandon ticket }.endTask task
    | none => e.endTask task

def step (n : Node) (e : Engine) : Event → Engine × List Record
  | .receive source datagram => (e.receive n source datagram, [])
  | .call c => ((e.spawn .call (n.run c)).2, [])
  | .keepAlive =>
    if n.settings.keepAlive = 0 then (e, [])
    else
      let duty : Duty := .keepAlive (e.clock + n.settings.keepAlive)
      ((e.spawn duty (silent (n.keepAliveRound e.clock))).2, [])
  | .abort task => (e.abort task, [])
  | .run task => (e.run? n task).getD (e, [])
  | .sweep => ((e.sweep? n).getD e, [])
  | .pass time age => ({ e with clock := e.clock + time, ageClock := e.ageClock + age }, [])
  | .network w => ({ e with network := w }, [])
  | .directory d => ({ e with directory := d }, [])
  | .disk d => ({ e with disk := d }, [])
  | .exportPath p => ({ e with published := (e.published.exportPath e.disk p).2 }, [])
  | .register peer a => ({ e with book := (e.book.register peer a).2 }, [])
  | .evict peer a => ({ e with book := (e.book.evict peer a).2 }, [])

def steps (n : Node) (e : Engine) : List Event → Engine × List Record
  | [] => (e, [])
  | event :: events =>
    let (e, records) := e.step n event
    let (e, more) := e.steps n events
    (e, records ++ more)

end Engine
end TreeShare
