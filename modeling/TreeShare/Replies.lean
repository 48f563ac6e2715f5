import TreeShare.Table
import TreeShare.Message

/-! Replies and the callers that wait for them, matched by the address a reply comes from and its id.
Either may come first: a reply that nobody waits for is parked until it is claimed or grows too old. -/
namespace TreeShare

/-- What a caller waits on: one entry of the table `inboxes`. -/
structure Ticket where
  number : Nat
deriving DecidableEq

/-- The state of a ticket: nothing has come and its slot still stands; a message has come; the message
was taken or the slot is gone; or the caller is gone. -/
inductive Inbox where
  | waiting
  | holding (m : Message)
  | closed
  | abandoned
deriving DecidableEq

abbrev ReplyKey := Address × UInt32

inductive ReplySlot where
  | waiting (t : Ticket)
  | parked (m : Message) (since : Nat)
deriving DecidableEq

structure ReplyTable where
  slots : Table ReplyKey ReplySlot
  inboxes : Table Ticket Inbox
  issued : Nat
deriving DecidableEq

inductive Poll where
  | waiting
  | taken (m : Message)
  | closed
deriving DecidableEq

namespace ReplyTable

def empty : ReplyTable := ⟨.empty, .empty, 0⟩

def size (p : ReplyTable) : Nat := p.slots.size

def inbox (p : ReplyTable) (t : Ticket) : Inbox :=
  (p.inboxes.get? t).getD .closed

def setInbox (p : ReplyTable) (t : Ticket) (i : Inbox) : ReplyTable :=
  { p with inboxes := p.inboxes.set t i }

def close (p : ReplyTable) (t : Ticket) : ReplyTable :=
  if p.inbox t = .waiting then p.setInbox t .closed else p

/-- A fresh ticket. A parked reply is handed over at once; an earlier waiter loses its slot. -/
def register (p : ReplyTable) (key : ReplyKey) : Ticket × ReplyTable :=
  let t : Ticket := ⟨p.issued⟩
  let p := { p with issued := p.issued + 1 }
  match p.slots.get? key with
  | some (.parked m _) => (t, { p with slots := p.slots.erase key }.setInbox t (.holding m))
  | some (.waiting earlier) =>
    (t, ({ p with slots := p.slots.set key (.waiting t) }.close earlier).setInbox t .waiting)
  | none => (t, { p with slots := p.slots.set key (.waiting t) }.setInbox t .waiting)

/-- Hands a reply to its waiter, or parks it; a later reply takes the place of a parked one. Tells
whether a caller that is still there got it. -/
def deliver (p : ReplyTable) (source : Address) (m : Message) (now : Nat) :
    Bool × ReplyTable :=
  let key := (source, m.id)
  match p.slots.get? key with
  | some (.waiting t) =>
    let p := { p with slots := p.slots.erase key }
    if p.inbox t = .waiting then (true, p.setInbox t (.holding m)) else (false, p)
  | _ => (false, { p with slots := p.slots.set key (.parked m now) })

def poll (p : ReplyTable) (t : Ticket) : Poll × ReplyTable :=
  match p.inbox t with
  | .waiting => (.waiting, p)
  | .holding m => (.taken m, p.setInbox t .closed)
  | .closed | .abandoned => (.closed, p)

def abandon (p : ReplyTable) (t : Ticket) : ReplyTable :=
  p.setInbox t .abandoned

def cancel (p : ReplyTable) (key : ReplyKey) : ReplyTable :=
  let erased := { p with slots := p.slots.erase key }
  match p.slots.get? key with
  | some (.waiting t) => erased.close t
  | _ => erased

/-- Whether a sweep leaves a slot alone: its caller is still there, or its reply is younger than
`maxAge`. -/
def survives (p : ReplyTable) (maxAge now : Nat) : ReplySlot → Bool
  | .waiting t => p.inbox t = .waiting
  | .parked _ since => now - since < maxAge

def reap (p : ReplyTable) (maxAge now : Nat) : Nat × ReplyTable :=
  let kept : Table ReplyKey ReplySlot :=
    ⟨p.slots.rows.filter fun r => p.survives maxAge now r.2⟩
  (p.size - kept.size, { p with slots := kept })

end ReplyTable
end TreeShare
