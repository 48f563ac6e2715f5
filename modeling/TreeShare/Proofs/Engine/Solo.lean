import TreeShare.Proofs.Engine.Checks
import TreeShare.Proofs.Engine.Runs

/-! A request to one address as if it had the engine to itself: what it does by itself, and what
deliveries, sweeps and time do to it. No other caller occurs here. -/
namespace TreeShare

open Proc

/-! The programs that a request goes through. -/

namespace Node

def settle (p : Attempt Message) : Proc Outcome :=
  p.run.bind fun r => .done (.of .reply r)

def verdict (r : Message) : Except SignatureError Unit → Outcome
  | .ok () => .reply r
  | .error cause => .failed (.signature cause)

theorem settle_validate_of_ok {sent r : Message} (h : checkReply sent r = .ok ()) (n : Node)
    (a : Address) :
    settle (n.validate a sent r) = (n.checkSender a r).bind fun v => .done (verdict r v) := by
  unfold settle
  rw [run_validate_of_ok h, bind_bind]
  refine congrArg (n.checkSender a r).bind (funext fun v => ?_)
  cases v <;> rfl

theorem settle_validate_of_error {sent r : Message} {cause : RequestError}
    (h : checkReply sent r = .error cause) (n : Node) (a : Address) :
    settle (n.validate a sent r) = .done (.failed cause) := by
  unfold settle validate
  rw [h]
  rfl

theorem settle_validate_within (n : Node) (a : Address) (sent r : Message) :
    (settle (n.validate a sent r)).Within Op.IsLookup 4 := by
  cases hcheck : checkReply sent r with
  | error cause =>
    rw [settle_validate_of_error hcheck]
    exact trivial
  | ok =>
    rw [settle_validate_of_ok hcheck]
    exact (checkSender_within n a r).bind (l := 0) fun _ => trivial

variable (n : Node) (a : Address) (m : Message) (attempts : Nat)

def awaiting (left : Nat) (t : Ticket) (deadline : Nat) : Proc Outcome :=
  .ask (.awaitReply t deadline) fun wait =>
    match wait with
    | .reply r => settle (n.validate a m r)
    | .swept => .ask (.register (a, m.id)) fun t => settle (n.sendUpTo a m attempts left t)
    | .silence => settle (n.sendUpTo a m attempts left t)

def timing (left : Nat) (t : Ticket) : Proc Outcome :=
  .ask .now fun start => n.awaiting a m attempts left t (start + n.settings.replyTimeout)

def unsent (a : Address) (m : Message) : Proc Outcome :=
  .ask (.cancel (a, m.id)) fun _ => .done (.failed .socket)

theorem sending_zero (t : Ticket) : settle (n.sendUpTo a m attempts 0 t) =
    .ask (.cancel (a, m.id)) fun _ => .done (.failed (.noReply a attempts)) := rfl

theorem sending_succ (left : Nat) (t : Ticket) : settle (n.sendUpTo a m attempts (left + 1) t) =
    .ask (.transmit a m.encode) fun sent =>
      if sent then n.timing a m attempts left t else unsent a m := by
  refine congrArg (Proc.ask _) (funext fun sent => ?_)
  cases sent with
  | false => rfl
  | true =>
    refine congrArg (Proc.ask _) (funext fun start => ?_)
    refine congrArg (Proc.ask _) (funext fun wait => ?_)
    cases wait <;> rfl

theorem run_send_of_attempts (h : n.settings.attempts = .ok attempts) :
    n.run (.send a m) = .ask (.register (a, m.id)) fun t =>
      settle (n.sendUpTo a (n.prepare m) attempts attempts t) := by
  have hexchange : n.run (.send a m) = settle (n.exchange a m) := rfl
  have hid : (n.prepare m).id = m.id := prepare_id n m
  rw [hexchange]
  unfold exchange
  rw [h, ← hid]
  rfl

theorem run_send_of_overflow {cause : Overflow} (h : n.settings.attempts = .error cause) :
    ∃ next, n.run (.send a m) = .ask (.halt cause) next := by
  have hexchange : n.run (.send a m) = settle (n.exchange a m) := rfl
  rw [hexchange]
  unfold exchange
  rw [h]
  exact ⟨_, rfl⟩

theorem run_send_ne_done (o : Outcome) : n.run (.send a m) ≠ .done o := by
  cases hlimit : n.settings.attempts with
  | ok attempts =>
    rw [run_send_of_attempts n a m attempts hlimit]
    nofun
  | error cause =>
    obtain ⟨next, hprogram⟩ := run_send_of_overflow n a m hlimit
    rw [hprogram]
    nofun

end Node

/-- Where a registered request stands in its loop. -/
inductive Stage where
  /-- About to send, with `left` times to go, or to give up. -/
  | sending (left : Nat)
  | timing (left : Nat)
  | waiting (left deadline : Nat)
  | unsent
deriving DecidableEq

def Stage.program (n : Node) (a : Address) (m : Message) (attempts : Nat) (t : Ticket) :
    Stage → Proc Outcome
  | sending left => Node.settle (n.sendUpTo a m attempts left t)
  | timing left => n.timing a m attempts left t
  | waiting left deadline => n.awaiting a m attempts left t deadline
  | unsent => Node.unsent a m

theorem Stage.program_sending_zero (n : Node) (a : Address) (m : Message) (attempts : Nat)
    (t : Ticket) : (Stage.sending 0).program n a (n.prepare m) attempts t =
      .ask (.cancel (a, m.id)) fun _ => .done (.failed (.noReply a attempts)) := by
  rw [Stage.program, Node.sending_zero, Node.prepare_id]

theorem Stage.program_sending_succ (n : Node) (a : Address) (m : Message) (attempts more : Nat)
    (t : Ticket) : (Stage.sending (more + 1)).program n a m attempts t =
      .ask (.transmit a m.encode) fun sent =>
        if sent then (Stage.timing more).program n a m attempts t
        else Stage.unsent.program n a m attempts t :=
  Node.sending_succ n a m attempts more t

theorem Stage.program_unsent (n : Node) (a : Address) (m : Message) (attempts : Nat) (t : Ticket) :
    Stage.unsent.program n a (n.prepare m) attempts t =
      .ask (.cancel (a, m.id)) fun _ => .done (.failed .socket) := by
  rw [Stage.program, Node.unsent, Node.prepare_id]

theorem Stage.program_ne_done (stage : Stage) (n : Node) (a : Address) (m : Message) (attempts : Nat)
    (t : Ticket) (o : Outcome) : stage.program n a (n.prepare m) attempts t ≠ .done o := by
  rcases stage with (_ | more) | more | ⟨more, deadline⟩ | _
  · rw [program_sending_zero]
    nofun
  · rw [program_sending_succ]
    nofun
  · nofun
  · nofun
  · nofun

/-- How many questions a request has before it waits for its reply; none if it is about to leave the
table. -/
def Stage.questionsToWait? : Stage → Option Nat
  | sending (_ + 1) => some 2
  | timing _ => some 1
  | waiting .. => some 0
  | sending 0 | unsent => none

theorem Stage.questionsToWait?_of_transmit {stage : Stage} {n : Node} {a : Address} {m : Message}
    {attempts : Nat} {t : Ticket} {target : Address} {datagram : Bytes} {next : Bool → Proc Outcome}
    (h : stage.program n a (n.prepare m) attempts t = .ask (.transmit target datagram) next) :
    stage.questionsToWait? = some 2 := by
  rcases stage with (_ | more) | more | ⟨more, deadline⟩ | _
  · rw [program_sending_zero] at h
    cases h
  · rfl
  · cases h
  · cases h
  · rw [program_unsent] at h
    cases h

inductive Leave where
  | noReply
  | unsent
  | told (r : Message)
deriving DecidableEq

/-- What a request has come to. A reply that is parked under its key before it registers is claimed when
it does; once registered it has at most one reply in its inbox. -/
inductive Line where
  | absent (parked : Option (Message × Nat))
  | fresh (parked : Option (Message × Nat))
  | registered (stage : Stage) (mail : Option Message)
  | left (how : Leave)
deriving DecidableEq

inductive Act where
  | sends (target : Address) (datagram : Bytes) (left : Bool)
  | validates (r : Message)
deriving DecidableEq

namespace Line

def begin : Line → Line
  | absent parked => fresh parked
  | l => l

/-- A reply under its key comes: the first is kept for it, and so is the last before it registers. -/
def deliver (r : Message) (now : Nat) : Line → Line
  | absent _ => absent (some (r, now))
  | fresh _ => fresh (some (r, now))
  | registered stage none => registered stage (some r)
  | l => l

def young (window now : Nat) (parked : Option (Message × Nat)) : Option (Message × Nat) :=
  parked.filter fun p => now - p.2 < window

def sweep (window now : Nat) : Line → Line
  | absent parked => absent (young window now parked)
  | fresh parked => fresh (young window now parked)
  | l => l

def run (n : Node) (w : Network) (a : Address) (m : Message) (clock : Nat) : Line → Line
  | fresh parked =>
    match n.settings.attempts with
    | .ok attempts => registered (.sending attempts) (parked.map Prod.fst)
    | .error _ => fresh parked
  | registered (.sending 0) _ => left .noReply
  | registered (.sending (more + 1)) mail =>
    if w.carries a (n.prepare m).encode then registered (.timing more) mail
    else registered .unsent mail
  | registered (.timing more) mail =>
    registered (.waiting more (clock + n.settings.replyTimeout)) mail
  | registered (.waiting _ _) (some r) => left (.told r)
  | registered (.waiting more deadline) none =>
    if deadline ≤ clock then registered (.sending more) none
    else registered (.waiting more deadline) none
  | registered .unsent _ => left .unsent
  | l => l

inductive Ran (n : Node) (clock : Nat) : Line → Line → Prop
  | rest (l : Line) : Ran n clock l l
  | register {attempts : Nat} (limit : n.settings.attempts = .ok attempts)
      (parked : Option (Message × Nat)) :
      Ran n clock (fresh parked) (registered (.sending attempts) (parked.map Prod.fst))
  | giveUp (mail : Option Message) : Ran n clock (registered (.sending 0) mail) (left .noReply)
  | send (more : Nat) (mail : Option Message) :
      Ran n clock (registered (.sending (more + 1)) mail) (registered (.timing more) mail)
  | fail (more : Nat) (mail : Option Message) :
      Ran n clock (registered (.sending (more + 1)) mail) (registered .unsent mail)
  | time (more : Nat) (mail : Option Message) : Ran n clock (registered (.timing more) mail)
      (registered (.waiting more (clock + n.settings.replyTimeout)) mail)
  | tell (more deadline : Nat) (r : Message) :
      Ran n clock (registered (.waiting more deadline) (some r)) (left (.told r))
  | silence {deadline : Nat} (due : deadline ≤ clock) (more : Nat) :
      Ran n clock (registered (.waiting more deadline) none) (registered (.sending more) none)
  | leave (mail : Option Message) : Ran n clock (registered .unsent mail) (left .unsent)

theorem ran_run (n : Node) (w : Network) (a : Address) (m : Message) (clock : Nat) (l : Line) :
    Ran n clock l (l.run n w a m clock) := by
  cases l with
  | absent => exact .rest _
  | left => exact .rest _
  | fresh parked =>
    unfold run
    dsimp only
    split
    · exact .register ‹_› parked
    · exact .rest _
  | registered stage mail =>
    rcases stage with (_ | more) | more | ⟨more, deadline⟩ | _
    · exact .giveUp mail
    · unfold run
      dsimp only
      split
      · exact .send more mail
      · exact .fail more mail
    · exact .time more mail
    · cases mail with
      | some r => exact .tell more deadline r
      | none =>
        unfold run
        dsimp only
        split
        · exact .silence ‹_› more
        · exact .rest _
    · exact .leave mail

def Begun : Line → Prop
  | registered .. | left _ => True
  | absent _ | fresh _ => False

theorem begun_begin (l : Line) : l.begin.Begun ↔ l.Begun := by
  cases l <;> rfl

theorem begun_deliver (l : Line) (r : Message) (now : Nat) : (l.deliver r now).Begun ↔ l.Begun := by
  cases l with
  | registered _ mail => cases mail <;> rfl
  | _ => rfl

theorem begun_sweep (l : Line) (window now : Nat) : (l.sweep window now).Begun ↔ l.Begun := by
  cases l <;> rfl

theorem Begun.run {l : Line} (h : l.Begun) (n : Node) (w : Network) (a : Address) (m : Message)
    (clock : Nat) : (l.run n w a m clock).Begun := by
  have hran := ran_run n w a m clock l
  generalize l.run n w a m clock = after at hran
  cases hran with
  | rest => exact h
  | _ => trivial

def act (n : Node) (w : Network) (a : Address) (m : Message) : Line → Option Act
  | registered (.sending (_ + 1)) _ =>
    some (.sends a (n.prepare m).encode (w.carries a (n.prepare m).encode))
  | registered (.waiting _ _) (some r) => some (.validates r)
  | _ => none

end Line

/-- A request, the clocks, the time of the next sweep, the network and the number of calls so far. -/
structure Solo where
  clock : Nat
  ageClock : Nat
  nextSweep : Option Nat
  network : Network
  called : Nat
  line : Line

namespace Solo

variable (n : Node) (k : Nat) (a : Address) (m : Message)

def due? (s : Solo) : Option (Nat × Nat) := do
  let due ← s.nextSweep
  let window ← n.settings.retryWindow.toOption
  if due ≤ s.clock then some (due, window) else none

/-- What an event means for call number `k`, a request `m` to `a`. -/
def step (s : Solo) : Event → Solo
  | .call _ => { s with
      called := s.called + 1
      line := if s.called = k then s.line.begin else s.line }
  | .run j => if j = k then { s with line := s.line.run n s.network a m s.clock } else s
  | .receive source datagram =>
    match Message.ofDatagram (datagram.take Engine.bufferSize) with
    | .error _ => s
    | .ok r =>
      if (source, r.id) = (a, m.id) then { s with line := s.line.deliver r s.ageClock } else s
  | .sweep =>
    match s.due? n with
    | none => s
    | some (due, window) => { s with
        line := s.line.sweep window s.ageClock
        nextSweep := some (due + n.settings.reapInterval) }
  | .pass time age => { s with clock := s.clock + time, ageClock := s.ageClock + age }
  | .network w => { s with network := w }
  | _ => s

def steps (s : Solo) (events : List Event) : Solo :=
  events.foldl (step n k a m) s

def actOf (s : Solo) : Event → Option (Nat × Act)
  | .run j => if j = k then (s.line.act n s.network a m).map (Prod.mk s.clock) else none
  | _ => none

def acts (s : Solo) : List Event → List (Nat × Act)
  | [] => []
  | event :: events => (s.actOf n k a m event).toList ++ acts (s.step n k a m event) events

inductive Touched (s : Solo) : Event → Line → Prop
  | rest (event : Event) : Touched s event s.line
  | begin (c : Call) : Touched s (.call c) s.line.begin
  | run : Touched s (.run k) (s.line.run n s.network a m s.clock)
  | deliver {source : Address} {datagram : Bytes} {r : Message}
      (decoded : Message.ofDatagram (datagram.take Engine.bufferSize) = .ok r)
      (key : (source, r.id) = (a, m.id)) :
      Touched s (.receive source datagram) (s.line.deliver r s.ageClock)
  | sweep (window : Nat) : Touched s .sweep (s.line.sweep window s.ageClock)

theorem touched_step (s : Solo) (event : Event) :
    s.Touched n k a m event (s.step n k a m event).line := by
  cases event with
  | call c =>
    unfold step
    dsimp only
    split
    · exact .begin c
    · exact .rest _
  | run j =>
    unfold step
    dsimp only
    split
    · rename_i hj
      cases hj
      exact .run
    · exact .rest _
  | receive source datagram =>
    unfold step
    dsimp only
    split
    · exact .rest _
    · rename_i r hr
      split
      · exact .deliver hr ‹_›
      · exact .rest _
  | sweep =>
    unfold step
    dsimp only
    split
    · exact .rest _
    · exact .sweep _
  | _ => exact .rest _

theorem clock_step_le (s : Solo) (event : Event) : s.clock ≤ (s.step n k a m event).clock := by
  cases event with
  | pass time => exact Nat.le_add_right _ time
  | receive =>
    unfold step
    dsimp only
    split
    · exact Nat.le_refl _
    · split <;> exact Nat.le_refl _
  | run =>
    unfold step
    dsimp only
    split <;> exact Nat.le_refl _
  | sweep =>
    unfold step
    dsimp only
    split <;> exact Nat.le_refl _
  | _ => exact Nat.le_refl _

variable {n} {k} {a} {m} {s : Solo}

theorem begun_step (h : s.line.Begun) (event : Event) :
    (s.step n k a m event).line.Begun := by
  have htouched := touched_step n k a m s event
  generalize (s.step n k a m event).line = l at htouched
  cases htouched with
  | rest => exact h
  | begin => exact s.line.begun_begin.mpr h
  | run => exact h.run ..
  | deliver => exact (s.line.begun_deliver _ _).mpr h
  | sweep => exact (s.line.begun_sweep _ _).mpr h

theorem begun_steps (h : s.line.Begun) (events : List Event) :
    (s.steps n k a m events).line.Begun := by
  induction events generalizing s with
  | nil => exact h
  | cons event events ih => exact ih (begun_step h event)

end Solo
end TreeShare
