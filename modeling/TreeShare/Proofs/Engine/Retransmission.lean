import TreeShare.Proofs.Engine.Exchanges
import TreeShare.Proofs.Engine.Tickets

/-! When and how often a request is sent that has its key to itself, whatever the network carries and whenever
the first reply comes. Main statement: `retransmission`. -/
namespace TreeShare

open Proc

/-! The programs that a request goes through. -/

namespace Node

variable (n : Node) (a : Address) (m : Message) (attempts : Nat)

def afterWait (left : Nat) (t : Ticket) : Wait → Proc (Except RequestError Message)
  | .reply r => (n.validate a m r).run
  | .swept => .ask (.register (a, m.id)) fun u => (n.sendUpTo a m attempts left u).run
  | .silence => (n.sendUpTo a m attempts left t).run

theorem run_sendUpTo_zero (t : Ticket) : (n.sendUpTo a m attempts 0 t).run =
    .ask (.cancel (a, m.id)) fun _ => .done (.error (.noReply a attempts)) := rfl

theorem run_sendUpTo_succ (left : Nat) (t : Ticket) : (n.sendUpTo a m attempts (left + 1) t).run =
    .ask (.transmit a m.encode) fun sent =>
      if sent then .ask .now fun now =>
        .ask (.awaitReply t (now + n.settings.replyTimeout)) (n.afterWait a m attempts left t)
      else .ask (.cancel (a, m.id)) fun _ => .done (.error .socket) := by
  refine congrArg (Proc.ask _) (funext fun sent => ?_)
  cases sent with
  | false => rfl
  | true =>
    refine congrArg (Proc.ask _) (funext fun now => ?_)
    refine congrArg (Proc.ask _) (funext fun wait => ?_)
    cases wait <;> rfl

theorem run_exchange {attempts : Nat} (h : n.settings.attempts = .ok attempts) :
    (n.exchange a m).run = .ask (.register (a, m.id)) fun t =>
      (n.sendUpTo a (n.prepare m) attempts attempts t).run := by
  have hid : (n.prepare m).id = m.id := prepare_id n m
  unfold exchange
  rw [h, ← hid]
  rfl

end Node

structure Emission where
  time : Nat
  target : Address
  datagram : Bytes
  left : Bool
deriving DecidableEq

namespace Engine

def Turn.emission? (turn : Turn) : Option Emission :=
  match turn.asked with
  | ⟨.transmit target datagram, left⟩ => some ⟨turn.engine.clock, target, datagram, left⟩
  | _ => none

def emissions (turns : List Turn) : List Emission := turns.filterMap Turn.emission?

theorem emissions_concat_none {turns : List Turn} {turn : Turn} (h : turn.emission? = none) :
    emissions (turns ++ [turn]) = emissions turns := by
  unfold emissions
  rw [List.filterMap_append, List.filterMap_cons_none h]
  exact List.append_nil _

theorem emissions_concat_transmit (turns : List Turn) (e : Engine) (target : Address)
    (datagram : Bytes) (left : Bool) :
    emissions (turns ++ [⟨e, .transmit target datagram, left⟩]) =
      emissions turns ++ [⟨e.clock, target, datagram, left⟩] :=
  List.filterMap_append

end Engine

/-- The first datagrams of a request, one at the beginning of each window. -/
def Node.sentOnTime (n : Node) (a : Address) (m : Message) (start count : Nat) : List Emission :=
  (List.range count).map fun window =>
    ⟨start + window * n.settings.replyTimeout, a, (n.prepare m).encode, true⟩

theorem Node.sentOnTime_succ (n : Node) (a : Address) (m : Message) (start count : Nat) :
    n.sentOnTime a m start (count + 1) = n.sentOnTime a m start count ++
      [⟨start + count * n.settings.replyTimeout, a, (n.prepare m).encode, true⟩] := by
  unfold sentOnTime
  rw [List.range_succ, List.map_append]
  rfl

/-! The law. -/

section

variable (n : Node) (start : Nat) (parked : Option Message) (arrived : List (Nat × Message))

/-- The first reply under the key of a request comes in a window, at a time. One that was parked when the
request began counts for the first window. -/
inductive FirstReply (r : Message) : (window time : Nat) → Prop
  | parked (here : parked = some r) : FirstReply r 0 start
  | arrived {window time : Nat} (free : parked = none) (head : arrived.head? = some (time, r))
      (opened : start + window * n.settings.replyTimeout ≤ time)
      (closed : time ≤ start + (window + 1) * n.settings.replyTimeout) : FirstReply r window time

def NoReplyBefore (time : Nat) : Prop :=
  parked = none ∧ ∀ first, arrived.head? = some first → time ≤ first.1

/-- How a request may have gone: what it sent, its result, and when it had it. -/
inductive Fared (a : Address) (m : Message) (attempts : Nat) :
    List Emission → Except RequestError Message → Nat → Prop
  /-- At the beginning of a window the datagram did not leave. -/
  | unsent {window : Nat} (budget : window < attempts)
      (quiet : window = 0 ∨
        NoReplyBefore parked arrived (start + window * n.settings.replyTimeout)) :
      Fared a m attempts (n.sentOnTime a m start window ++
          [⟨start + window * n.settings.replyTimeout, a, (n.prepare m).encode, false⟩])
        (.error .socket) (start + window * n.settings.replyTimeout)
  /-- The first reply settles the request, one way or the other. -/
  | told {window time : Nat} {r : Message} {check : List Asked} {result : Except RequestError Message}
      (budget : window < attempts) (first : FirstReply n start parked arrived r window time)
      (checked : (n.validate a (n.prepare m) r).run.After check (.done result)) :
      Fared a m attempts (n.sentOnTime a m start (window + 1)) result time
  | silent (quiet : NoReplyBefore parked arrived (start + attempts * n.settings.replyTimeout)) :
      Fared a m attempts (n.sentOnTime a m start attempts) (.error (.noReply a attempts))
        (start + attempts * n.settings.replyTimeout)

end

namespace Engine

def passed (e : Engine) (time : Nat) : Engine := { e with clock := e.clock + time }

/-- No time passes while a task can go on. -/
def Prompt (n : Node) (k : Nat) (e : Engine) : List Event → Prop
  | [] => True
  | event :: run =>
    (∀ d < event.elapsed, ((e.passed d).run? n k).isNone) ∧ Prompt n k (e.step n event).1 run

instance decidablePrompt (n : Node) (k : Nat) : (e : Engine) → (run : List Event) →
    Decidable (Prompt n k e run)
  | _, [] => isTrue trivial
  | e, event :: run =>
    haveI := decidablePrompt n k (e.step n event).1 run
    inferInstanceAs (Decidable (_ ∧ _))

/-- A task is left to itself with a key: no other task changes what is under it, no time passes while the
task can go on, and nobody takes the task away. -/
structure Undisturbed (n : Node) (e : Engine) (k : Nat) (key : ReplyKey) (run : List Event) :
    Prop where
  alone : ∀ j turn, j ≠ k → turn ∈ e.turns n j run → ¬ turn.asked.op.OnKey key
  prompt : Prompt n k e run
  kept : ∀ event ∈ run, event ≠ .abort k

/-- A request of a task, in a run that begins with it, is sent once in each window until the first reply
comes, `reemissions + 1` times at most. When it has ended, by then at the latest, nobody waits under its
key. -/
structure Retransmits (n : Node) (e : Engine) (k : Nat) (a : Address) (m : Message)
    (run : List Event) : Prop where
  fared : ∀ first rest result, e.turns n k run = first ++ rest →
    (n.exchange a m).run.After (first.map Turn.asked) (.done result) →
      (∃ last, first.getLast? = some last ∧
        Fared n e.clock (e.replies.parked? (a, m.id)) (e.arrivals n (a, m.id) run) a m
          (n.settings.reemissions.toNat + 1) (emissions first) result last.engine.clock) ∧
      (rest = [] → Clear (e.steps n run).1 (a, m.id))
  ends : e.clock + (n.settings.reemissions.toNat + 1) * n.settings.replyTimeout <
      (e.steps n run).1.clock →
    ∃ first rest result, e.turns n k run = first ++ rest ∧
      (n.exchange a m).run.After (first.map Turn.asked) (.done result)

theorem prompt_concat {n : Node} {k : Nat} {e : Engine} {run : List Event}
    {event : Event} : Prompt n k e (run ++ [event]) ↔ Prompt n k e run ∧
      ∀ d < event.elapsed, (((e.steps n run).1.passed d).run? n k).isNone := by
  induction run generalizing e with
  | nil => simp [Prompt]
  | cons first run ih =>
    rw [List.cons_append, Prompt, ih, Prompt, and_assoc, steps_cons]

theorem Undisturbed.earlier {n : Node} {e : Engine} {k : Nat} {key : ReplyKey} {run : List Event}
    {event : Event} (hcalm : Undisturbed n e k key (run ++ [event])) :
    Undisturbed n e k key run where
  alone j turn hj hturn :=
    hcalm.alone j turn hj (turns_append n j e run [event] ▸ List.mem_append_left _ hturn)
  prompt := (prompt_concat.mp hcalm.prompt).1
  kept x hx := hcalm.kept x (List.mem_append_left _ hx)

end Engine

/-! The first reply stays the first. -/

section

variable {n : Node} {start : Nat} {parked : Option Message} {arrived : List (Nat × Message)}
  {r : Message} {window time : Nat}

theorem FirstReply.later (h : FirstReply n start parked arrived r window time)
    (more : List (Nat × Message)) : FirstReply n start parked (arrived ++ more) r window time := by
  cases h with
  | parked here => exact .parked here
  | arrived free head opened closed =>
    refine .arrived free ?_ opened closed
    rw [List.head?_append, head]
    rfl

theorem FirstReply.inTime {attempts : Nat} (h : FirstReply n start parked arrived r window time)
    (budget : window < attempts) : time ≤ start + attempts * n.settings.replyTimeout := by
  cases h with
  | parked => exact Nat.le_add_right _ _
  | arrived _ _ _ closed =>
    exact Nat.le_trans closed (Nat.add_le_add_left (Nat.mul_le_mul_right _ budget) _)

theorem NoReplyBefore.later (h : NoReplyBefore parked arrived time) {clock : Nat}
    (hclock : time ≤ clock) (reply : Option Message) :
    NoReplyBefore parked (arrived ++ (reply.map (Prod.mk clock)).toList) time := by
  refine ⟨h.1, fun first hfirst => ?_⟩
  cases arrived with
  | cons earliest rest => exact h.2 first hfirst
  | nil =>
    cases reply with
    | none => contradiction
    | some r =>
      cases hfirst
      exact hclock

theorem Fared.later {a : Address} {m : Message} {attempts : Nat} {sent : List Emission}
    {result : Except RequestError Message}
    (h : Fared n start parked arrived a m attempts sent result time) {clock : Nat}
    (hclock : time ≤ clock) (reply : Option Message) :
    Fared n start parked (arrived ++ (reply.map (Prod.mk clock)).toList) a m attempts sent result
      time := by
  cases h with
  | unsent budget quiet => exact .unsent budget (quiet.imp_right fun h => h.later hclock reply)
  | told budget first checked => exact .told budget (first.later _) checked
  | silent quiet => exact .silent (quiet.later hclock reply)

end

namespace Engine

/-! Where a request stands. -/

section

variable (n : Node) (a : Address) (m : Message) (attempts start : Nat) (parked : Option Message)

/-- What a request that is not answered goes on with in a window, at a time, after what it has sent. -/
inductive InWindow (t : Ticket) (window : Nat) :
    (clock : Nat) → List Emission → Proc (Except RequestError Message) → Prop
  | sending {left : Nat} (budget : window + left = attempts) :
      InWindow t window (start + window * n.settings.replyTimeout) (n.sentOnTime a m start window)
        (n.sendUpTo a (n.prepare m) attempts left t).run
  | timing {left : Nat} (budget : window + (left + 1) = attempts) :
      InWindow t window (start + window * n.settings.replyTimeout)
        (n.sentOnTime a m start (window + 1))
        (.ask .now fun now => .ask (.awaitReply t (now + n.settings.replyTimeout))
          (n.afterWait a (n.prepare m) attempts left t))
  | waiting {left clock : Nat} (budget : window + (left + 1) = attempts)
      (opened : start + window * n.settings.replyTimeout ≤ clock)
      (closes : clock ≤ start + (window + 1) * n.settings.replyTimeout) :
      InWindow t window clock (n.sentOnTime a m start (window + 1))
        (.ask (.awaitReply t (start + (window + 1) * n.settings.replyTimeout))
          (n.afterWait a (n.prepare m) attempts left t))
  | unsent (budget : window < attempts) :
      InWindow t window (start + window * n.settings.replyTimeout)
        (n.sentOnTime a m start window ++
          [⟨start + window * n.settings.replyTimeout, a, (n.prepare m).encode, false⟩])
        (.ask (.cancel (a, m.id)) fun _ => .done (.error .socket))

/-- What the inbox of a request has to do with the replies so far. -/
def Mail (arrived : List (Nat × Message)) (window clock : Nat) : Option Message → Prop
  | none => parked = none ∧ arrived = []
  | some r => FirstReply n start parked arrived r window clock

/-- How far a request of task `k` has come after its turns and the replies so far. -/
inductive Course (k : Nat) (f : Except RequestError Message → Proc Outcome) (turns : List Turn)
    (arrived : List (Nat × Message)) (e : Engine) : Prop
  | waits {duty : Duty} {ticket : Option Ticket} {q : Proc (Except RequestError Message)} {t : Ticket}
      {window : Nat} {mail : Option Message}
      (task : e.tasks.get? k = some ⟨duty, ticket, q.bind f⟩)
      (path : (n.exchange a m).run.After (turns.map Turn.asked) q)
      (stage : InWindow n a m attempts start t window e.clock (emissions turns) q)
      (reserved : Reserved e k (a, m.id) t) (posted : e.replies.Posted (a, m.id) t mail)
      (mailed : Mail n start parked arrived window e.clock mail) : Course k f turns arrived e
  | checks {duty : Duty} {ticket : Option Ticket} {op : Op}
      {next : op.Answer → Proc (Except RequestError Message)} {window : Nat} {r : Message}
      {check : List Asked} (task : e.tasks.get? k = some ⟨duty, ticket, (Proc.ask op next).bind f⟩)
      (path : (n.exchange a m).run.After (turns.map Turn.asked) (.ask op next))
      (sent : emissions turns = n.sentOnTime a m start (window + 1)) (budget : window < attempts)
      (first : FirstReply n start parked arrived r window e.clock)
      (checking : (n.validate a (n.prepare m) r).run.After check (.ask op next))
      (clear : Clear e (a, m.id)) : Course k f turns arrived e
  | ended {before rest : List Turn} {last : Turn} {result : Except RequestError Message}
      (split : turns = before ++ [last] ++ rest)
      (path : (n.exchange a m).run.After ((before ++ [last]).map Turn.asked) (.done result))
      (fared : Fared n start parked arrived a m attempts (emissions (before ++ [last])) result
        last.engine.clock)
      (past : last.engine.clock ≤ e.clock)
      (clear : rest = [] → Clear e (a, m.id)) : Course k f turns arrived e

end

variable {n : Node} {a : Address} {m : Message} {attempts start : Nat} {parked : Option Message}
  {t : Ticket} {window clock : Nat} {sent : List Emission} {q : Proc (Except RequestError Message)}
  {mail reply : Option Message} {arrived : List (Nat × Message)}

theorem InWindow.opened (h : InWindow n a m attempts start t window clock sent q) :
    start + window * n.settings.replyTimeout ≤ clock := by
  cases h with
  | waiting _ opened => exact opened
  | _ => exact Nat.le_refl _

theorem InWindow.closes (h : InWindow n a m attempts start t window clock sent q) :
    clock ≤ start + (window + 1) * n.settings.replyTimeout := by
  cases h with
  | waiting _ _ closes => exact closes
  | _ => exact Nat.add_le_add_left (Nat.mul_le_mul_right _ (Nat.le_succ _)) _

theorem InWindow.inTime (h : InWindow n a m attempts start t window clock sent q) :
    clock ≤ start + attempts * n.settings.replyTimeout := by
  have hmono {count : Nat} (hle : count ≤ attempts) :
      start + count * n.settings.replyTimeout ≤ start + attempts * n.settings.replyTimeout :=
    Nat.add_le_add_left (Nat.mul_le_mul_right _ hle) _
  cases h with
  | sending budget => exact hmono (by omega)
  | timing budget => exact hmono (by omega)
  | waiting budget opened closes => exact Nat.le_trans closes (hmono (by omega))
  | unsent budget => exact hmono (Nat.le_of_lt budget)

theorem InWindow.asks (h : InWindow n a m attempts start t window clock sent q) :
    ∃ op next, q = .ask op next := by
  cases h with
  | @sending left => cases left <;> exact ⟨_, _, rfl⟩
  | _ => exact ⟨_, _, rfl⟩

theorem Mail.deliver (h : Mail n start parked arrived window clock mail)
    (hopened : start + window * n.settings.replyTimeout ≤ clock)
    (hclosed : clock ≤ start + (window + 1) * n.settings.replyTimeout) (reply : Option Message) :
    Mail n start parked (arrived ++ (reply.map (Prod.mk clock)).toList) window clock
      (mail.or reply) := by
  cases mail with
  | some r => exact FirstReply.later h _
  | none =>
    obtain ⟨hfree, rfl⟩ := h
    cases reply with
    | none => exact ⟨hfree, rfl⟩
    | some r => exact .arrived hfree rfl hopened hclosed

theorem Mail.quiet
    (h : Mail n start parked arrived window (start + window * n.settings.replyTimeout) mail) :
    window = 0 ∨ NoReplyBefore parked arrived (start + window * n.settings.replyTimeout) := by
  generalize htime : start + window * n.settings.replyTimeout = time at h
  cases mail with
  | none =>
    obtain ⟨hfree, rfl⟩ := h
    exact .inr ⟨hfree, nofun⟩
  | some r =>
    cases h with
    | parked => exact .inl rfl
    | arrived free head =>
      refine .inr ⟨free, fun first hfirst => ?_⟩
      cases head.symm.trans hfirst
      exact Nat.le_refl _

/-! A step of the request. -/

variable {e e' : Engine} {k : Nat} {duty : Duty} {ticket : Option Ticket} {op : Op}
  {next : op.Answer → Proc (Except RequestError Message)} {answer : op.Answer}
  {records : List Record} {f : Except RequestError Message → Proc Outcome} {turns : List Turn}

theorem step_of_answer (htask : e.tasks.get? k = some ⟨duty, ticket, (Proc.ask op next).bind f⟩)
    (hanswer : e.perform n op = some (answer, e', records)) :
    (e.step n (.run k)).1 =
      e'.setTask k ⟨duty, heldTicket ticket op answer, (next answer).bind f⟩ :=
  congrArg Prod.fst (step_run_of_answer htask hanswer)

theorem task_of_answer (htask : e.tasks.get? k = some ⟨duty, ticket, (Proc.ask op next).bind f⟩)
    (hanswer : e.perform n op = some (answer, e', records)) :
    (e.step n (.run k)).1.tasks.get? k =
      some ⟨duty, heldTicket ticket op answer, (next answer).bind f⟩ := by
  rw [step_of_answer htask hanswer, get?_setTask, if_pos rfl]

theorem path_of_answer (path : (n.exchange a m).run.After (turns.map Turn.asked) (.ask op next))
    (e : Engine) (answer : op.Answer) :
    (n.exchange a m).run.After ((turns ++ [(⟨e, op, answer⟩ : Turn)]).map Turn.asked) (next answer) := by
  rw [List.map_append]
  exact path.append (.ask (.start _))

section

variable (htask : e.tasks.get? k = some ⟨duty, ticket, (Proc.ask op next).bind f⟩)
  (path : (n.exchange a m).run.After (turns.map Turn.asked) (.ask op next))
  (hanswer : e.perform n op = some (answer, e', records))
include htask path hanswer

theorem course_of_next {window : Nat} (reserved : Reserved e k (a, m.id) t)
    (stage : InWindow n a m attempts start t window e.clock (emissions (turns ++ [⟨e, op, answer⟩]))
      (next answer))
    (posted : e'.replies.Posted (a, m.id) t mail)
    (mailed : Mail n start parked arrived window e.clock mail) :
    Course n a m attempts start parked k f (turns ++ (e.turnOf n k (.run k)).toList) arrived
      (e.step n (.run k)).1 := by
  have hclock : (e.step n (.run k)).1.clock = e.clock := clock_step n e (.run k)
  rw [← hclock] at stage mailed
  rw [turnOf_of_answer htask hanswer]
  refine .waits (task_of_answer htask hanswer) (path_of_answer path e answer) stage
    (reserved.step _ _) ?_ mailed
  rw [step_of_answer htask hanswer]
  exact posted

theorem course_of_done {result : Except RequestError Message} (hnext : next answer = .done result)
    (fared : Fared n start parked arrived a m attempts (emissions (turns ++ [⟨e, op, answer⟩])) result
      e.clock) (clear : Clear e' (a, m.id)) :
    Course n a m attempts start parked k f (turns ++ (e.turnOf n k (.run k)).toList) arrived
      (e.step n (.run k)).1 := by
  rw [turnOf_of_answer htask hanswer, step_of_answer htask hanswer]
  have hsplit : turns ++ [(⟨e, op, answer⟩ : Turn)] = turns ++ [⟨e, op, answer⟩] ++ [] :=
    (List.append_nil _).symm
  refine .ended hsplit ?_ fared ?_ fun _ => clear
  · exact hnext ▸ path_of_answer path e answer
  · exact Nat.le_of_eq (frame_perform hanswer).clock.symm

theorem course_of_check {window : Nat} {r : Message} {check : List Asked}
    (sent : emissions (turns ++ [⟨e, op, answer⟩]) = n.sentOnTime a m start (window + 1))
    (budget : window < attempts) (first : FirstReply n start parked arrived r window e.clock)
    (checking : (n.validate a (n.prepare m) r).run.After check (next answer))
    (clear : Clear e' (a, m.id)) :
    Course n a m attempts start parked k f (turns ++ (e.turnOf n k (.run k)).toList) arrived
      (e.step n (.run k)).1 := by
  cases hnext : next answer with
  | done result =>
    refine course_of_done htask path hanswer hnext ?_ clear
    rw [sent]
    exact .told budget first (hnext ▸ checking)
  | ask op' next' =>
    have hclock : (e.step n (.run k)).1.clock = e.clock := clock_step n e (.run k)
    have hpath := path_of_answer path e answer
    have hnow := task_of_answer htask hanswer
    rw [hnext] at hpath hnow checking
    rw [← hclock] at first
    rw [turnOf_of_answer htask hanswer]
    refine .checks hnow hpath sent budget first checking ?_
    rw [step_of_answer htask hanswer]
    exact clear

end

theorem clear_cancel (e : Engine) (key : ReplyKey) :
    Clear { e with replies := e.replies.cancel key } key := by
  intro u
  rw [e.replies.slot?_cancel, if_pos rfl]
  nofun

theorem course_run_of_waits (hpos : 0 < attempts) {t : Ticket} {window : Nat}
    {q : Proc (Except RequestError Message)}
    (task : e.tasks.get? k = some ⟨duty, ticket, q.bind f⟩)
    (path : (n.exchange a m).run.After (turns.map Turn.asked) q)
    (stage : InWindow n a m attempts start t window e.clock (emissions turns) q)
    (reserved : Reserved e k (a, m.id) t) (posted : e.replies.Posted (a, m.id) t mail)
    (mailed : Mail n start parked arrived window e.clock mail) :
    Course n a m attempts start parked k f (turns ++ (e.turnOf n k (.run k)).toList) arrived
      (e.step n (.run k)).1 := by
  have hwaits := Course.waits task path stage reserved posted mailed
  generalize hclock : e.clock = clock at stage mailed
  generalize hsent : emissions turns = sent at stage
  cases stage with
  | @sending left budget =>
    cases left with
    | zero =>
      obtain rfl : attempts = window := budget.symm
      rw [Node.run_sendUpTo_zero, n.prepare_id] at task path
      refine course_of_done task path (perform_cancel _ e _) rfl ?_ (clear_cancel e _)
      rw [emissions_concat_none rfl, hsent, hclock]
      exact .silent (mailed.quiet.resolve_left (Nat.ne_of_gt hpos))
    | succ left =>
      rw [Node.run_sendUpTo_succ, n.prepare_id] at task path
      obtain ⟨records, hanswer⟩ := perform_transmit n e a (n.prepare m).encode
      cases hleft : e.network.carries a (n.prepare m).encode with
      | true =>
        rw [hleft] at hanswer
        refine course_of_next task path hanswer reserved ?_ posted (hclock ▸ mailed)
        rw [emissions_concat_transmit, hsent, hclock, ← n.sentOnTime_succ]
        exact .timing budget
      | false =>
        rw [hleft] at hanswer
        refine course_of_next task path hanswer reserved ?_ posted (hclock ▸ mailed)
        rw [emissions_concat_transmit, hsent, hclock]
        exact .unsent (by omega)
  | @timing left budget =>
    have hanswer : e.perform n .now = some (e.clock, e, []) := rfl
    have hdeadline : e.clock + n.settings.replyTimeout =
        start + (window + 1) * n.settings.replyTimeout := by
      rw [hclock, Nat.succ_mul, Nat.add_assoc]
    refine course_of_next task path hanswer reserved ?_ posted (hclock ▸ mailed)
    rw [emissions_concat_none rfl, hsent, hdeadline]
    exact .waiting budget (Nat.le_of_eq hclock.symm) (hdeadline ▸ Nat.le_add_right _ _)
  | @waiting left _ budget opened closes =>
    cases mail with
    | some r =>
      have hanswer := perform_awaitReply_holding posted.2 n
        (start + (window + 1) * n.settings.replyTimeout)
      refine course_of_check task path hanswer ((emissions_concat_none rfl).trans hsent) (by omega)
        (hclock ▸ mailed) (.start _) fun u => ?_
      rw [ReplyTable.slot?_poll]
      exact posted.1 u
    | none =>
      have hanswer := perform_awaitReply_waiting posted.2 n
        (start + (window + 1) * n.settings.replyTimeout)
      by_cases hdue : start + (window + 1) * n.settings.replyTimeout ≤ e.clock
      · rw [if_pos hdue] at hanswer
        have hstage : InWindow n a m attempts start t (window + 1) e.clock (emissions (turns ++
            [⟨e, .awaitReply t (start + (window + 1) * n.settings.replyTimeout), .silence⟩]))
            (n.sendUpTo a (n.prepare m) attempts left t).run := by
          rw [emissions_concat_none rfl, hsent, Nat.le_antisymm (hclock ▸ closes) hdue]
          exact .sending (by omega)
        exact course_of_next task path hanswer reserved hstage posted mailed
      · rw [if_neg hdue] at hanswer
        have hturn : e.turnOf n k (.run k) = none := turnOf_of_waits task hanswer
        have hstep : (e.step n (.run k)).1 = e := congrArg Prod.fst (step_run_of_waits task hanswer)
        rw [hturn, hstep]
        exact (List.append_nil turns).symm ▸ hwaits
  | unsent budget =>
    refine course_of_done task path (perform_cancel _ e _) rfl ?_ (clear_cancel e _)
    rw [emissions_concat_none rfl, hsent, hclock]
    exact .unsent budget mailed.quiet

theorem lookup_of_validate {r : Message} {check : List Asked}
    (h : (n.validate a m r).run.After check (.ask op next)) : op.IsLookup :=
  (h.within (n.validate_within a m r)).2.2.asks

theorem emission?_of_lookup {op : Op} (hop : op.IsLookup) (e : Engine) (answer : op.Answer) :
    Turn.emission? ⟨e, op, answer⟩ = none := by
  cases op <;> first | exact hop.elim | rfl

theorem Course.run (h : Course n a m attempts start parked k f turns arrived e)
    (hpos : 0 < attempts) (hsound : Sound e) :
    Course n a m attempts start parked k f (turns ++ (e.turnOf n k (.run k)).toList) arrived
      (e.step n (.run k)).1 := by
  cases h with
  | waits task path stage reserved posted mailed =>
    exact course_run_of_waits hpos task path stage reserved posted mailed
  | @checks _ _ op next window r check task path sent budget first checking clear =>
    have hop := lookup_of_validate checking
    obtain ⟨answer, keyCache, hanswer⟩ := perform_lookup hop n e
    exact course_of_check task path hanswer
      ((emissions_concat_none (emission?_of_lookup hop e answer)).trans sent) budget first
      (checking.append (.ask (.start (next answer)))) clear
  | @ended before rest last result split path fared past clear =>
    have hclock : (e.step n (.run k)).1.clock = e.clock := clock_step n e (.run k)
    have hsplit : turns ++ (e.turnOf n k (.run k)).toList =
        before ++ [last] ++ (rest ++ (e.turnOf n k (.run k)).toList) := by
      rw [split, List.append_assoc]
    refine .ended hsplit path fared (hclock ▸ past) fun hrest => ?_
    obtain ⟨hnone, hturn⟩ := List.append_eq_nil_iff.mp hrest
    refine (clear hnone).step (n := n) hsound fun j turn hj => ?_
    obtain ⟨hjk, -, -⟩ := turnOf_eq_some hj
    cases hjk
    change e.turnOf n k (.run k) = _ at hj
    rw [hj] at hturn
    contradiction

/-! Other events. -/

theorem perform_of_prompt (htask : e.tasks.get? k = some ⟨duty, ticket, (Proc.ask op next).bind f⟩)
    {d : Nat} (h : ((e.passed d).run? n k).isNone) : (e.passed d).perform n op = none := by
  have htask' : (e.passed d).tasks.get? k = some ⟨duty, ticket, (Proc.ask op next).bind f⟩ := htask
  unfold run? at h
  rw [htask'] at h
  exact Option.map_eq_none_iff.mp (Option.isNone_iff_eq_none.mp h)

theorem InWindow.pass {t : Ticket} {window time : Nat} {q : Proc (Except RequestError Message)}
    (stage : InWindow n a m attempts start t window e.clock sent q)
    (task : e.tasks.get? k = some ⟨duty, ticket, q.bind f⟩)
    (posted : e.replies.Posted (a, m.id) t mail) (hpos : 0 < time)
    (hprompt : ∀ d < time, ((e.passed d).run? n k).isNone) :
    mail = none ∧ InWindow n a m attempts start t window (e.clock + time) sent q := by
  -- What never waits would have been answered before any time passed.
  have hbusy {op : Op} {next : op.Answer → Proc (Except RequestError Message)}
      (htask : e.tasks.get? k = some ⟨duty, ticket, (Proc.ask op next).bind f⟩) : Waits op := by
    by_contra hwaits
    obtain ⟨answer, e', records, hanswer⟩ := exists_perform hwaits n (e.passed 0)
    cases (perform_of_prompt htask (hprompt 0 hpos)).symm.trans hanswer
  generalize hclock : e.clock = clock at stage
  cases stage with
  | @sending left => cases left <;> exact (hbusy task).elim
  | timing => exact (hbusy task).elim
  | unsent => exact (hbusy task).elim
  | @waiting left _ budget opened closes =>
    cases mail with
    | some r =>
      have hanswer := perform_awaitReply_holding (e := e.passed 0) posted.2 n
        (start + (window + 1) * n.settings.replyTimeout)
      cases (perform_of_prompt task (hprompt 0 hpos)).symm.trans hanswer
    | none =>
      have hanswer := perform_awaitReply_waiting (e := e.passed (time - 1)) posted.2 n
        (start + (window + 1) * n.settings.replyTimeout)
      rw [perform_of_prompt task (hprompt (time - 1) (Nat.sub_lt hpos Nat.one_pos))] at hanswer
      have hearly : ¬ start + (window + 1) * n.settings.replyTimeout ≤ (e.passed (time - 1)).clock := by
        intro hdue
        rw [if_pos hdue] at hanswer
        contradiction
      change ¬ _ ≤ e.clock + (time - 1) at hearly
      exact ⟨rfl, .waiting budget (Nat.le_trans opened (Nat.le_add_right _ _)) (by omega)⟩

theorem Course.other (h : Course n a m attempts start parked k f turns arrived e)
    (hsound : Sound e) {x : Event} (hrun : x ≠ .run k) (habort : x ≠ .abort k)
    (hothers : ∀ j turn, j ≠ k → e.turnOf n j x = some turn → ¬ turn.asked.op.OnKey (a, m.id))
    (hprompt : ∀ d < x.elapsed, ((e.passed d).run? n k).isNone) :
    Course n a m attempts start parked k f turns
      (arrived ++ ((x.reply? (a, m.id)).map (Prod.mk e.clock)).toList) (e.step n x).1 := by
  have hclock : (e.step n x).1.clock = e.clock + x.elapsed := clock_step n e x
  have hkept {task : Task} (htask : e.tasks.get? k = some task) :
      (e.step n x).1.tasks.get? k = some task := by
    have hother : ¬ Touches k x := fun htouches => (eq_of_touches htouches).elim hrun habort
    exact (task_step_of_other (hsound.numbered k task htask) hother).1.trans htask
  have hclear (clear : Clear e (a, m.id)) : Clear (e.step n x).1 (a, m.id) := by
    refine clear.step hsound fun j turn hturn => hothers j turn ?_ hturn
    rintro rfl
    exact hrun (turnOf_eq_some hturn).1
  cases h with
  | waits task path stage reserved posted mailed =>
    have hposted := reserved.posted_step (n := n) posted hrun habort hothers
    rcases Nat.eq_zero_or_pos x.elapsed with hzero | hpos
    · rw [hzero, Nat.add_zero] at hclock
      refine .waits (hkept task) path (hclock ▸ stage) (reserved.step _ _) hposted ?_
      rw [hclock]
      exact mailed.deliver stage.opened stage.closes _
    · rw [Event.reply?_of_elapsed hpos, Option.or_none] at hposted
      rw [Event.reply?_of_elapsed hpos]
      obtain ⟨rfl, hstage⟩ := stage.pass task posted hpos hprompt
      exact .waits (hkept task) path (hclock ▸ hstage) (reserved.step _ _) hposted
        (by rw [Option.map_none]; exact (List.append_nil arrived).symm ▸ mailed)
  | checks task path sent budget first checking clear =>
    have hzero : x.elapsed = 0 := by
      by_contra hne
      have hwaits := perform_of_prompt task (hprompt 0 (Nat.pos_of_ne_zero hne))
      obtain ⟨answer, keyCache, hanswer⟩ :=
        perform_lookup (lookup_of_validate checking) n (e.passed 0)
      cases hwaits.symm.trans hanswer
    rw [hzero, Nat.add_zero] at hclock
    refine .checks (hkept task) path sent budget ?_ checking (hclear clear)
    rw [hclock]
    exact first.later _
  | ended split path fared past clear =>
    exact .ended split path (fared.later past _) (by omega) fun hrest => hclear (clear hrest)

/-! The whole run. -/

theorem course_begun (hsound : Sound e) (hlimit : n.settings.attempts = .ok attempts)
    (task : e.tasks.get? k = some ⟨duty, ticket, (n.exchange a m).run.bind f⟩) :
    Course n a m attempts e.clock (e.replies.parked? (a, m.id)) k f (e.turns n k [.run k])
      (e.arrivals n (a, m.id) [.run k]) (e.steps n [.run k]).1 := by
  have path : (n.exchange a m).run.After ([].map Turn.asked) (.ask (.register (a, m.id)) fun t =>
      (n.sendUpTo a (n.prepare m) attempts attempts t).run) :=
    n.run_exchange a m hlimit ▸ .start _
  rw [n.run_exchange a m hlimit] at task
  have hanswer := perform_register n e (a, m.id)
  have hturns : e.turns n k [.run k] =
      [] ++ [(⟨e, .register (a, m.id), (e.replies.register (a, m.id)).1⟩ : Turn)] := by
    rw [turns, turns, turnOf_of_answer task hanswer]
    rfl
  have hclock : (e.step n (.run k)).1.clock = e.clock + 0 * n.settings.replyTimeout := by
    rw [Nat.zero_mul]
    exact clock_step n e (.run k)
  have stage : InWindow n a m attempts e.clock (e.replies.register (a, m.id)).1 0
      (e.step n (.run k)).1.clock []
      (n.sendUpTo a (n.prepare m) attempts attempts (e.replies.register (a, m.id)).1).run := by
    rw [hclock]
    exact .sending (Nat.zero_add attempts)
  have reserved : Reserved (e.step n (.run k)).1 k (a, m.id) (e.replies.register (a, m.id)).1 := by
    rw [step_of_answer task hanswer]
    exact reserved_register hsound k (a, m.id) _
  have posted : (e.step n (.run k)).1.replies.Posted (a, m.id) (e.replies.register (a, m.id)).1
      (e.replies.parked? (a, m.id)) := by
    rw [step_of_answer task hanswer]
    exact e.replies.posted_register (a, m.id)
  have mailed : Mail n e.clock (e.replies.parked? (a, m.id)) [] 0 (e.step n (.run k)).1.clock
      (e.replies.parked? (a, m.id)) := by
    rw [hclock, Nat.zero_mul, Nat.add_zero]
    cases hparked : e.replies.parked? (a, m.id) with
    | none => exact ⟨rfl, rfl⟩
    | some r => exact .parked rfl
  rw [hturns]
  exact .waits (task_of_answer task hanswer) (path_of_answer path e _) stage reserved posted mailed

/-- How far a request has come after any run that begins with it and leaves it undisturbed. -/
theorem course_steps (hsound : Sound e) (hlimit : n.settings.attempts = .ok attempts)
    (hpos : 0 < attempts)
    (task : e.tasks.get? k = some ⟨duty, ticket, (n.exchange a m).run.bind f⟩) {later : List Event}
    (hcalm : Undisturbed n e k (a, m.id) (.run k :: later)) :
    Course n a m attempts e.clock (e.replies.parked? (a, m.id)) k f
      (e.turns n k (.run k :: later)) (e.arrivals n (a, m.id) (.run k :: later))
      (e.steps n (.run k :: later)).1 := by
  induction later using List.reverseRecOn with
  | nil => exact course_begun hsound hlimit task
  | append_singleton later x ih =>
    rw [← List.cons_append] at hcalm ⊢
    have hcourse := ih hcalm.earlier
    have hnow := hsound.steps n (.run k :: later)
    rw [turns_concat, arrivals_concat, steps_concat]
    by_cases hrun : x = .run k
    · subst hrun
      have hnext := hcourse.run hpos hnow
      rwa [show Event.reply? (a, m.id) (.run k) = none from rfl, Option.map_none, Option.toList_none,
        List.append_nil]
    · rw [turnOf_eq_none hrun, Option.toList_none, List.append_nil]
      refine hcourse.other hnow hrun (hcalm.kept x (by simp)) (fun j turn hj hanswered => ?_)
        (prompt_concat.mp hcalm.prompt).2
      apply hcalm.alone j turn hj
      rw [turns_concat, hanswered]
      simp

theorem not_done_of_path {first rest : List Turn} {result : Except RequestError Message}
    (hsplit : turns = first ++ rest)
    (hdone : (n.exchange a m).run.After (first.map Turn.asked) (.done result))
    (path : (n.exchange a m).run.After (turns.map Turn.asked) (.ask op next)) : False := by
  rw [hsplit, List.map_append] at path
  cases (hdone.ended path).2

theorem same_end {first rest before after : List Turn} {result result' : Except RequestError Message}
    (hsplit : first ++ rest = before ++ after)
    (hdone : (n.exchange a m).run.After (first.map Turn.asked) (.done result))
    (hdone' : (n.exchange a m).run.After (before.map Turn.asked) (.done result')) :
    first = before ∧ rest = after ∧ result = result' := by
  rcases List.append_eq_append_iff.mp hsplit with ⟨more, rfl, rfl⟩ | ⟨more, rfl, rfl⟩
  · rw [List.map_append] at hdone'
    obtain ⟨hnil, hresult⟩ := hdone.ended hdone'
    cases List.map_eq_nil_iff.mp hnil
    cases hresult
    exact ⟨(List.append_nil _).symm, rfl, rfl⟩
  · rw [List.map_append] at hdone
    obtain ⟨hnil, hresult⟩ := hdone'.ended hdone
    cases List.map_eq_nil_iff.mp hnil
    cases hresult
    exact ⟨List.append_nil _, rfl, rfl⟩

theorem attempts_of_fits (h : n.settings.reemissions ≠ 0xFFFFFFFF) :
    n.settings.attempts = .ok (n.settings.reemissions.toNat + 1) :=
  Settings.attempts_eq_ok_iff.mpr ⟨h, rfl⟩

/-- A request that has its key to itself is sent once at the beginning of each window, the same bytes each
time, until the first reply comes under its key: once if one was parked, and else as many times as windows
have begun by then. Without a reply it is given up after `reemissions + 1` windows, and where a datagram does
not leave it fails at once. However it ends, nobody waits under its key. -/
theorem retransmission (n : Node) (network : Network) (directory : Directory) (disk : Disk)
    (past : List Event) (hfits : n.settings.reemissions ≠ 0xFFFFFFFF)
    (hcall : ((Engine.start n network directory disk).steps n past).1.tasks.get? k =
      some ⟨duty, ticket, (n.exchange a m).run.bind f⟩) {later : List Event}
    (hcalm : Undisturbed n ((Engine.start n network directory disk).steps n past).1 k (a, m.id)
      (.run k :: later)) :
    Retransmits n ((Engine.start n network directory disk).steps n past).1 k a m (.run k :: later) := by
  have hsound := (sound_start n network directory disk).steps n past
  have hcourse := course_steps hsound (attempts_of_fits hfits) (Nat.succ_pos _) hcall hcalm
  generalize ((Engine.start n network directory disk).steps n past).1 = e at hcourse
  refine ⟨fun first rest result hsplit hdone => ?_, fun hlate => ?_⟩
  · cases hcourse with
    | waits task path stage =>
      obtain ⟨op, next, rfl⟩ := stage.asks
      exact (not_done_of_path hsplit hdone path).elim
    | checks task path => exact (not_done_of_path hsplit hdone path).elim
    | ended split path fared past clear =>
      obtain ⟨rfl, rfl, rfl⟩ := same_end (hsplit.symm.trans split) hdone path
      exact ⟨⟨_, List.getLast?_concat, fared⟩, clear⟩
  · cases hcourse with
    | waits task path stage => exact absurd stage.inTime (Nat.not_le.mpr hlate)
    | checks task path sent budget first => exact absurd (first.inTime budget) (Nat.not_le.mpr hlate)
    | ended split path => exact ⟨_, _, _, split, path⟩

theorem undisturbed_of_one {key : ReplyKey} {run : List Event} (hprompt : Prompt n k e run)
    (hrun : ∀ x ∈ run, ∀ j, (x = .run j → j = k) ∧ x ≠ .abort j) :
    Undisturbed n e k key run where
  alone j turn hj hturn := by
    rw [turns_eq_nil fun x hx hevent => hj ((hrun x hx j).1 hevent)] at hturn
    contradiction
  prompt := hprompt
  kept x hx := (hrun x hx k).2

/-- A request to which the reply comes in the second window. -/
theorem retransmission_of_late_reply :
    let a : Address := .v4 ⟨#v[10, 0, 0, 1], 1000⟩
    let m : Message := .empty 7 .root
    let reply : Message := ⟨7, .rootReply, List.replicate 32 0, none, by decide⟩
    let e := ((Engine.start .plain .ip4 PeerTable.empty.directory ⟨⟨[]⟩⟩).steps .plain
      [.call (.send a m)]).1
    let run : List Event := [.run 0, .run 0, .run 0, .pass 100 100, .run 0, .run 0, .run 0,
      .pass 30 30, .receive a reply.encode, .run 0, .run 0]
    (Node.plain.settings.reemissions ≠ 0xFFFFFFFF ∧
      e.tasks.get? 0 = some ⟨.call, none, (Node.plain.exchange a m).run.bind (.done ∘ Outcome.of .reply)⟩ ∧
      Undisturbed .plain e 0 (a, m.id) run) ∧
    emissions (e.turns .plain 0 run) = Node.plain.sentOnTime a m 0 2 ∧
      Retransmits .plain e 0 a m run := by
  intro a m reply e run
  have hfits : Node.plain.settings.reemissions ≠ 0xFFFFFFFF := by decide
  have hcall : e.tasks.get? 0 =
      some ⟨.call, none, (Node.plain.exchange a m).run.bind (.done ∘ Outcome.of .reply)⟩ := rfl
  have hcalm : Undisturbed .plain e 0 (a, m.id) run :=
    undisturbed_of_one (by decide +kernel) (by simp [run])
  have hsent : emissions (e.turns .plain 0 run) = Node.plain.sentOnTime a m 0 2 := by decide +kernel
  exact ⟨⟨hfits, hcall, hcalm⟩, hsent, retransmission .plain _ _ _ _ hfits hcall hcalm⟩

/-- With the greatest number of reemissions a request is never sent and never ends. -/
theorem not_retransmitted_of_overflow :
    let n : Node := { Node.plain with
      settings := { Node.plain.settings with reemissions := 0xFFFFFFFF } }
    let a : Address := .v4 ⟨#v[10, 0, 0, 1], 1000⟩
    let m : Message := .empty 7 .root
    let e := ((Engine.start n .ip4 PeerTable.empty.directory ⟨⟨[]⟩⟩).steps n [.call (.send a m)]).1
    let run : List Event := [.run 0, .pass (0x100000000 * 100 + 1) 0]
    e.tasks.get? 0 = some ⟨.call, none, (n.exchange a m).run.bind (.done ∘ Outcome.of .reply)⟩ ∧
      Undisturbed n e 0 (a, m.id) run ∧ ¬ Retransmits n e 0 a m run := by
  intro n a m e run
  have hcalm : Undisturbed n e 0 (a, m.id) run := by
    refine undisturbed_of_one ⟨fun d hd => absurd hd (Nat.not_lt_zero d), fun d _ => rfl, trivial⟩ ?_
    simp [run]
  refine ⟨rfl, hcalm, fun h => ?_⟩
  obtain ⟨first, rest, result, hsplit, hdone⟩ := h.ends (by decide)
  obtain ⟨rfl, -⟩ := List.append_eq_nil_iff.mp (hsplit.symm.trans rfl)
  have hhalts : (n.exchange a m).run = .ask (.halt .addition) _ := rfl
  cases hhalts.symm.trans ((Proc.After.start _).unique hdone)

end Engine
end TreeShare
