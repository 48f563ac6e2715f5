import TreeShare.Engine
import TreeShare.Proofs.Engine.Dialogue

/-! Runs of an engine: what each event leaves alone, and the turns that a task has in a run. Main statement:
`fate`, what has become of a task after any events. -/
namespace TreeShare.Engine

variable {n : Node} {e e' : Engine}

@[simp] theorem steps_nil (n : Node) (e : Engine) : e.steps n [] = (e, []) := rfl

@[simp] theorem steps_cons (n : Node) (e : Engine) (event : Event) (events : List Event) :
    e.steps n (event :: events) =
      (((e.step n event).1.steps n events).1,
        (e.step n event).2 ++ ((e.step n event).1.steps n events).2) := rfl

theorem steps_append (n : Node) (e : Engine) (a b : List Event) :
    e.steps n (a ++ b) =
      (((e.steps n a).1.steps n b).1, (e.steps n a).2 ++ ((e.steps n a).1.steps n b).2) := by
  induction a generalizing e with
  | nil => rfl
  | cons event a ih => simp only [List.cons_append, steps_cons, ih, List.append_assoc]

/-- What every event keeps holds after any events. -/
theorem steps_invariant {I : Engine → Prop} {legal : Event → Prop}
    (hstep : ∀ e event, legal event → I e → I (e.step n event).1) (he : I e) {events : List Event}
    (hlegal : ∀ event ∈ events, legal event) : I (e.steps n events).1 := by
  induction events generalizing e with
  | nil => exact he
  | cons event events ih =>
    exact ih (hstep e event (hlegal event (by simp)) he) fun x hx => hlegal x (by simp [hx])

/-! Answers to questions. -/

/-- What an answer to a question does not touch. -/
structure Frame (e e' : Engine) : Prop where
  clock : e'.clock = e.clock
  ageClock : e'.ageClock = e.ageClock
  nextSweep : e'.nextSweep = e.nextSweep
  published : e'.published = e.published
  network : e'.network = e.network
  directory : e'.directory = e.directory
  disk : e'.disk = e.disk
  nextTask : e.nextTask ≤ e'.nextTask
  tasks : ∀ k, k < e.nextTask → e'.tasks.get? k = e.tasks.get? k

theorem Frame.refl (e : Engine) : Frame e e :=
  ⟨rfl, rfl, rfl, rfl, rfl, rfl, rfl, Nat.le_refl _, fun _ _ => rfl⟩

theorem frame_spawn (e : Engine) (duty : Duty) (program : Proc Outcome) :
    Frame e (e.spawn duty program).2 := by
  refine ⟨rfl, rfl, rfl, rfl, rfl, rfl, rfl, Nat.le_succ _, fun k hk => ?_⟩
  unfold spawn
  rw [Table.get?_set, if_neg (by omega)]

theorem get?_spawn (e : Engine) (duty : Duty) (program : Proc Outcome) :
    (e.spawn duty program).2.tasks.get? e.nextTask = some ⟨duty, none, program⟩ := by
  unfold spawn
  rw [Table.get?_set, if_pos rfl]

theorem frame_beginPunch (n : Node) (e : Engine) (a : Address) : Frame e (e.beginPunch n a) := by
  unfold beginPunch
  split
  · exact .refl e
  · have h := frame_spawn { e with punches := a :: e.punches } (.punch a) (silent (n.punch a))
    exact ⟨h.clock, h.ageClock, h.nextSweep, h.published, h.network, h.directory, h.disk, h.nextTask,
      h.tasks⟩

/-- What an answer leaves behind, whatever it says. -/
def afterOp (n : Node) (e : Engine) : Op → Engine
  | .drawId => { e with drawn := e.drawn + 1 }
  | .register key => { e with replies := (e.replies.register key).2 }
  | .cancel key => { e with replies := e.replies.cancel key }
  | .awaitReply t _ => { e with replies := (e.replies.poll t).2 }
  | .registerPeer peer a => { e with book := (e.book.register peer a).2 }
  | .evictPeer peer a => { e with book := (e.book.evict peer a).2 }
  | .rememberKey peer key => { e with keyCache := e.keyCache.insert peer key }
  | .beginPunch a => e.beginPunch n a
  | _ => e

theorem poll_of_checkWait {t : Ticket} {deadline : Nat} {w : Wait} {p : ReplyTable}
    (h : e.checkWait t deadline = some (w, p)) :
    p = (e.replies.poll t).2 ∧ ∀ m, w = .reply m → e.replies.inbox t = .holding m := by
  unfold checkWait ReplyTable.poll at h
  unfold ReplyTable.poll
  cases hinbox : e.replies.inbox t with
  | waiting =>
    simp only [hinbox] at h
    split at h <;> cases h
    exact ⟨rfl, nofun⟩
  | holding r =>
    simp only [hinbox] at h
    cases h
    refine ⟨rfl, fun m hm => ?_⟩
    cases hm
    rfl
  | closed | abandoned =>
    simp only [hinbox] at h
    cases h
    exact ⟨rfl, nofun⟩

theorem eq_afterOp_of_perform {op : Op} {answer : op.Answer} {records : List Record}
    (h : e.perform n op = some (answer, e', records)) : e' = e.afterOp n op := by
  cases op with
  | transmit target datagram =>
    unfold perform at h
    dsimp only at h
    split at h <;> (cases h; rfl)
  | awaitReply t deadline =>
    obtain ⟨⟨w, p⟩, hwait, hx⟩ := Option.map_eq_some_iff.mp h
    cases hx
    obtain ⟨rfl, -⟩ := poll_of_checkWait hwait
    rfl
  | awaitTime due =>
    unfold perform at h
    dsimp only at h
    split at h <;> cases h
    rfl
  | halt cause => cases h
  | _ =>
    cases h
    rfl

theorem frame_perform {op : Op} {answer : op.Answer} {records : List Record}
    (h : e.perform n op = some (answer, e', records)) : Frame e e' := by
  obtain rfl := eq_afterOp_of_perform h
  cases op with
  | beginPunch a => exact frame_beginPunch n e a
  | _ => exact ⟨rfl, rfl, rfl, rfl, rfl, rfl, rfl, Nat.le_refl _, fun _ _ => rfl⟩

theorem records_perform {op : Op} {answer : op.Answer} {records : List Record}
    (h : e.perform n op = some (answer, e', records)) (k : Nat) (o : Outcome) :
    .ended k o ∉ records := by
  cases op <;> simp only [perform, Option.some.injEq, Prod.mk.injEq, reduceCtorEq] at h
  case transmit => split at h <;> (cases h; simp)
  case awaitReply =>
    obtain ⟨x, -, hx⟩ := Option.map_eq_some_iff.mp h
    cases hx
    simp
  case awaitTime => split at h <;> cases h; simp
  all_goals
    obtain ⟨-, -, rfl⟩ := h
    simp

theorem perform_register (n : Node) (e : Engine) (key : ReplyKey) :
    e.perform n (.register key) = some ((e.replies.register key).1,
      { e with replies := (e.replies.register key).2 }, []) := rfl

theorem perform_cancel (n : Node) (e : Engine) (key : ReplyKey) :
    e.perform n (.cancel key) = some ((), { e with replies := e.replies.cancel key }, []) := rfl

theorem perform_transmit (n : Node) (e : Engine) (target : Address) (datagram : Bytes) :
    ∃ records, e.perform n (.transmit target datagram) =
      some (e.network.carries target datagram, e, records) := by
  unfold perform
  dsimp only
  cases e.network.carries target datagram <;> exact ⟨_, rfl⟩

theorem perform_awaitReply_holding {t : Ticket} {r : Message} (h : e.replies.inbox t = .holding r)
    (n : Node) (deadline : Nat) :
    e.perform n (.awaitReply t deadline) =
      some (.reply r, { e with replies := (e.replies.poll t).2 }, []) := by
  simp [perform, checkWait, ReplyTable.poll, h]

theorem perform_awaitReply_waiting {t : Ticket} (h : e.replies.inbox t = .waiting) (n : Node)
    (deadline : Nat) :
    e.perform n (.awaitReply t deadline) =
      if deadline ≤ e.clock then some (.silence, e, []) else none := by
  simp only [perform, checkWait, ReplyTable.poll, h]
  split <;> rfl

theorem perform_awaitReply_closed {t : Ticket} (h : e.replies.inbox t = .closed) (n : Node)
    (deadline : Nat) : e.perform n (.awaitReply t deadline) = some (.swept, e, []) := by
  simp [perform, checkWait, ReplyTable.poll, h]

/-! Turns of a task. -/

def asked? (n : Node) (e : Engine) (task : Nat) : Option Asked :=
  (e.tasks.get? task).bind fun t =>
    match t.program with
    | .done _ => none
    | .ask op _ => (e.perform n op).map fun x => ⟨op, x.1⟩

structure Turn where
  engine : Engine
  asked : Asked

def turnOf (n : Node) (task : Nat) (e : Engine) : Event → Option Turn
  | .run k => if k = task then (e.asked? n task).map (Turn.mk e) else none
  | _ => none

def turns (n : Node) (task : Nat) (e : Engine) : List Event → List Turn
  | [] => []
  | event :: events => (e.turnOf n task event).toList ++ turns n task (e.step n event).1 events

def dialogue (n : Node) (task : Nat) (e : Engine) (events : List Event) : List Asked :=
  (e.turns n task events).map Turn.asked

theorem dialogue_cons (n : Node) (task : Nat) (e : Engine) (event : Event) (events : List Event) :
    e.dialogue n task (event :: events) =
      ((e.turnOf n task event).map Turn.asked).toList ++
        (e.step n event).1.dialogue n task events := by
  unfold dialogue
  rw [turns, List.map_append]
  cases e.turnOf n task event <;> rfl

theorem turnOf_eq_some {task : Nat} {event : Event} {turn : Turn}
    (h : e.turnOf n task event = some turn) :
    event = .run task ∧ turn.engine = e ∧ e.asked? n task = some turn.asked := by
  unfold turnOf at h
  split at h
  · split at h
    · rename_i hk
      obtain ⟨asked, hasked, rfl⟩ := Option.map_eq_some_iff.mp h
      exact ⟨congrArg Event.run hk, rfl, hasked⟩
    · contradiction
  · contradiction

theorem turns_append (n : Node) (task : Nat) (e : Engine) (a b : List Event) :
    e.turns n task (a ++ b) = e.turns n task a ++ (e.steps n a).1.turns n task b := by
  induction a generalizing e with
  | nil => rfl
  | cons event a ih => simp only [List.cons_append, turns, steps_cons, ih, List.append_assoc]

theorem dialogue_append (n : Node) (task : Nat) (e : Engine) (a b : List Event) :
    e.dialogue n task (a ++ b) = e.dialogue n task a ++ (e.steps n a).1.dialogue n task b := by
  unfold dialogue
  rw [turns_append, List.map_append]

/-- Each answer in a dialogue was given at one moment of the run, after those before it. -/
theorem exists_of_dialogue_eq {task : Nat} {asked : Asked} {before after : List Asked}
    {events : List Event} (h : e.dialogue n task events = before ++ asked :: after) :
    ∃ past later, events = past ++ .run task :: later ∧ e.dialogue n task past = before ∧
      (e.steps n past).1.asked? n task = some asked := by
  induction events generalizing e before with
  | nil => simp [dialogue, turns] at h
  | cons event events ih =>
    rw [dialogue_cons] at h
    cases hturn : e.turnOf n task event with
    | none =>
      rw [hturn] at h
      obtain ⟨past, later, rfl, hbefore, hasked⟩ := ih h
      refine ⟨event :: past, later, rfl, ?_, hasked⟩
      rw [dialogue_cons, hturn]
      exact hbefore
    | some turn =>
      rw [hturn] at h
      cases before with
      | nil =>
        obtain rfl : turn.asked = asked := (List.cons.inj h).1
        obtain ⟨rfl, -, hasked⟩ := turnOf_eq_some hturn
        exact ⟨[], events, rfl, rfl, hasked⟩
      | cons first before =>
        obtain ⟨rfl, hrest⟩ := List.cons.inj h
        obtain ⟨past, later, rfl, hbefore, hasked⟩ := ih hrest
        refine ⟨event :: past, later, rfl, ?_, hasked⟩
        rw [dialogue_cons, hturn, hbefore]
        rfl

theorem exists_of_mem_turns {task : Nat} {turn : Turn} {events : List Event}
    (h : turn ∈ e.turns n task events) :
    ∃ before after, events = before ++ .run task :: after ∧
      turn.engine = (e.steps n before).1 ∧ turn.engine.asked? n task = some turn.asked := by
  induction events generalizing e with
  | nil => simp [turns] at h
  | cons event events ih =>
    rcases List.mem_append.mp h with h | h
    · obtain ⟨rfl, hengine, hasked⟩ := turnOf_eq_some (Option.mem_toList.mp h)
      exact ⟨[], events, rfl, hengine, hengine ▸ hasked⟩
    · obtain ⟨before, after, rfl, hengine, hasked⟩ := ih h
      exact ⟨event :: before, after, rfl, hengine, hasked⟩

theorem asked?_eq_some_iff {task : Nat} {asked : Asked} :
    e.asked? n task = some asked ↔
      ∃ duty ticket next, e.tasks.get? task = some ⟨duty, ticket, .ask asked.op next⟩ ∧
        ∃ e' records, e.perform n asked.op = some (asked.answer, e', records) := by
  unfold asked?
  rw [Option.bind_eq_some_iff]
  constructor
  · rintro ⟨⟨duty, ticket, program⟩, ht, h⟩
    cases program with
    | done o => simp at h
    | ask op next =>
      obtain ⟨⟨answer, e', records⟩, hperform, rfl⟩ := Option.map_eq_some_iff.mp h
      exact ⟨duty, ticket, next, ht, e', records, hperform⟩
  · rintro ⟨duty, ticket, next, ht, e', records, hperform⟩
    exact ⟨_, ht, by simp [hperform]⟩

theorem asked?_of_perform {k : Nat} {duty : Duty} {ticket : Option Ticket} {op : Op}
    {next : op.Answer → Proc Outcome} (htask : e.tasks.get? k = some ⟨duty, ticket, .ask op next⟩)
    {answer : op.Answer} {records : List Record}
    (hanswer : e.perform n op = some (answer, e', records)) : e.asked? n k = some ⟨op, answer⟩ :=
  asked?_eq_some_iff.mpr ⟨duty, ticket, next, htask, e', records, hanswer⟩

theorem carries_of_asked {k : Nat} {target : Address} {datagram : Bytes} {sent : Bool}
    (h : e.asked? n k = some ⟨.transmit target datagram, sent⟩) :
    sent = e.network.carries target datagram := by
  obtain ⟨_, _, _, -, e', records, hanswer⟩ := asked?_eq_some_iff.mp h
  obtain ⟨records', hcarried⟩ := perform_transmit n e target datagram
  exact congrArg Prod.fst (Option.some.inj (hanswer.symm.trans hcarried))

theorem perform_of_mem_dialogue {task : Nat} {asked : Asked} {events : List Event}
    (h : asked ∈ e.dialogue n task events) :
    ∃ past later, events = past ++ .run task :: later ∧
      ∃ e' records, (e.steps n past).1.perform n asked.op = some (asked.answer, e', records) := by
  obtain ⟨turn, hturn, rfl⟩ := List.mem_map.mp h
  obtain ⟨past, later, hevents, hengine, hasked⟩ := exists_of_mem_turns hturn
  obtain ⟨_, _, _, -, hperform⟩ := asked?_eq_some_iff.mp hasked
  exact ⟨past, later, hevents, hengine ▸ hperform⟩

/-! One step of a task. -/

theorem step_run_of_none {task : Nat} (h : e.tasks.get? task = none) :
    e.step n (.run task) = (e, []) := by
  simp [step, run?, h]

theorem step_run_of_done {task : Nat} {duty : Duty} {ticket : Option Ticket} {o : Outcome}
    (h : e.tasks.get? task = some ⟨duty, ticket, .done o⟩) :
    e.step n (.run task) = e.finish n task duty o := by
  simp [step, run?, h]

theorem step_run_of_waits {task : Nat} {duty : Duty} {ticket : Option Ticket} {op : Op}
    {next : op.Answer → Proc Outcome} (h : e.tasks.get? task = some ⟨duty, ticket, .ask op next⟩)
    (hwait : e.perform n op = none) : e.step n (.run task) = (e, []) := by
  simp [step, run?, h, hwait]

theorem step_run_of_answer {task : Nat} {duty : Duty} {ticket : Option Ticket} {op : Op}
    {next : op.Answer → Proc Outcome} (h : e.tasks.get? task = some ⟨duty, ticket, .ask op next⟩)
    {answer : op.Answer} {records : List Record}
    (hanswer : e.perform n op = some (answer, e', records)) :
    e.step n (.run task) =
      (e'.setTask task ⟨duty, heldTicket ticket op answer, next answer⟩, records) := by
  simp [step, run?, h, hanswer]

theorem turnOf_of_answer {task : Nat} {duty : Duty} {ticket : Option Ticket} {op : Op}
    {next : op.Answer → Proc Outcome} (h : e.tasks.get? task = some ⟨duty, ticket, .ask op next⟩)
    {answer : op.Answer} {records : List Record}
    (hanswer : e.perform n op = some (answer, e', records)) :
    e.turnOf n task (.run task) = some ⟨e, op, answer⟩ := by
  simp [turnOf, asked?, h, hanswer]

theorem turnOf_of_waits {task : Nat} {duty : Duty} {ticket : Option Ticket} {op : Op}
    {next : op.Answer → Proc Outcome} (h : e.tasks.get? task = some ⟨duty, ticket, .ask op next⟩)
    (hwait : e.perform n op = none) : e.turnOf n task (.run task) = none := by
  simp [turnOf, asked?, h, hwait]

theorem turnOf_of_done {task : Nat} {duty : Duty} {ticket : Option Ticket} {o : Outcome}
    (h : e.tasks.get? task = some ⟨duty, ticket, .done o⟩) :
    e.turnOf n task (.run task) = none := by
  simp [turnOf, asked?, h]

theorem turnOf_of_none {task : Nat} (h : e.tasks.get? task = none) (event : Event) :
    e.turnOf n task event = none := by
  unfold turnOf
  split
  · split <;> simp [asked?, h]
  · rfl

/-! What becomes of a task. -/

def Touches (task : Nat) : Event → Prop
  | .run k | .abort k => k = task
  | _ => False

instance (task : Nat) (event : Event) : Decidable (Touches task event) := by
  cases event <;> (dsimp only [Touches]; infer_instance)

theorem eq_of_touches {k : Nat} {event : Event} (h : Touches k event) : event = .run k ∨ event = .abort k := by
  cases event with
  | run j => exact .inl (congrArg Event.run h)
  | abort j => exact .inr (congrArg Event.abort h)
  | _ => exact h.elim

@[simp] theorem get?_setTask (e : Engine) (j k : Nat) (t : Task) :
    (e.setTask j t).tasks.get? k = if k = j then some t else e.tasks.get? k :=
  Table.get?_set ..

@[simp] theorem get?_endTask (e : Engine) (j k : Nat) :
    (e.endTask j).tasks.get? k = if k = j then none else e.tasks.get? k :=
  Table.get?_erase ..

theorem tasks_spawn {T : Task → Prop} (h : ∀ k t, e.tasks.get? k = some t → T t) {duty : Duty}
    {p : Proc Outcome} (hp : T ⟨duty, none, p⟩) (k : Nat) (t : Task)
    (ht : (e.spawn duty p).2.tasks.get? k = some t) : T t := by
  unfold spawn at ht
  rw [Table.get?_set] at ht
  split at ht
  · cases ht
    exact hp
  · exact h k t ht

theorem tasks_setTask {T : Task → Prop} (h : ∀ k t, e.tasks.get? k = some t → T t) {j : Nat}
    {new : Task} (hnew : T new) (k : Nat) (t : Task)
    (ht : (e.setTask j new).tasks.get? k = some t) : T t := by
  rw [get?_setTask] at ht
  split at ht
  · cases ht
    exact hnew
  · exact h k t ht

theorem tasks_endTask {T : Task → Prop} (h : ∀ k t, e.tasks.get? k = some t → T t) {j : Nat} (k : Nat)
    (t : Task) (ht : (e.endTask j).tasks.get? k = some t) : T t := by
  rw [get?_endTask] at ht
  split at ht
  · contradiction
  · exact h k t ht

inductive Change (n : Node) (e : Engine) : Event → Engine × List Record → Prop
  | drop (source : Address) (datagram : Bytes) : Change n e (.receive source datagram) (e, [])
  | deliver {source : Address} {datagram : Bytes} {m : Message}
      (decoded : Message.ofDatagram (datagram.take bufferSize) = .ok m)
      (reply : m.type.isRequest = false) : Change n e (.receive source datagram)
        ({ e with replies := (e.replies.deliver source m e.ageClock).2 }, [])
  | serve {source : Address} {datagram : Bytes} {m : Message}
      (decoded : Message.ofDatagram (datagram.take bufferSize) = .ok m)
      (request : m.type.isRequest = true) : Change n e (.receive source datagram)
        ((e.spawn .service (silent (n.serve source m))).2, [])
  | call (c : Call) : Change n e (.call c) ((e.spawn .call (n.run c)).2, [])
  | noTimer : Change n e .keepAlive (e, [])
  | keepAlive : Change n e .keepAlive
      ((e.spawn (.keepAlive (e.clock + n.settings.keepAlive))
        (silent (n.keepAliveRound e.clock))).2, [])
  | noTask (k : Nat) : Change n e (.abort k) (e, [])
  | abort {k : Nat} {t : Task} (task : e.tasks.get? k = some t) : Change n e (.abort k)
      ({ e with replies := t.ticket.elim e.replies e.replies.abandon }.endTask k, [])
  /-- The task has to wait or is not there. -/
  | rest (k : Nat) : Change n e (.run k) (e, [])
  | finish {k : Nat} {duty : Duty} {ticket : Option Ticket} {o : Outcome}
      (task : e.tasks.get? k = some ⟨duty, ticket, .done o⟩) :
      Change n e (.run k) (e.finish n k duty o)
  | answer {k : Nat} {duty : Duty} {ticket : Option Ticket} {op : Op}
      {next : op.Answer → Proc Outcome} {a : op.Answer} {e' : Engine} {records : List Record}
      (task : e.tasks.get? k = some ⟨duty, ticket, .ask op next⟩)
      (answer : e.perform n op = some (a, e', records)) : Change n e (.run k)
        (e'.setTask k ⟨duty, heldTicket ticket op a, next a⟩, records)
  | notDue : Change n e .sweep (e, [])
  | sweep {due window : Nat} (next : e.nextSweep = some due)
      (limit : n.settings.retryWindow = .ok window) (isDue : due ≤ e.clock) : Change n e .sweep
        ({ e with
            replies := (e.replies.reap window e.ageClock).2
            nextSweep := some (due + n.settings.reapInterval) }, [])
  | pass (time age : Nat) : Change n e (.pass time age)
      ({ e with clock := e.clock + time, ageClock := e.ageClock + age }, [])
  | network (w : Network) : Change n e (.network w) ({ e with network := w }, [])
  | directory (d : Directory) : Change n e (.directory d) ({ e with directory := d }, [])
  | disk (d : Disk) : Change n e (.disk d) ({ e with disk := d }, [])
  | exportPath (p : Path) : Change n e (.exportPath p)
      ({ e with published := (e.published.exportPath e.disk p).2 }, [])
  | register (peer : String) (a : Address) : Change n e (.register peer a)
      ({ e with book := (e.book.register peer a).2 }, [])
  | evict (peer : String) (a : Address) : Change n e (.evict peer a)
      ({ e with book := (e.book.evict peer a).2 }, [])

theorem step_receive_of_error {datagram : Bytes} {cause : MessageError}
    (hm : Message.ofDatagram (datagram.take bufferSize) = .error cause) (n : Node) (e : Engine)
    (source : Address) : e.step n (.receive source datagram) = (e, []) := by
  unfold step receive
  simp only [hm]

theorem step_receive_of_reply {datagram : Bytes} {m : Message}
    (hm : Message.ofDatagram (datagram.take bufferSize) = .ok m) (hr : m.type.isRequest = false)
    (n : Node) (e : Engine) (source : Address) : e.step n (.receive source datagram) =
      ({ e with replies := (e.replies.deliver source m e.ageClock).2 }, []) := by
  unfold step receive
  simp only [hm, hr, Bool.false_eq_true, if_false]

theorem step_receive_of_request {datagram : Bytes} {m : Message}
    (hm : Message.ofDatagram (datagram.take bufferSize) = .ok m) (hr : m.type.isRequest = true)
    (n : Node) (e : Engine) (source : Address) : e.step n (.receive source datagram) =
      ((e.spawn .service (silent (n.serve source m))).2, []) := by
  unfold step receive
  simp only [hm, hr, if_true]

theorem change_receive (n : Node) (e : Engine) (source : Address) (datagram : Bytes) :
    Change n e (.receive source datagram) (e.step n (.receive source datagram)) := by
  cases hm : Message.ofDatagram (datagram.take bufferSize) with
  | error cause => exact step_receive_of_error hm n e source ▸ .drop source datagram
  | ok m =>
    cases hr : m.type.isRequest with
    | true => exact step_receive_of_request hm hr n e source ▸ .serve hm hr
    | false => exact step_receive_of_reply hm hr n e source ▸ .deliver hm hr

theorem change_run (n : Node) (e : Engine) (k : Nat) :
    Change n e (.run k) (e.step n (.run k)) := by
  cases ht : e.tasks.get? k with
  | none => exact step_run_of_none ht ▸ .rest k
  | some t =>
    obtain ⟨duty, ticket, program⟩ := t
    cases program with
    | done o => exact step_run_of_done ht ▸ .finish ht
    | ask op next =>
      cases hanswer : e.perform n op with
      | none => exact step_run_of_waits ht hanswer ▸ .rest k
      | some x =>
        obtain ⟨a, e', records⟩ := x
        exact step_run_of_answer ht hanswer ▸ .answer ht hanswer

theorem change_sweep (n : Node) (e : Engine) : Change n e .sweep (e.step n .sweep) := by
  unfold step
  dsimp only
  cases hs : e.sweep? n with
  | none => exact .notDue
  | some e' =>
    simp only [sweep?, Option.bind_eq_bind, Option.bind_eq_some_iff] at hs
    obtain ⟨due, hnext, window, hwindow, hs⟩ := hs
    split at hs <;> cases hs
    refine .sweep hnext ?_ ‹_›
    cases hlimit : n.settings.retryWindow with
    | ok w => rw [hlimit] at hwindow; exact congrArg _ (Option.some.inj hwindow)
    | error cause => rw [hlimit] at hwindow; contradiction

theorem change_step (n : Node) (e : Engine) (event : Event) :
    Change n e event (e.step n event) := by
  cases event with
  | receive source datagram => exact change_receive n e source datagram
  | run k => exact change_run n e k
  | sweep => exact change_sweep n e
  | call c => exact .call c
  | keepAlive =>
    unfold step
    dsimp only
    split
    · exact .noTimer
    · exact .keepAlive
  | abort k =>
    unfold step abort
    dsimp only
    cases ht : e.tasks.get? k with
    | none => exact .noTask k
    | some t =>
      have h := Change.abort (n := n) ht
      obtain ⟨duty, _ | ticket, program⟩ := t <;> exact h
  | pass time age => exact .pass time age
  | network w => exact .network w
  | directory d => exact .directory d
  | disk d => exact .disk d
  | exportPath p => exact .exportPath p
  | register peer a => exact .register peer a
  | evict peer a => exact .evict peer a

theorem finish_of_ne {j k : Nat} (hne : k ≠ j) (duty : Duty) (o : Outcome) :
    (e.finish n j duty o).1.tasks.get? k = e.tasks.get? k ∧
      ∀ o', .ended k o' ∉ (e.finish n j duty o).2 := by
  cases duty <;> simp [finish, hne]

theorem task_of_ended {k : Nat} {o : Outcome} (h : .ended k o ∈ (e.step n (.run k)).2) :
    ∃ ticket, e.tasks.get? k = some ⟨.call, ticket, .done o⟩ := by
  have hchange := change_run n e k
  generalize e.step n (.run k) = after at h hchange
  cases hchange with
  | rest => contradiction
  | answer _ hanswer => exact absurd h (records_perform hanswer k o)
  | @finish _ duty ticket _ htask =>
    cases duty with
    | call =>
      cases List.mem_singleton.mp h
      exact ⟨ticket, htask⟩
    | _ => contradiction

theorem nextTask_finish (n : Node) (e : Engine) (k : Nat) (duty : Duty) (o : Outcome) :
    (e.finish n k duty o).1.nextTask = e.nextTask := by
  cases duty <;> rfl

theorem nextTask_step (n : Node) (e : Engine) (event : Event) :
    e.nextTask ≤ (e.step n event).1.nextTask := by
  have h := change_step n e event
  generalize e.step n event = after at h
  cases h with
  | serve | call | keepAlive => exact Nat.le_succ _
  | finish => exact Nat.le_of_eq (nextTask_finish ..).symm
  | answer _ hanswer => exact (frame_perform hanswer).nextTask
  | _ => exact Nat.le_refl _

theorem nextTask_steps (n : Node) (e : Engine) (events : List Event) :
    e.nextTask ≤ (e.steps n events).1.nextTask := by
  induction events generalizing e with
  | nil => exact Nat.le_refl _
  | cons event events ih => exact Nat.le_trans (nextTask_step n e event) (ih _)

theorem task_step_of_other {k : Nat} (hk : k < e.nextTask) {event : Event}
    (hother : ¬ Touches k event) :
    (e.step n event).1.tasks.get? k = e.tasks.get? k ∧ ∀ o, .ended k o ∉ (e.step n event).2 := by
  have h := change_step n e event
  generalize e.step n event = after at h
  cases h with
  | serve | call | keepAlive => exact ⟨(frame_spawn e _ _).tasks k hk, by simp⟩
  | abort => exact ⟨by rw [get?_endTask, if_neg fun h => hother h.symm], by simp⟩
  | finish => exact finish_of_ne (fun h => hother h.symm) _ _
  | answer _ hanswer =>
    refine ⟨?_, records_perform hanswer k⟩
    rw [get?_setTask, if_neg fun h => hother h.symm]
    exact (frame_perform hanswer).tasks k hk
  | _ => exact ⟨rfl, by simp⟩

theorem turnOf_of_other {k : Nat} {event : Event} (hother : ¬ Touches k event) (e : Engine) :
    e.turnOf n k event = none := by
  unfold turnOf
  split
  · exact if_neg hother
  · rfl

theorem gone_steps {k : Nat} (hk : k < e.nextTask) (hgone : e.tasks.get? k = none)
    (events : List Event) :
    (e.steps n events).1.tasks.get? k = none ∧ e.turns n k events = [] ∧
      ∀ o, .ended k o ∉ (e.steps n events).2 := by
  induction events generalizing e with
  | nil => exact ⟨hgone, rfl, by simp⟩
  | cons event events ih =>
    have hstep : (e.step n event).1.tasks.get? k = none ∧ ∀ o, .ended k o ∉ (e.step n event).2 := by
      by_cases hother : Touches k event
      · cases event <;> try exact hother.elim
        · cases hother
          simp [step, abort, hgone]
        · cases hother
          rw [step_run_of_none hgone]
          exact ⟨hgone, by simp⟩
      · have h := task_step_of_other (n := n) hk hother
        exact ⟨h.1.trans hgone, h.2⟩
    obtain ⟨hnone, hturns, hended⟩ := ih (Nat.lt_of_lt_of_le hk (nextTask_step n e event)) hstep.1
    refine ⟨hnone, by rw [turns, turnOf_of_none hgone, hturns]; rfl, fun o ho => ?_⟩
    rcases List.mem_append.mp ho with ho | ho
    · exact hstep.2 o ho
    · exact hended o ho

/-- How a task may stand after a run: still going on, done, or taken away. -/
inductive Fate (k : Nat) (duty : Duty) (p : Proc Outcome) (events : List Event) (log : List Asked)
    (records : List Record) : Option Task → Prop
  | live {ticket : Option Ticket} {q : Proc Outcome} (path : p.After log q)
      (silent : ∀ o, .ended k o ∉ records) : Fate k duty p events log records (some ⟨duty, ticket, q⟩)
  | done {o : Outcome} (path : p.After log (.done o))
      (ended : ∀ o', .ended k o' ∈ records ↔ duty = .call ∧ o' = o) :
      Fate k duty p events log records none
  | aborted {q : Proc Outcome} (path : p.After log q) (silent : ∀ o, .ended k o ∉ records)
      (abort : .abort k ∈ events) : Fate k duty p events log records none

theorem Fate.later {k : Nat} {duty : Duty} {p q : Proc Outcome} {events : List Event}
    {log : List Asked} {records : List Record} {t : Option Task} {event : Event} {more : List Asked}
    {first : List Record} (hpath : p.After more q) (hfirst : ∀ o, .ended k o ∉ first)
    (h : Fate k duty q events log records t) :
    Fate k duty p (event :: events) (more ++ log) (first ++ records) t := by
  cases h with
  | live path silent =>
    exact .live (hpath.append path) fun o ho =>
      (List.mem_append.mp ho).elim (hfirst o) (silent o)
  | done path ended =>
    refine .done (hpath.append path) fun o' => ?_
    rw [List.mem_append, or_iff_right (hfirst o'), ended]
  | aborted path silent abort =>
    exact .aborted (hpath.append path)
      (fun o ho => (List.mem_append.mp ho).elim (hfirst o) (silent o)) (by simp [abort])

/-- What a task has been answered leads its program to where it stands. -/
theorem fate {k : Nat} {duty : Duty} (hduty : ∀ next, duty ≠ .keepAlive next)
    {ticket : Option Ticket} {p : Proc Outcome} (hk : k < e.nextTask)
    (ht : e.tasks.get? k = some ⟨duty, ticket, p⟩) (events : List Event) :
    Fate k duty p events (e.dialogue n k events) (e.steps n events).2
      ((e.steps n events).1.tasks.get? k) := by
  induction events generalizing e ticket p with
  | nil => rw [steps_nil, ht]; exact .live (.start p) (by simp)
  | cons event events ih =>
    have hk' := Nat.lt_of_lt_of_le hk (nextTask_step n e event)
    rw [dialogue_cons, steps_cons]
    by_cases hother : Touches k event
    · cases event <;> try exact hother.elim
      case abort =>
        cases hother
        have hgone : (e.step n (.abort k)).1.tasks.get? k = none := by
          cases ticket <;> simp [step, abort, ht]
        obtain ⟨hnone, hturns, hended⟩ := gone_steps hk' hgone events
        rw [hnone]
        unfold dialogue
        rw [hturns]
        exact .aborted (.start p) (by simpa [step] using hended) (by simp)
      case run =>
        cases hother
        cases p with
        | done o =>
          rw [turnOf_of_done ht, step_run_of_done ht]
          rw [step_run_of_done ht] at hk'
          have hgone : (e.finish n k duty o).1.tasks.get? k = none := by
            cases duty <;> simp_all [finish]
          obtain ⟨hnone, hturns, hended⟩ := gone_steps hk' hgone events
          rw [hnone]
          unfold dialogue
          rw [hturns]
          refine .done (.start _) fun o' => ?_
          rw [List.mem_append, or_iff_left (hended o')]
          cases duty <;> simp_all [finish]
        | ask op next =>
          cases hanswer : e.perform n op with
          | none =>
            rw [turnOf_of_waits ht hanswer, step_run_of_waits ht hanswer]
            exact (ih hk ht).later (.start _) (by simp)
          | some x =>
            obtain ⟨answer, e', records⟩ := x
            rw [turnOf_of_answer ht hanswer, step_run_of_answer ht hanswer]
            rw [step_run_of_answer ht hanswer] at hk'
            exact (ih hk' (by rw [get?_setTask, if_pos rfl])).later (.ask (.start _))
              (records_perform hanswer k)
    · have h := task_step_of_other (n := n) hk hother
      rw [turnOf_of_other hother]
      exact (ih hk' (h.1.trans ht)).later (.start p) h.2

theorem after_of_ended {k : Nat} {ticket : Option Ticket} {p : Proc Outcome} (hk : k < e.nextTask)
    (ht : e.tasks.get? k = some ⟨.call, ticket, p⟩) {events : List Event} {o : Outcome}
    (h : .ended k o ∈ (e.steps n events).2) : p.After (e.dialogue n k events) (.done o) := by
  have hduty : ∀ next, Duty.call ≠ .keepAlive next := nofun
  have hfate := fate (n := n) hduty hk ht events
  generalize (e.steps n events).1.tasks.get? k = t at hfate
  cases hfate with
  | live _ silent => exact absurd h (silent o)
  | aborted _ silent => exact absurd h (silent o)
  | done path ended =>
    cases ((ended o).mp h).2
    exact path

/-! Tasks that never wait. -/

def Waits : Op → Prop
  | .awaitReply .. | .awaitTime _ | .halt _ => True
  | _ => False

theorem exists_perform {op : Op} (h : ¬ Waits op) (n : Node) (e : Engine) :
    ∃ answer e' records, e.perform n op = some (answer, e', records) := by
  cases op <;> first
    | exact absurd trivial h
    | exact ⟨_, _, _, rfl⟩
    | (unfold perform; dsimp only; split <;> exact ⟨_, _, _, rfl⟩)

theorem gone_of_within {k : Nat} {duty : Duty} (hduty : ∀ next, duty ≠ .keepAlive next)
    {ticket : Option Ticket} {p : Proc Outcome} (hk : k < e.nextTask)
    (ht : e.tasks.get? k = some ⟨duty, ticket, p⟩) {count : Nat}
    (hp : p.Within (fun op => ¬ Waits op) count) {events : List Event}
    (hcount : count < events.countP fun event => Touches k event) :
    (e.steps n events).1.tasks.get? k = none := by
  induction events generalizing e ticket p count with
  | nil => simp at hcount
  | cons event events ih =>
    have hk' := Nat.lt_of_lt_of_le hk (nextTask_step n e event)
    rw [steps_cons]
    by_cases hother : Touches k event
    · rw [List.countP_cons_of_pos (by simpa using hother)] at hcount
      cases event <;> try exact hother.elim
      case abort =>
        cases hother
        refine (gone_steps hk' ?_ events).1
        cases ticket <;> simp [step, abort, ht]
      case run =>
        cases hother
        cases p with
        | done o =>
          refine (gone_steps hk' ?_ events).1
          rw [step_run_of_done ht]
          cases duty <;> simp_all [finish]
        | ask op next =>
          cases count with
          | zero => exact hp.elim
          | succ count =>
            obtain ⟨answer, e', records, hanswer⟩ := exists_perform hp.1 n e
            rw [step_run_of_answer ht hanswer] at hk' ⊢
            exact ih hk' (by rw [get?_setTask, if_pos rfl]) (hp.2 answer) (by omega)
    · rw [List.countP_cons_of_neg (by simpa using hother)] at hcount
      exact ih hk' ((task_step_of_other hk hother).1.trans ht) hp hcount

end TreeShare.Engine
