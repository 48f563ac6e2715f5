import TreeShare.Proofs.Engine.Solo
import TreeShare.Proofs.Replies.Posted

/-! A request as a task of an engine. Main statement: `moves_run`, it takes its steps as if it were alone
and keeps to its own slot and ticket. -/
namespace TreeShare

def Leave.Allows (n : Node) (a : Address) (m : Message) (p : Proc Outcome) : Leave → Prop
  | noReply => ∃ attempts, n.settings.attempts = .ok attempts ∧
      p = .done (.failed (.noReply a attempts))
  | unsent => p = .done (.failed .socket)
  | told r => ∃ log, (Node.settle (n.validate a (n.prepare m) r)).After log p

theorem Leave.Allows.next {n : Node} {a : Address} {m : Message} {how : Leave} {op : Op}
    {next : op.Answer → Proc Outcome} (h : how.Allows n a m (.ask op next)) :
    op.IsLookup ∧ ∀ answer, how.Allows n a m (next answer) := by
  cases how with
  | noReply => obtain ⟨_, _, h⟩ := h; cases h
  | unsent => cases h
  | told r =>
    obtain ⟨log, h⟩ := h
    have hwithin := (h.within (Node.settle_validate_within n a (n.prepare m) r)).2.2
    exact ⟨hwithin.asks, fun answer => ⟨log ++ [⟨op, answer⟩], h.append (.ask (.start _))⟩⟩

namespace Engine

/-- Task `k` of an engine is the request `m` to `a`, and stands as the line says. -/
inductive Tracks (n : Node) (e : Engine) (k : Nat) (a : Address) (m : Message) : Line → Prop
  | absent {parked : Option (Message × Nat)} (late : e.nextTask ≤ k) (task : e.tasks.get? k = none)
      (slot : e.replies.slot? (a, m.id) = parked.map fun x => .parked x.1 x.2) :
      Tracks n e k a m (.absent parked)
  | fresh {parked : Option (Message × Nat)} (called : k < e.nextTask)
      (task : e.tasks.get? k = some ⟨.call, none, n.run (.send a m)⟩)
      (slot : e.replies.slot? (a, m.id) = parked.map fun x => .parked x.1 x.2) :
      Tracks n e k a m (.fresh parked)
  | registered {stage : Stage} {mail : Option Message} {t : Ticket} {attempts : Nat}
      (called : k < e.nextTask) (limit : n.settings.attempts = .ok attempts)
      (task : e.tasks.get? k =
        some ⟨.call, some t, stage.program n a (n.prepare m) attempts t⟩)
      (posted : e.replies.Posted (a, m.id) t mail) : Tracks n e k a m (.registered stage mail)
  | left {how : Leave} (called : k < e.nextTask)
      (task : ∀ t, e.tasks.get? k = some t → t.duty = .call ∧ how.Allows n a m t.program)
      (slot : ∀ u, e.replies.slot? (a, m.id) ≠ some (.waiting u))
      (spent : ∀ t u, e.tasks.get? k = some t → t.ticket = some u → e.replies.inbox u ≠ .waiting) :
      Tracks n e k a m (.left how)

variable {n : Node} {e e' : Engine} {k : Nat} {a : Address} {m : Message} {line : Line}

theorem Tracks.frame (h : Tracks n e k a m line)
    (hcalled : k < e'.nextTask ↔ k < e.nextTask) (htask : e'.tasks.get? k = e.tasks.get? k)
    (hslot : e'.replies.slot? (a, m.id) = e.replies.slot? (a, m.id))
    (hinbox : ∀ task t, e.tasks.get? k = some task → task.ticket = some t →
      e'.replies.inbox t = e.replies.inbox t) : Tracks n e' k a m line := by
  cases h with
  | absent late task slot =>
    exact .absent (Nat.not_lt.mp (mt hcalled.mp (Nat.not_lt.mpr late))) (htask.trans task)
      (hslot.trans slot)
  | fresh called task slot => exact .fresh (hcalled.mpr called) (htask.trans task) (hslot.trans slot)
  | @registered stage mail t attempts called limit task posted =>
    refine .registered (hcalled.mpr called) limit (htask.trans task) ?_
    have hi := hinbox _ t task rfl
    cases mail <;> exact ⟨by rw [hslot]; exact posted.1, hi.trans posted.2⟩
  | left called task slot spent =>
    refine .left (hcalled.mpr called) (htask ▸ task) (hslot ▸ slot) fun t u ht hu => ?_
    rw [hinbox t u (htask ▸ ht) hu]
    exact spent t u (htask ▸ ht) hu

/-- What a step of task `k`, which goes by `key`, may do to an engine. -/
structure OwnStep (e e' : Engine) (k : Nat) (key : ReplyKey) : Prop where
  clock : e'.clock = e.clock
  ageClock : e'.ageClock = e.ageClock
  nextSweep : e'.nextSweep = e.nextSweep
  network : e'.network = e.network
  nextTask : e'.nextTask = e.nextTask
  tasks : ∀ j, j ≠ k → e'.tasks.get? j = e.tasks.get? j
  issued : e.replies.issued ≤ e'.replies.issued
  distinct : e.replies.slots.Distinct → e'.replies.slots.Distinct
  slots : ∀ other, other ≠ key → e'.replies.slot? other = e.replies.slot? other
  inbox : ∀ t : Ticket, t.number < e.replies.issued →
    (∀ task, e.tasks.get? k = some task → task.ticket ≠ some t) →
      e'.replies.inbox t = e.replies.inbox t
  /-- The task keeps its ticket or was given a new one. -/
  ticket : ∀ task' t, e'.tasks.get? k = some task' → task'.ticket = some t →
    (∃ task, e.tasks.get? k = some task ∧ task.ticket = some t) ∨
      t.number = e.replies.issued ∧ t.number < e'.replies.issued
  own : ∀ t, e'.replies.slot? key = some (.waiting t) →
    ∃ task', e'.tasks.get? k = some task' ∧ task'.ticket = some t

theorem Tracks.own (h : Tracks n e k a m line) {t : Ticket}
    (hslot : e.replies.slot? (a, m.id) = some (.waiting t)) :
    ∃ task, e.tasks.get? k = some task ∧ task.ticket = some t := by
  cases h with
  | @absent parked _ _ slot => rw [slot] at hslot; cases parked <;> cases hslot
  | @fresh parked _ _ slot => rw [slot] at hslot; cases parked <;> cases hslot
  | @registered stage mail u attempts _ _ task posted =>
    cases mail with
    | none =>
      cases posted.1.symm.trans hslot
      exact ⟨_, task, rfl⟩
    | some r => exact absurd hslot (posted.1 t)
  | left _ _ slot => exact absurd hslot (slot t)

theorem OwnStep.refl {key : ReplyKey} (hown : ∀ t, e.replies.slot? key = some (.waiting t) →
    ∃ task, e.tasks.get? k = some task ∧ task.ticket = some t) : OwnStep e e k key where
  clock := rfl
  ageClock := rfl
  nextSweep := rfl
  network := rfl
  nextTask := rfl
  tasks _ _ := rfl
  issued := Nat.le_refl _
  distinct := id
  slots _ _ := rfl
  inbox _ _ _ := rfl
  ticket task _ ht hheld := .inl ⟨task, ht, hheld⟩
  own := hown

theorem OwnStep.of_replies {key : ReplyKey} {task task' : Task} {p : ReplyTable}
    (htask : e.tasks.get? k = some task) (hissued : e.replies.issued ≤ p.issued)
    (hdistinct : e.replies.slots.Distinct → p.slots.Distinct)
    (hslots : ∀ other, other ≠ key → p.slot? other = e.replies.slot? other)
    (hinbox : ∀ t : Ticket, t.number < e.replies.issued → task.ticket ≠ some t →
      p.inbox t = e.replies.inbox t)
    (hticket : ∀ t, task'.ticket = some t → task.ticket = some t ∨
      t.number = e.replies.issued ∧ t.number < p.issued)
    (hown : ∀ t, p.slot? key = some (.waiting t) → task'.ticket = some t) :
    OwnStep e ({ e with replies := p }.setTask k task') k key where
  clock := rfl
  ageClock := rfl
  nextSweep := rfl
  network := rfl
  nextTask := rfl
  tasks j hj := by rw [get?_setTask, if_neg hj]
  issued := hissued
  distinct := hdistinct
  slots := hslots
  inbox t ht hheld := hinbox t ht (hheld task htask)
  ticket x t hx hheld := by
    rw [get?_setTask, if_pos rfl] at hx
    cases hx
    exact (hticket t hheld).imp (fun h => ⟨task, htask, h⟩) id
  own t ht := ⟨task', by rw [get?_setTask, if_pos rfl], hown t ht⟩

theorem OwnStep.of_task {key : ReplyKey} {task task' : Task} (htask : e.tasks.get? k = some task)
    (hticket : task'.ticket = task.ticket)
    (hown : ∀ t, e.replies.slot? key = some (.waiting t) → task.ticket = some t) :
    OwnStep e (e.setTask k task') k key :=
  .of_replies htask (Nat.le_refl _) id (fun _ _ => rfl) (fun _ _ _ => rfl)
    (fun _ h => .inl (hticket ▸ h)) (fun t h => hticket ▸ hown t h)

theorem OwnStep.of_endTask {key : ReplyKey} (hown : ∀ t, e.replies.slot? key ≠ some (.waiting t)) :
    OwnStep e (e.endTask k) k key where
  clock := rfl
  ageClock := rfl
  nextSweep := rfl
  network := rfl
  nextTask := rfl
  tasks j hj := by rw [get?_endTask, if_neg hj]
  issued := Nat.le_refl _
  distinct := id
  slots _ _ := rfl
  inbox _ _ _ := rfl
  ticket x t hx _ := by
    rw [get?_endTask, if_pos rfl] at hx
    contradiction
  own t ht := absurd ht (hown t)

/-! Each step that a request takes by itself. -/

section
variable {attempts : Nat} {t : Ticket} {mail : Option Message}

structure Moves (n : Node) (e : Engine) (k : Nat) (a : Address) (m : Message) (line : Line) :
    Prop where
  tracks : Tracks n (e.step n (.run k)).1 k a m line
  own : OwnStep e (e.step n (.run k)).1 k (a, m.id)

theorem moves_register {parked : Option (Message × Nat)} (hcalled : k < e.nextTask)
    (hlimit : n.settings.attempts = .ok attempts)
    (htask : e.tasks.get? k = some ⟨.call, none, n.run (.send a m)⟩)
    (hslot : e.replies.slot? (a, m.id) = parked.map fun x => .parked x.1 x.2) :
    Moves n e k a m (.registered (.sending attempts) (parked.map Prod.fst)) := by
  have hprogram := n.run_send_of_attempts a m attempts hlimit
  have hstep := step_run_of_answer (hprogram ▸ htask) (perform_register n e (a, m.id))
  have hticket := e.replies.ticket_register (a, m.id)
  have hregister : (∀ other, other ≠ (a, m.id) →
        (e.replies.register (a, m.id)).2.slot? other = e.replies.slot? other) ∧
      (∀ u : Ticket, u.number < e.replies.issued →
        (e.replies.register (a, m.id)).2.inbox u = e.replies.inbox u) ∧
      (e.replies.register (a, m.id)).2.Posted (a, m.id) (e.replies.register (a, m.id)).1
        (parked.map Prod.fst) := by
    rw [hticket]
    have hne (u : Ticket) (hu : u.number < e.replies.issued) : u ≠ ⟨e.replies.issued⟩ := by
      rintro rfl
      exact Nat.lt_irrefl _ hu
    cases parked with
    | none =>
      obtain ⟨hslots, hinbox⟩ := e.replies.register_free hslot
      exact ⟨fun other h => by rw [hslots, if_neg h],
        fun u hu => by rw [hinbox, if_neg (hne u hu)],
        by rw [hslots, if_pos rfl], by rw [hinbox, if_pos rfl]⟩
    | some x =>
      obtain ⟨hslots, hinbox⟩ := e.replies.register_parked hslot
      exact ⟨fun other h => by rw [hslots, if_neg h],
        fun u hu => by rw [hinbox, if_neg (hne u hu)],
        fun u => by rw [hslots, if_pos rfl]; simp, by rw [hinbox, if_pos rfl]⟩
  obtain ⟨hslots, hinbox, hposted⟩ := hregister
  refine ⟨?_, ?_⟩ <;> rw [hstep]
  · exact .registered hcalled hlimit (by rw [get?_setTask, if_pos rfl]; rfl) hposted
  · refine .of_replies htask (by rw [e.replies.issued_register]; exact Nat.le_succ _)
      (e.replies.distinct_register · _) hslots (fun u hu _ => hinbox u hu) ?_ ?_
    · intro u hu
      cases Option.some.inj hu
      rw [hticket, e.replies.issued_register]
      exact .inr ⟨rfl, Nat.lt_succ_self _⟩
    · intro u hu
      cases hmail : parked.map Prod.fst with
      | none =>
        rw [hmail] at hposted
        cases hposted.1.symm.trans hu
        rfl
      | some r =>
        rw [hmail] at hposted
        exact absurd hu (hposted.1 u)

theorem moves_rest (h : Tracks n e k a m line) (hstep : e.step n (.run k) = (e, [])) :
    Moves n e k a m line := by
  refine ⟨?_, ?_⟩ <;> rw [hstep]
  · exact h
  · exact .refl fun _ => h.own

theorem moves_stage {stage : Stage} (stage' : Stage)
    (h : Tracks n e k a m (.registered stage mail)) (hcalled : k < e.nextTask)
    (hlimit : n.settings.attempts = .ok attempts)
    (htask : e.tasks.get? k = some ⟨.call, some t, stage.program n a (n.prepare m) attempts t⟩)
    (hposted : e.replies.Posted (a, m.id) t mail) {records : List Record}
    (hstep : e.step n (.run k) = (e.setTask k
      ⟨.call, some t, stage'.program n a (n.prepare m) attempts t⟩, records)) :
    Moves n e k a m (.registered stage' mail) := by
  refine ⟨?_, ?_⟩ <;> rw [hstep]
  · exact .registered hcalled hlimit (by rw [get?_setTask, if_pos rfl]) hposted
  · refine .of_task htask rfl fun u hu => ?_
    obtain ⟨task, htask', hheld⟩ := h.own hu
    cases htask.symm.trans htask'
    exact hheld

theorem moves_cancel {how : Leave} {stage : Stage} {p : Proc Outcome}
    (h : Tracks n e k a m (.registered stage mail)) (hcalled : k < e.nextTask)
    (htask : e.tasks.get? k = some ⟨.call, some t, .ask (.cancel (a, m.id)) fun _ => p⟩)
    (hposted : e.replies.Posted (a, m.id) t mail) (hallows : how.Allows n a m p) :
    Moves n e k a m (.left how) := by
  have hstep := step_run_of_answer htask (perform_cancel n e (a, m.id))
  refine ⟨?_, ?_⟩ <;> rw [hstep]
  · refine .left hcalled (fun task hx => ?_) (fun u => ?_) fun task u hx hu => ?_
    · rw [get?_setTask, if_pos rfl] at hx
      cases hx
      exact ⟨rfl, hallows⟩
    · change (e.replies.cancel (a, m.id)).slot? (a, m.id) ≠ _
      rw [e.replies.slot?_cancel, if_pos rfl]
      simp
    · rw [get?_setTask, if_pos rfl] at hx
      cases hx
      cases hu
      exact hposted.over_of_cancel
  · refine .of_replies htask (Nat.le_of_eq (e.replies.issued_cancel _).symm)
      (e.replies.distinct_cancel · _) (fun other hother => ?_) (fun u _ hheld => ?_)
      (fun u hu => .inl hu) fun u hu => ?_
    · rw [e.replies.slot?_cancel, if_neg hother]
    · apply e.replies.inbox_cancel_of_ne
      intro hslot
      obtain ⟨task, htask', hheld'⟩ := h.own hslot
      cases htask.symm.trans htask'
      exact hheld hheld'
    · rw [e.replies.slot?_cancel, if_pos rfl] at hu
      contradiction

theorem moves_told {r : Message} {more deadline : Nat} (hcalled : k < e.nextTask)
    (htask : e.tasks.get? k =
      some ⟨.call, some t, n.awaiting a (n.prepare m) attempts more t deadline⟩)
    (hposted : e.replies.Posted (a, m.id) t (some r)) : Moves n e k a m (.left (.told r)) := by
  have hstep := step_run_of_answer htask (perform_awaitReply_holding hposted.2 n deadline)
  refine ⟨?_, ?_⟩ <;> rw [hstep]
  · refine .left hcalled (fun task hx => ?_) (fun u => ?_) fun task u hx hu => ?_
    · rw [get?_setTask, if_pos rfl] at hx
      cases hx
      exact ⟨rfl, [], .start _⟩
    · change (e.replies.poll t).2.slot? (a, m.id) ≠ _
      rw [e.replies.slot?_poll]
      exact hposted.1 u
    · rw [get?_setTask, if_pos rfl] at hx
      cases hx
      cases hu
      exact ReplyTable.over_of_poll hposted.2
  · refine .of_replies htask (Nat.le_of_eq (e.replies.issued_poll _).symm)
      (e.replies.distinct_poll · _) (fun other _ => e.replies.slot?_poll t other)
      (fun u _ hheld => ?_) (fun u hu => .inl hu) fun u hu => ?_
    · exact e.replies.inbox_poll_of_ne fun hut => hheld (congrArg some hut.symm)
    · rw [e.replies.slot?_poll] at hu
      exact absurd hu (hposted.1 u)

end

theorem perform_lookup {op : Op} (hop : op.IsLookup) (n : Node) (e : Engine) :
    ∃ answer keyCache, e.perform n op = some (answer, { e with keyCache }, []) := by
  cases op <;> first
    | exact hop.elim
    | exact ⟨_, e.keyCache, rfl⟩
    | exact ⟨_, _, rfl⟩

theorem moves_left {how : Leave} (h : Tracks n e k a m (.left how)) :
    Moves n e k a m (.left how) := by
  cases htask : e.tasks.get? k with
  | none => exact moves_rest h (step_run_of_none htask)
  | some t =>
    cases h with
    | left hcalled hallows hslot hspent =>
      obtain ⟨hduty, hallows⟩ := hallows t htask
      obtain ⟨duty, ticket, program⟩ := t
      cases hduty
      cases program with
      | done o =>
        have hstep : e.step n (.run k) = (e.endTask k, [.ended k o]) := step_run_of_done htask
        refine ⟨?_, ?_⟩ <;> rw [hstep]
        · refine .left hcalled (fun t ht => ?_) hslot fun t u ht => ?_ <;>
          · rw [get?_endTask, if_pos rfl] at ht
            contradiction
        · exact .of_endTask hslot
      | ask op next =>
        obtain ⟨hop, hnext⟩ := Leave.Allows.next hallows
        obtain ⟨answer, keyCache, hanswer⟩ := perform_lookup hop n e
        have hstep := step_run_of_answer htask hanswer
        have hheld : heldTicket ticket op answer = ticket := by
          cases op <;> first | exact hop.elim | rfl
        refine ⟨?_, ?_⟩ <;> rw [hstep]
        · refine .left hcalled (fun t ht => ?_) hslot fun t u ht hu => ?_
          · rw [get?_setTask, if_pos rfl] at ht
            cases ht
            exact ⟨rfl, hnext answer⟩
          · rw [get?_setTask, if_pos rfl] at ht
            cases ht
            exact hspent _ u htask (hheld ▸ hu)
        · have hown : OwnStep { e with keyCache } (Engine.setTask { e with keyCache } k
              ⟨.call, heldTicket ticket op answer, next answer⟩) k (a, m.id) :=
            .of_task htask hheld fun u hu => absurd hu (hslot u)
          exact ⟨hown.clock, hown.ageClock, hown.nextSweep, hown.network, hown.nextTask, hown.tasks,
            hown.issued, hown.distinct, hown.slots, hown.inbox, hown.ticket, hown.own⟩

/-- A request takes its steps as if it were alone. -/
theorem moves_run (h : Tracks n e k a m line) : Moves n e k a m (line.run n e.network a m e.clock) := by
  cases h with
  | absent hlate htask hslot => exact moves_rest (.absent hlate htask hslot) (step_run_of_none htask)
  | fresh hcalled htask hslot =>
    unfold Line.run
    dsimp only
    cases hlimit : n.settings.attempts with
    | ok attempts => exact moves_register hcalled hlimit htask hslot
    | error cause =>
      obtain ⟨next, hprogram⟩ := n.run_send_of_overflow a m hlimit
      exact moves_rest (.fresh hcalled htask hslot) (step_run_of_waits (hprogram ▸ htask) rfl)
  | @registered stage mail t attempts hcalled hlimit htask hposted =>
    have h : Tracks n e k a m (.registered stage mail) :=
      .registered hcalled hlimit htask hposted
    cases stage with
    | unsent =>
      rw [Stage.program_unsent] at htask
      exact moves_cancel h hcalled htask hposted rfl
    | timing more =>
      exact moves_stage (.waiting more (e.clock + n.settings.replyTimeout)) h hcalled hlimit htask
        hposted (step_run_of_answer htask rfl)
    | sending more =>
      cases more with
      | zero =>
        rw [Stage.program_sending_zero] at htask
        exact moves_cancel h hcalled htask hposted ⟨attempts, hlimit, rfl⟩
      | succ more =>
        obtain ⟨records, hsend⟩ := perform_transmit n e a (n.prepare m).encode
        have hstep := step_run_of_answer (Stage.program_sending_succ n a .. ▸ htask) hsend
        unfold Line.run
        dsimp only
        cases hsent : e.network.carries a (n.prepare m).encode with
        | true =>
          rw [hsent] at hstep
          exact moves_stage (.timing more) h hcalled hlimit htask hposted hstep
        | false =>
          rw [hsent] at hstep
          exact moves_stage (.unsent) h hcalled hlimit htask hposted hstep
    | waiting more deadline =>
      cases mail with
      | some r => exact moves_told hcalled htask hposted
      | none =>
        have hanswer := perform_awaitReply_waiting hposted.2 n deadline
        unfold Line.run
        dsimp only
        split
        · rw [if_pos ‹_›] at hanswer
          exact moves_stage (.sending more) h hcalled hlimit htask hposted
            (step_run_of_answer htask hanswer)
        · rw [if_neg ‹_›] at hanswer
          exact moves_rest h (step_run_of_waits htask hanswer)
  | left hcalled htask hslot hspent => exact moves_left (.left hcalled htask hslot hspent)

end Engine
end TreeShare
