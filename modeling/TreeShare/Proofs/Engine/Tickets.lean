import TreeShare.Proofs.Engine.Standing

/-! The tickets that tasks go on with in a run, and the replies that come in it. Main statements:
`Sound.steps`, no task has a ticket that was not issued, and `Reserved.step`, what one event leaves of a
ticket that one task has to itself. -/
namespace TreeShare
namespace Engine

def arrivals (n : Node) (key : ReplyKey) (e : Engine) : List Event → List (Nat × Message)
  | [] => []
  | event :: events =>
    ((event.reply? key).map (Prod.mk e.clock)).toList ++ arrivals n key (e.step n event).1 events

variable {n : Node} {e : Engine} {k : Nat} {key : ReplyKey} {t : Ticket}

theorem turns_concat (n : Node) (k : Nat) (e : Engine) (events : List Event) (event : Event) :
    e.turns n k (events ++ [event]) =
      e.turns n k events ++ ((e.steps n events).1.turnOf n k event).toList := by
  rw [turns_append, turns, turns, List.append_nil]

theorem turnOf_eq_none {event : Event} (h : event ≠ .run k) : e.turnOf n k event = none := by
  cases hturn : e.turnOf n k event with
  | none => rfl
  | some turn => exact absurd (turnOf_eq_some hturn).1 h

theorem turns_eq_nil {events : List Event} (h : ∀ event ∈ events, event ≠ .run k) :
    e.turns n k events = [] := by
  induction events generalizing e with
  | nil => rfl
  | cons event events ih =>
    rw [turns, turnOf_eq_none (h event List.mem_cons_self),
      ih fun later hlater => h later (List.mem_cons_of_mem _ hlater)]
    rfl

theorem arrivals_concat (n : Node) (key : ReplyKey) (e : Engine) (events : List Event) (event : Event) :
    e.arrivals n key (events ++ [event]) = e.arrivals n key events ++
      ((event.reply? key).map (Prod.mk (e.steps n events).1.clock)).toList := by
  induction events generalizing e with
  | nil => exact List.append_nil _
  | cons first events ih =>
    rw [List.cons_append, arrivals, ih, arrivals, List.append_assoc, steps_cons]

/-! Tickets of the tasks. -/

/-- A task goes on with such tickets only: it holds no other, and was given no other before. -/
structure Entitled (own : Ticket → Prop) (t : Task) : Prop where
  held : ∀ u, t.ticket = some u → own u
  program : ∃ log, t.program.Obeys (fun log op => op.Justified log) log ∧
    ∀ key u, ⟨.register key, u⟩ ∈ log → own u

theorem Entitled.awaits {own : Ticket → Prop} {duty : Duty} {ticket : Option Ticket} {deadline : Nat}
    {next : Wait → Proc Outcome}
    (h : Entitled own ⟨duty, ticket, .ask (.awaitReply t deadline) next⟩) : own t := by
  obtain ⟨-, log, hobeys, hown⟩ := h
  obtain ⟨key, hkey⟩ := hobeys.1
  exact hown key t hkey

theorem entitled_step {own own' : Ticket → Prop} {event : Event}
    (h : ∀ task, e.tasks.get? k = some task → Entitled own task) (hold : ∀ u, own u → own' u)
    (hnew : ∀ key u, (e.turnOf n k event).map Turn.asked = some ⟨.register key, u⟩ → own' u)
    {task : Task} (htask : (e.step n event).1.tasks.get? k = some task) : Entitled own' task := by
  cases came_of_step htask with
  | stayed before =>
    obtain ⟨hheld, log, hobeys, hlog⟩ := h task before
    exact ⟨fun u hu => hold u (hheld u hu), log, hobeys, fun key u hu => hold u (hlog key u hu)⟩
  | @answered duty ticket op next answer before turn =>
    obtain ⟨hheld, log, hobeys, hlog⟩ := h _ before
    refine ⟨fun u hu => ?_, _, hobeys.2 answer, fun key u hu => ?_⟩
    · cases op with
      | register key =>
        cases hu
        exact hnew key u turn
      | _ => exact hold u (hheld u hu)
    · rcases List.mem_append.mp hu with hu | hu
      · exact hold u (hlog key u hu)
      · exact hnew key u (turn.trans (congrArg some (List.mem_singleton.mp hu).symm))
  | began runs =>
    have hobeys := (grounded_of_runs n _ _ [] runs).imp fun _ _ hop => Op.Grounded.justified hop
    exact ⟨nofun, [], hobeys, nofun⟩

theorem issued_of_turnOf {event : Event} {u : Ticket}
    (h : (e.turnOf n k event).map Turn.asked = some ⟨.register key, u⟩) :
    u = ⟨e.replies.issued⟩ ∧ e.issuedIn n event = [key] := by
  obtain ⟨turn, hturn, hasked⟩ := Option.map_eq_some_iff.mp h
  obtain ⟨rfl, -, hanswered⟩ := turnOf_eq_some hturn
  rw [hasked] at hanswered
  refine ⟨?_, issuedIn_of_some hanswered⟩
  obtain ⟨-, -, -, -, e', records, hanswer⟩ := asked?_eq_some_iff.mp hanswered
  cases hanswer
  exact e.replies.ticket_register key

structure Sound (e : Engine) : Prop where
  numbered : Numbered e
  filed : ∃ keys, e.replies.Filed (fun _ _ => True) keys
  tickets : ∀ k task, e.tasks.get? k = some task →
    Entitled (fun u => u.number < e.replies.issued) task

theorem sound_start (n : Node) (network : Network) (directory : Directory) (disk : Disk) :
    Sound (start n network directory disk) :=
  ⟨(idle_start n network directory disk).numbered, ⟨[], .start⟩, nofun⟩

theorem Sound.step (h : Sound e) (n : Node) (event : Event) : Sound (e.step n event).1 := by
  obtain ⟨hnumbered, ⟨keys, hfiled⟩, htickets⟩ := h
  have hfiled' : (e.step n event).1.replies.Filed (fun _ _ => True) (keys ++ e.issuedIn n event) :=
    filed_step hfiled fun _ _ _ _ _ => trivial
  have hissued : (e.step n event).1.replies.issued =
      e.replies.issued + (e.issuedIn n event).length := by
    rw [hfiled'.issued, List.length_append, hfiled.issued]
  refine ⟨hnumbered.step event, ⟨_, hfiled'⟩, fun k task htask => ?_⟩
  refine entitled_step (htickets k) (fun u hu => ?_) (fun key u hu => ?_) htask
  · exact Nat.lt_of_lt_of_le hu (hissued ▸ Nat.le_add_right _ _)
  · obtain ⟨rfl, hkey⟩ := issued_of_turnOf hu
    rw [hissued, hkey]
    exact Nat.lt_succ_self _

theorem Sound.steps (h : Sound e) (n : Node) (events : List Event) : Sound (e.steps n events).1 := by
  have hstep (e : Engine) (event : Event) (_ : True) (he : Sound e) : Sound (e.step n event).1 :=
    he.step n event
  exact steps_invariant hstep h fun _ _ => trivial

end Engine

def Op.OnKey (key : ReplyKey) : Op → Prop
  | register key' | cancel key' => key' = key
  | _ => False

def Event.elapsed : Event → Nat
  | pass time _ => time
  | _ => 0

theorem Event.reply?_of_elapsed {event : Event} (h : 0 < event.elapsed) (key : ReplyKey) :
    event.reply? key = none := by
  cases event <;> first | rfl | exact absurd h (Nat.lt_irrefl 0)

namespace Engine

variable {n : Node} {e e' : Engine} {k : Nat} {key : ReplyKey} {t : Ticket} {mail : Option Message}

/-- A ticket was issued for a key, and no task but one goes on with it. -/
structure Reserved (e : Engine) (k : Nat) (key : ReplyKey) (t : Ticket) : Prop where
  filed : ∃ keys, e.replies.Filed (fun _ _ => True) keys ∧ keys[t.number]? = some key
  others : ∀ j task, j ≠ k → e.tasks.get? j = some task → Entitled (fun u => t ≠ u) task

theorem reserved_register (h : Sound e) (k : Nat) (key : ReplyKey) (task : Task) :
    Reserved ({ e with replies := (e.replies.register key).2 }.setTask k task) k key
      (e.replies.register key).1 where
  filed := by
    obtain ⟨keys, hfiled⟩ := h.filed
    refine ⟨_, hfiled.register key, ?_⟩
    rw [e.replies.ticket_register key, hfiled.issued]
    exact List.getElem?_concat_length
  others j other hj hother := by
    rw [get?_setTask, if_neg hj] at hother
    obtain ⟨hheld, log, hobeys, hlog⟩ := h.tickets j other hother
    have hearlier (u : Ticket) (hu : u.number < e.replies.issued) :
        (e.replies.register key).1 ≠ u := by
      rw [e.replies.ticket_register key]
      rintro rfl
      exact Nat.lt_irrefl _ hu
    exact ⟨fun u hu => hearlier u (hheld u hu), log, hobeys, fun key u hu => hearlier u (hlog key u hu)⟩

namespace Reserved

theorem step (h : Reserved e k key t) (n : Node) (event : Event) :
    Reserved (e.step n event).1 k key t := by
  obtain ⟨⟨keys, hfiled, ht⟩, hothers⟩ := h
  refine ⟨⟨_, filed_step hfiled fun _ _ _ _ _ => trivial, getElem?_append_of_some ht⟩, ?_⟩
  intro j task hj htask
  refine entitled_step (fun task => hothers j task hj) (fun _ => id) (fun key' u hu => ?_) htask
  exact (issued_of_turnOf hu).1 ▸ hfiled.ne_issued ht

/-- The ticket stays posted in an event that is not of its task, if no other task changes what is under
the key. -/
theorem posted_step (h : Reserved e k key t) (hposted : e.replies.Posted key t mail) {event : Event}
    (hrun : event ≠ .run k) (habort : event ≠ .abort k)
    (hothers : ∀ j turn, j ≠ k → e.turnOf n j event = some turn → ¬ turn.asked.op.OnKey key) :
    (e.step n event).1.replies.Posted key t (mail.or (event.reply? key)) := by
  obtain ⟨⟨keys, hfiled, ht⟩, hentitled⟩ := h
  refine Engine.posted_step hposted hfiled ht ?_ ?_
  · rintro j task u rfl htask hu
    exact (hentitled j task (fun hj => habort (congrArg Event.abort hj)) htask).held u hu
  · rintro j ⟨op, answer⟩ rfl hasked
    have hj : j ≠ k := fun hj => hrun (congrArg Event.run hj)
    have hturn : e.turnOf n j (.run j) = some ⟨e, op, answer⟩ := by
      unfold turnOf
      simp [hasked]
    have hspared := hothers j _ hj hturn
    cases op <;> try exact trivial
    case register key' => exact hspared
    case cancel key' => exact hspared
    case awaitReply u deadline =>
      obtain ⟨_, _, _, htask, -⟩ := asked?_eq_some_iff.mp hasked
      exact (hentitled j _ hj htask).awaits

end Reserved

def Clear (e : Engine) (key : ReplyKey) : Prop := ∀ u, e.replies.slot? key ≠ some (.waiting u)

/-- Nobody begins to wait under a key where no task changes what is there. -/
theorem Clear.step (h : Clear e key) (hsound : Sound e) {event : Event}
    (hothers : ∀ j turn, e.turnOf n j event = some turn → ¬ turn.asked.op.OnKey key) :
    Clear (e.step n event).1 key := by
  obtain ⟨keys, hfiled⟩ := hsound.filed
  have hchange := change_step n e event
  generalize e.step n event = after at hchange ⊢
  intro u hu
  cases hchange with
  | @deliver source datagram m decoded reply =>
    change (e.replies.deliver source m e.ageClock).2.slot? key = _ at hu
    by_cases hkey : key = (source, m.id)
    · subst hkey
      rw [(e.replies.deliver_free source m h _).1, if_pos rfl] at hu
      cases hu
    · rw [ReplyTable.slot?_deliver_of_ne hkey] at hu
      exact h u hu
  | @abort j gone =>
    cases hticket : gone.ticket with
    | none =>
      rw [hticket] at hu
      exact h u hu
    | some v =>
      rw [hticket] at hu
      exact h u hu
  | finish =>
    rw [replies_finish] at hu
    exact h u hu
  | @answer j duty ticket op next answer e' records htask hanswer =>
    have hspared := hothers j ⟨e, op, answer⟩ (turnOf_of_answer htask hanswer)
    obtain rfl := eq_afterOp_of_perform hanswer
    change (e.afterOp n op).replies.slot? key = _ at hu
    cases op <;> try exact h u hu
    case register key' =>
      change (e.replies.register key').2.slot? key = _ at hu
      rw [ReplyTable.slot?_register_of_ne (Ne.symm hspared)] at hu
      exact h u hu
    case cancel key' =>
      change (e.replies.cancel key').slot? key = _ at hu
      rw [ReplyTable.slot?_cancel, if_neg (Ne.symm hspared)] at hu
      exact h u hu
    case awaitReply v deadline =>
      change (e.replies.poll v).2.slot? key = _ at hu
      rw [ReplyTable.slot?_poll] at hu
      exact h u hu
    case beginPunch a =>
      rw [replies_beginPunch] at hu
      exact h u hu
  | sweep =>
    change (e.replies.reap _ _).2.slot? key = _ at hu
    rw [ReplyTable.slot?_reap _ hfiled.distinct] at hu
    exact h u (Option.filter_eq_some_iff.mp hu).1
  | _ => exact h u hu

theorem clock_step (n : Node) (e : Engine) (event : Event) :
    (e.step n event).1.clock = e.clock + event.elapsed := by
  have hchange := change_step n e event
  generalize e.step n event = after at hchange ⊢
  cases hchange with
  | @finish k duty => cases duty <;> rfl
  | answer _ hanswer => exact (frame_perform hanswer).clock
  | _ => rfl

end Engine
end TreeShare
