import TreeShare.Proofs.Engine.Custody
import TreeShare.Proofs.Engine.Moves

/-! Tasks that have a key of the reply table to themselves. Main statement: `unswept`, the wait of such a task
never ends because its slot is gone. -/
namespace TreeShare

/-! The ticket that a task stands with. -/

def Asked.stand (before : Option (ReplyKey × Ticket)) : Asked → Option (ReplyKey × Ticket)
  | ⟨.register key, t⟩ => some (key, t)
  | ⟨.awaitReply _ _, .silence⟩ => before
  | ⟨.awaitReply _ _, _⟩ => none
  | ⟨.cancel _, _⟩ => none
  | _ => before

/-- The ticket that a task stands with after a dialogue, and the key that it asked for. -/
def standing (log : List Asked) : Option (ReplyKey × Ticket) := log.foldl Asked.stand none

theorem standing_concat (log : List Asked) (asked : Asked) :
    standing (log ++ [asked]) = asked.stand (standing log) := by
  unfold standing
  rw [List.foldl_append]
  rfl

theorem mem_of_standing {log : List Asked} {key : ReplyKey} {t : Ticket}
    (h : standing log = some (key, t)) : ⟨.register key, t⟩ ∈ log := by
  induction log using List.reverseRecOn with
  | nil => contradiction
  | append_singleton log asked ih =>
    rw [standing_concat] at h
    have hold (hbefore : standing log = some (key, t)) : ⟨.register key, t⟩ ∈ log ++ [asked] :=
      List.mem_append_left _ (ih hbefore)
    unfold Asked.stand at h
    split at h
    · cases h
      simp
    · exact hold h
    · contradiction
    · contradiction
    · exact hold h

def Event.reply? (key : ReplyKey) : Event → Option Message
  | .receive source datagram =>
    (Engine.heard? datagram).filter fun m => !m.type.isRequest && decide (key = (source, m.id))
  | _ => none

def Op.Spares (key : ReplyKey) (t : Ticket) : Op → Prop
  | register key' | cancel key' => key' ≠ key
  | awaitReply u _ => t ≠ u
  | _ => True

namespace Engine

/-- No other task of a run asks for a key. -/
def Alone (n : Node) (e : Engine) (events : List Event) (k : Nat) (key : ReplyKey) : Prop :=
  ∀ j t, ⟨.register key, t⟩ ∈ e.dialogue n j events → j = k

/-- Tasks that stand with a ticket for a key of their own have it posted. -/
def AtPosts (n : Node) (e : Engine) (events : List Event) : Prop :=
  ∀ k task key t, (e.steps n events).1.tasks.get? k = some task →
    standing (e.dialogue n k events) = some (key, t) → Alone n e events k key →
      ∃ mail, (e.steps n events).1.replies.Posted key t mail

variable {n : Node} {e e' : Engine} {events : List Event} {k : Nat} {keys : List ReplyKey}

theorem Alone.earlier {more : List Event} {key : ReplyKey} (h : Alone n e (events ++ more) k key) :
    Alone n e events k key := by
  intro j t hmem
  apply h j t
  rw [dialogue_append]
  exact List.mem_append_left _ hmem

theorem lt_nextTask_of_mem_dialogue (hidle : Idle e) {asked : Asked}
    (h : asked ∈ e.dialogue n k events) : k < (e.steps n events).1.nextTask :=
  hidle.numbered.lt_of_mem_dialogue h

theorem task_of_later {event : Event} {task : Task} (hk : k < e.nextTask)
    (h : (e.step n event).1.tasks.get? k = some task) : ∃ before, e.tasks.get? k = some before := by
  cases hgone : e.tasks.get? k with
  | some before => exact ⟨before, rfl⟩
  | none =>
    have hlater := (gone_steps (n := n) hk hgone [event]).1
    rw [steps_cons, steps_nil] at hlater
    cases hlater.symm.trans h

theorem inbox_of_silence {t : Ticket} {deadline : Nat} {records : List Record}
    (h : e.perform n (.awaitReply t deadline) = some (.silence, e', records)) :
    e.replies.inbox t = .waiting := by
  unfold perform checkWait ReplyTable.poll at h
  cases hinbox : e.replies.inbox t with
  | waiting => rfl
  | _ => simp [hinbox] at h

theorem replies_beginPunch (n : Node) (e : Engine) (a : Address) :
    (e.afterOp n (.beginPunch a)).replies = e.replies := by
  dsimp only [afterOp]
  unfold Engine.beginPunch
  split <;> rfl

section

variable {heard : Address → Message → Prop} {key : ReplyKey} {t : Ticket} {mail : Option Message}

theorem posted_receive (hposted : e.replies.Posted key t mail) (hfiled : e.replies.Filed heard keys)
    (ht : keys[t.number]? = some key) (source : Address) (datagram : Bytes) :
    (e.step n (.receive source datagram)).1.replies.Posted key t
      (mail.or (Event.reply? key (.receive source datagram))) := by
  rw [step_receive]
  unfold Event.reply?
  dsimp only
  cases heard? datagram with
  | none => rwa [Option.filter_none, Option.or_none]
  | some m =>
    rw [Option.elim_some, Option.filter_some]
    unfold accept
    cases hrequest : m.type.isRequest with
    | true =>
      rw [Bool.not_true, Bool.false_and, if_neg Bool.false_ne_true, Option.or_none]
      exact hposted
    | false =>
      rw [Bool.not_false, Bool.true_and]
      simp only [decide_eq_true_eq]
      exact hposted.deliver hfiled ht _ _ _

/-- A ticket stays posted in an event that is no step of its task, if the other tasks leave it alone. A
reply that comes under its key is the one that it waits for, unless there was one before. -/
theorem posted_step (hposted : e.replies.Posted key t mail) (hfiled : e.replies.Filed heard keys)
    (ht : keys[t.number]? = some key) {event : Event}
    (hheld : ∀ j task u, event = .abort j → e.tasks.get? j = some task → task.ticket = some u → t ≠ u)
    (hasks : ∀ j asked, event = .run j → e.asked? n j = some asked → asked.op.Spares key t) :
    (e.step n event).1.replies.Posted key t (mail.or (event.reply? key)) := by
  by_cases hreceive : ∃ source datagram, event = .receive source datagram
  · obtain ⟨source, datagram, rfl⟩ := hreceive
    exact posted_receive hposted hfiled ht source datagram
  · have hnone : event.reply? key = none := by
      cases event <;> first | rfl | exact absurd ⟨_, _, rfl⟩ hreceive
    rw [hnone, Option.or_none]
    have hchange := change_step n e event
    generalize e.step n event = after at hchange ⊢
    cases hchange with
    | drop | deliver | serve => exact absurd ⟨_, _, rfl⟩ hreceive
    | @abort j gone hgone =>
      cases hticket : gone.ticket with
      | none => exact hposted
      | some u => exact hposted.abandon_other (hheld j gone u rfl hgone hticket)
    | finish =>
      rw [replies_finish]
      exact hposted
    | @answer j duty ticket op next answer e' records htask hanswer =>
      have hspares := hasks j _ rfl (asked?_of_perform htask hanswer)
      obtain rfl := eq_afterOp_of_perform hanswer
      change (e.afterOp n op).replies.Posted key t mail
      cases op <;> try exact hposted
      case register key' => exact hposted.register_other hfiled ht hspares
      case cancel key' => exact hposted.cancel_other hfiled ht hspares
      case awaitReply u deadline => exact hposted.poll_other hspares
      case beginPunch a =>
        rw [replies_beginPunch]
        exact hposted
    | sweep => exact hposted.reap hfiled _ _
    | _ => exact hposted

end

theorem posted_step_other (hidle : Idle e) (hcustody : Custody n e events keys) {key : ReplyKey}
    {t : Ticket} {mail : Option Message} (hposted : (e.steps n events).1.replies.Posted key t mail)
    (hregistered : ⟨.register key, t⟩ ∈ e.dialogue n k events) {event : Event}
    (halone : Alone n e (events ++ [event]) k key)
    (hturn : (e.steps n events).1.turnOf n k event = none) {task : Task}
    (htask : ((e.steps n events).1.step n event).1.tasks.get? k = some task) :
    ∃ mail, ((e.steps n events).1.step n event).1.replies.Posted key t mail := by
  have ht := hcustody.registered k key t hregistered
  -- A ticket of another task was issued for another key.
  have hother {j : Nat} (hj : j ≠ k) {key' : ReplyKey} {u : Ticket}
      (hu : ⟨.register key', u⟩ ∈ e.dialogue n j events) : key' ≠ key ∧ t ≠ u := by
    have hkey : key' ≠ key := by
      rintro rfl
      exact hj (halone.earlier j u hu)
    exact ⟨hkey, ReplyTable.Posted.ne_of_keys ht (hcustody.registered j key' u hu) hkey⟩
  refine ⟨_, posted_step hposted hcustody.replies ht ?_ ?_⟩
  · rintro j gone u rfl hgone hticket
    have hj : j ≠ k := by
      rintro rfl
      have hended : ((e.steps n events).1.step n (.abort j)).1.tasks.get? j = none := by
        simp [step, abort, hgone, hticket]
      cases hended.symm.trans htask
    obtain ⟨-, -, -, -, -, -, hheld⟩ := onErrand_steps hidle events hgone
    obtain ⟨key', hu⟩ := hheld u hticket
    exact (hother hj hu).2
  · rintro j ⟨op, answer⟩ rfl hasked
    have hj : j ≠ k := by
      rintro rfl
      unfold turnOf at hturn
      simp [hasked] at hturn
    have hjustified := justified_at hidle hasked
    cases op <;> try exact trivial
    case register key' =>
      rintro rfl
      refine hj (halone j answer ?_)
      have hanswered : ((e.steps n events).1.turnOf n j (.run j)).map Turn.asked =
          some ⟨.register key', answer⟩ := by
        unfold turnOf
        simp [hasked]
      rw [dialogue_concat_of_some hanswered]
      simp
    case cancel key' =>
      obtain ⟨u, hu⟩ := hjustified
      exact (hother hj hu).1
    case awaitReply u deadline =>
      obtain ⟨key', hu⟩ := hjustified
      exact (hother hj hu).2

theorem posted_afterOp {key : ReplyKey} {t : Ticket} {before : Option (ReplyKey × Ticket)}
    (hposted : before = some (key, t) → ∃ mail, e.replies.Posted key t mail) {op : Op}
    {answer : op.Answer} {records : List Record}
    (hanswer : e.perform n op = some (answer, e', records))
    (hstands : Asked.stand before ⟨op, answer⟩ = some (key, t)) :
    ∃ mail, (e.afterOp n op).replies.Posted key t mail := by
  cases op <;> try exact hposted hstands
  case register key' =>
    cases hanswer
    cases hstands
    exact ⟨_, e.replies.posted_register key⟩
  case cancel => contradiction
  case awaitReply u deadline =>
    cases answer with
    | reply m => contradiction
    | swept => contradiction
    | silence =>
      obtain ⟨mail, hmail⟩ := hposted hstands
      refine ⟨mail, hmail.congr (ReplyTable.slot?_poll ..) ?_⟩
      have hwaiting : e.replies.inbox u = .waiting := inbox_of_silence hanswer
      change (e.replies.poll u).2.inbox t = e.replies.inbox t
      unfold ReplyTable.poll
      rw [hwaiting]
  case beginPunch a =>
    rw [replies_beginPunch]
    exact hposted hstands

theorem AtPosts.step (h : AtPosts n e events) (hfresh : Fresh e) (event : Event) :
    AtPosts n e (events ++ [event]) := by
  intro k task key t htask hstands halone
  rw [steps_concat] at htask ⊢
  cases hturn : (e.steps n events).1.turnOf n k event with
  | none =>
    rw [dialogue_concat_of_none hturn] at hstands
    have hregistered := mem_of_standing hstands
    have hk := lt_nextTask_of_mem_dialogue hfresh.idle hregistered
    obtain ⟨before, hbefore⟩ := task_of_later hk htask
    obtain ⟨mail, hposted⟩ := h k before key t hbefore hstands halone.earlier
    obtain ⟨keys, hcustody⟩ := custody_steps hfresh n events
    exact posted_step_other hfresh.idle hcustody hposted hregistered halone hturn htask
  | some turn =>
    obtain ⟨rfl, -, hasked⟩ := turnOf_eq_some hturn
    rw [dialogue_concat_of_some (by rw [hturn]; rfl), standing_concat] at hstands
    obtain ⟨duty, ticket, next, hbefore, e', records, hanswer⟩ := asked?_eq_some_iff.mp hasked
    rw [step_run_of_answer hbefore hanswer]
    change ∃ mail, e'.replies.Posted key t mail
    rw [eq_afterOp_of_perform hanswer]
    refine posted_afterOp (fun hbefore' => ?_) hanswer hstands
    exact h k _ key t hbefore hbefore' halone.earlier

theorem atPosts_steps (hfresh : Fresh e) (n : Node) (events : List Event) : AtPosts n e events := by
  induction events using List.reverseRecOn with
  | nil =>
    intro k task key t htask
    rw [steps_nil, hfresh.idle k] at htask
    contradiction
  | append_singleton events event ih => exact ih.step hfresh event

/-- A task that waits where it stands, alone with its key, is not told that its slot is gone. -/
theorem unswept (hfresh : Fresh e) {t : Ticket} {deadline : Nat} {wait : Wait} {key : ReplyKey}
    (hasked : (e.steps n events).1.asked? n k = some ⟨.awaitReply t deadline, wait⟩)
    (hstands : standing (e.dialogue n k events) = some (key, t)) (halone : Alone n e events k key) :
    wait ≠ .swept := by
  obtain ⟨duty, ticket, next, htask, e', records, hanswer⟩ := asked?_eq_some_iff.mp hasked
  obtain ⟨mail, hposted⟩ := atPosts_steps hfresh n events k _ key t htask hstands halone
  rintro rfl
  cases mail with
  | none =>
    rw [perform_awaitReply_waiting hposted.2] at hanswer
    split at hanswer <;> cases hanswer
  | some r =>
    rw [perform_awaitReply_holding hposted.2] at hanswer
    cases hanswer

end Engine
end TreeShare
