import TreeShare.Proofs.Engine.Errands
import TreeShare.Proofs.Engine.Provenance

/-! Who holds which ticket in a run, and where the replies come from that it is told. Main statement:
`custody_steps`. -/
namespace TreeShare

theorem ReplyTable.Filed.perform {heard : Address → Message → Prop} {keys : List ReplyKey} {n : Node}
    {e e' : Engine} (h : e.replies.Filed heard keys) {op : Op} {answer : op.Answer}
    {records : List Record} (hanswer : e.perform n op = some (answer, e', records)) :
    e'.replies.Filed heard (keys ++ Engine.issuedBy op) := by
  obtain rfl := Engine.eq_afterOp_of_perform hanswer
  cases op <;> simp only [Engine.issuedBy, List.append_nil]
  case register key => exact h.register key
  case cancel key => exact h.cancel key
  case awaitReply t deadline => exact h.poll t
  case beginPunch a =>
    dsimp only [Engine.afterOp]
    unfold Engine.beginPunch
    split <;> exact h
  all_goals exact h

namespace Engine

variable {n : Node} {e e' : Engine} {events : List Event} {k : Nat} {keys : List ReplyKey}

theorem replies_finish (n : Node) (e : Engine) (k : Nat) (duty : Duty) (o : Outcome) :
    (e.finish n k duty o).1.replies = e.replies := by
  cases duty <;> rfl

def issuedIn (n : Node) (e : Engine) : Event → List ReplyKey
  | .run k => ((e.asked? n k).map fun asked => issuedBy asked.op).getD []
  | _ => []

theorem issuedIn_of_none (h : e.asked? n k = none) : e.issuedIn n (.run k) = [] := by
  simp [issuedIn, h]

theorem issuedIn_of_some {asked : Asked} (h : e.asked? n k = some asked) :
    e.issuedIn n (.run k) = issuedBy asked.op := by
  simp [issuedIn, h]

theorem filed_run {heard : Address → Message → Prop} (h : e.replies.Filed heard keys) (k : Nat) :
    (e.step n (.run k)).1.replies.Filed heard (keys ++ e.issuedIn n (.run k)) := by
  cases htask : e.tasks.get? k with
  | none =>
    rw [step_run_of_none htask, issuedIn_of_none (by simp [asked?, htask]), List.append_nil]
    exact h
  | some t =>
    obtain ⟨duty, ticket, program⟩ := t
    cases program with
    | done o =>
      rw [step_run_of_done htask, replies_finish, issuedIn_of_none (by simp [asked?, htask]),
        List.append_nil]
      exact h
    | ask op next =>
      cases hanswer : e.perform n op with
      | none =>
        rw [step_run_of_waits htask hanswer, issuedIn_of_none (by simp [asked?, htask, hanswer]),
          List.append_nil]
        exact h
      | some x =>
        obtain ⟨answer, e', records⟩ := x
        rw [step_run_of_answer htask hanswer, issuedIn_of_some (asked?_of_perform htask hanswer)]
        have hfiled : e'.replies.Filed heard (keys ++ issuedBy op) := h.perform hanswer
        exact hfiled

theorem filed_step {heard : Address → Message → Prop} (h : e.replies.Filed heard keys) {event : Event}
    (hheard : ∀ source datagram m, event = .receive source datagram → heard? datagram = some m →
      heard source m) :
    (e.step n event).1.replies.Filed heard (keys ++ e.issuedIn n event) := by
  cases event with
  | run k => exact filed_run h k
  | receive source datagram =>
    simp only [step_receive, issuedIn, List.append_nil]
    cases hm : heard? datagram with
    | none => exact h
    | some m =>
      rw [Option.elim_some]
      unfold accept
      split
      · exact h
      · exact h.deliver (hheard source datagram m rfl hm) _
  | keepAlive =>
    simp only [issuedIn, List.append_nil]
    unfold step
    dsimp only
    split <;> exact h
  | abort k =>
    have hchange := change_step n e (.abort k)
    simp only [issuedIn, List.append_nil]
    generalize e.step n (.abort k) = after at hchange ⊢
    cases hchange with
    | noTask => exact h
    | @abort _ t =>
      cases ht : t.ticket with
      | none => exact h
      | some ticket => exact h.abandon ticket
  | sweep =>
    have hchange := change_step n e .sweep
    simp only [issuedIn, List.append_nil]
    generalize e.step n .sweep = after at hchange ⊢
    cases hchange with
    | notDue => exact h
    | sweep => exact h.reap _ _
  | _ =>
    simp only [issuedIn, List.append_nil]
    exact h

/-- A ticket was issued for the key that it was registered under. A reply that it brought came from there,
and so did all that the table holds. -/
structure Custody (n : Node) (e : Engine) (events : List Event) (keys : List ReplyKey) : Prop where
  replies : (e.steps n events).1.replies.Filed (Heard events) keys
  registered : ∀ k key t, ⟨.register key, t⟩ ∈ e.dialogue n k events → keys[t.number]? = some key
  told : ∀ k t deadline m, ⟨.awaitReply t deadline, .reply m⟩ ∈ e.dialogue n k events →
    ∃ key, keys[t.number]? = some key ∧ Heard events key.1 m

structure Fresh (e : Engine) : Prop where
  idle : Idle e
  replies : e.replies = .empty

theorem fresh_start (n : Node) (network : Network) (directory : Directory) (disk : Disk) :
    Fresh (start n network directory disk) := ⟨idle_start n network directory disk, rfl⟩

theorem Fresh.custody (h : Fresh e) (n : Node) : Custody n e [] [] where
  replies := by
    rw [steps_nil, h.replies]
    exact .start
  registered _ _ _ hmem := nomatch hmem
  told _ _ _ _ hmem := nomatch hmem

theorem Custody.step (h : Custody n e events keys) (event : Event) :
    Custody n e (events ++ [event]) (keys ++ (e.steps n events).1.issuedIn n event) where
  replies := by
    rw [steps_concat]
    refine filed_step (h.replies.imp fun _ _ hm => hm.later) fun source datagram m hevent hm => ?_
    exact ⟨datagram, by simp [hevent], hm⟩
  registered k key t hmem := by
    rcases mem_dialogue_concat hmem with hmem | ⟨rfl, hasked⟩
    · exact getElem?_append_of_some (h.registered k key t hmem)
    · obtain ⟨-, -, -, -, e', records, hanswer⟩ := asked?_eq_some_iff.mp hasked
      cases hanswer
      rw [issuedIn_of_some hasked]
      change (keys ++ [key])[((e.steps n events).1.replies.register key).1.number]? = some key
      rw [ReplyTable.ticket_register, h.replies.issued, List.getElem?_concat_length]
  told k t deadline m hmem := by
    rcases mem_dialogue_concat hmem with hmem | ⟨rfl, hasked⟩
    · obtain ⟨key, hkey, hheard⟩ := h.told k t deadline m hmem
      exact ⟨key, getElem?_append_of_some hkey, hheard.later⟩
    · obtain ⟨-, -, -, -, e', records, hanswer⟩ := asked?_eq_some_iff.mp hasked
      obtain ⟨⟨w, p⟩, hwait, hx⟩ := Option.map_eq_some_iff.mp hanswer
      cases hx
      have hfits := h.replies.inboxes t
      rw [(poll_of_checkWait hwait).2 m rfl] at hfits
      obtain ⟨key, hkey, hheard⟩ := hfits
      exact ⟨key, getElem?_append_of_some hkey, hheard.later⟩

/-- So it is after any run of an engine that nothing had happened to. -/
theorem custody_steps (hfresh : Fresh e) (n : Node) (events : List Event) :
    ∃ keys, Custody n e events keys := by
  induction events using List.reverseRecOn with
  | nil => exact ⟨[], hfresh.custody n⟩
  | append_singleton events event ih =>
    obtain ⟨keys, h⟩ := ih
    exact ⟨_, h.step event⟩

theorem Custody.heard (h : Custody n e events keys) {a : Address} {id : UInt32} {t : Ticket}
    (hregistered : ⟨.register (a, id), t⟩ ∈ e.dialogue n k events) {deadline : Nat} {m : Message}
    (htold : ⟨.awaitReply t deadline, .reply m⟩ ∈ e.dialogue n k events) : Heard events a m := by
  obtain ⟨key, hkey, hheard⟩ := h.told k t deadline m htold
  cases Option.some.inj (hkey.symm.trans (h.registered k (a, id) t hregistered))
  exact hheard

theorem heard_of_accepted (hfresh : Fresh e) {a : Address} {id : UInt32} {r : Message}
    {check log : List Asked} (h : Accepted n a id r check log)
    (hlog : log ⊆ e.dialogue n k events) : Heard events a r := by
  obtain ⟨past, t, deadline, later, rfl, ht, -⟩ := h
  obtain ⟨keys, hcustody⟩ := custody_steps hfresh n events
  have hregistered : ⟨.register (a, id), t⟩ ∈ e.dialogue n k events := hlog (by simp [ht])
  have htold : ⟨.awaitReply t deadline, .reply r⟩ ∈ e.dialogue n k events := hlog (by simp)
  exact hcustody.heard hregistered htold

theorem grounded_of_runs (n : Node) (errand : Errand) (p : Proc Outcome) (log : List Asked)
    (h : errand.Runs n p) : p.Obeys (Op.Grounded n errand.served) log := by
  cases h with
  | call c => exact n.run_grounded c
  | serve source m => exact obeys_silent (n.serve_grounded source m)
  | punch a => exact obeys_silent (n.punch_grounded a)
  | keepAlive due => exact obeys_silent (n.keepAliveRound_grounded due)

theorem justified_at (hidle : Idle e) {asked : Asked}
    (hasked : (e.steps n events).1.asked? n k = some asked) :
    asked.op.Justified (e.dialogue n k events) := by
  obtain ⟨errand, -, hgrounded⟩ := obeys_at (grounded_of_runs n) hidle hasked
  exact Op.Grounded.justified hgrounded

theorem after_of_call {c : Call} {after : List Event} {t : Task}
    (ht : (e.steps n (.call c :: after)).1.tasks.get? e.nextTask = some t) :
    (n.run c).After (e.dialogue n e.nextTask (.call c :: after)) t.program := by
  have hduty : ∀ next, Duty.call ≠ .keepAlive next := nofun
  have hfate := fate (n := n) hduty (Nat.lt_succ_self e.nextTask) (get?_spawn e .call (n.run c)) after
  change ((e.spawn .call (n.run c)).2.steps n after).1.tasks.get? e.nextTask = some t at ht
  rw [ht] at hfate
  rw [dialogue_cons]
  cases hfate with
  | live path => exact path

theorem after_of_call_ended {c : Call} {after : List Event} {o : Outcome}
    (h : .ended e.nextTask o ∈ (e.steps n (.call c :: after)).2) :
    (n.run c).After (e.dialogue n e.nextTask (.call c :: after)) (.done o) := by
  rw [dialogue_cons]
  exact after_of_ended (Nat.lt_succ_self _) (get?_spawn e .call (n.run c)) h

/-! What was sent. -/

theorem records_step_of_sent {event : Event} {target : Address} {datagram : Bytes}
    (h : .sent target datagram ∈ (e.step n event).2) :
    ∃ k, event = .run k ∧ e.asked? n k = some ⟨.transmit target datagram, true⟩ := by
  have hchange := change_step n e event
  generalize e.step n event = after at hchange h
  cases hchange with
  | finish =>
    rename_i duty _ _ _
    cases duty <;> simp [Engine.finish] at h
  | @answer k duty ticket op next answer e' records htask hanswer =>
    refine ⟨k, rfl, ?_⟩
    rw [asked?_of_perform htask hanswer]
    cases op
    case transmit =>
      unfold perform at hanswer
      dsimp only at hanswer
      split at hanswer
      · cases hanswer
        cases List.mem_singleton.mp h
        rfl
      · cases hanswer
        contradiction
    case awaitReply =>
      obtain ⟨x, -, hx⟩ := Option.map_eq_some_iff.mp hanswer
      cases hx
      contradiction
    case awaitTime =>
      unfold perform at hanswer
      dsimp only at hanswer
      split at hanswer <;> cases hanswer
      contradiction
    case halt => cases hanswer
    all_goals
      cases hanswer
      contradiction
  | _ => contradiction

theorem asked_of_sent {target : Address} {datagram : Bytes}
    (h : .sent target datagram ∈ (e.steps n events).2) :
    ∃ past k later, events = past ++ .run k :: later ∧
      (e.steps n past).1.asked? n k = some ⟨.transmit target datagram, true⟩ := by
  induction events generalizing e with
  | nil => contradiction
  | cons event events ih =>
    rcases List.mem_append.mp h with h | h
    · obtain ⟨k, rfl, hasked⟩ := records_step_of_sent h
      exact ⟨[], k, events, rfl, hasked⟩
    · obtain ⟨past, k, later, rfl, hasked⟩ := ih h
      exact ⟨event :: past, k, later, rfl, hasked⟩

end Engine
end TreeShare
