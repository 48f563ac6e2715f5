import Mathlib.Data.List.Induction
import TreeShare.Proofs.Engine.Listening

/-! What each task of a run is there for. Main statement: `onErrand_steps`, every task is on its way through
a program of the errand that it was started on, with the answers of its dialogue. -/
namespace TreeShare

inductive Errand where
  | call (c : Call)
  | serve (source : Address) (m : Message)
  | punch (initiator : Address)
  | keepAlive

namespace Errand

def served : Errand → Option (Address × Message)
  | serve source m => some (source, m)
  | _ => none

/-- The programs of an errand. Greeting the server has one for each round. -/
inductive Runs (n : Node) : Errand → Proc Outcome → Prop
  | call (c : Call) : Runs n (.call c) (n.run c)
  | serve (source : Address) (m : Message) :
      Runs n (.serve source m) (Engine.silent (n.serve source m))
  | punch (a : Address) : Runs n (.punch a) (Engine.silent (n.punch a))
  | keepAlive (due : Nat) : Runs n .keepAlive (Engine.silent (n.keepAliveRound due))

inductive Bears : Errand → Duty → Prop
  | call (c : Call) : Bears (.call c) .call
  | serve (source : Address) (m : Message) : Bears (.serve source m) .service
  | punch (a : Address) : Bears (.punch a) (.punch a)
  | keepAlive (next : Nat) : Bears .keepAlive (.keepAlive next)

end Errand

namespace Engine

def errandOf (n : Node) (e : Engine) : Event → Option Errand
  | .receive source datagram => ((heard? datagram).filter (·.type.isRequest)).map (.serve source)
  | .call c => some (.call c)
  | .keepAlive => if n.settings.keepAlive = 0 then none else some .keepAlive
  | .run k =>
    match e.asked? n k with
    | some ⟨.beginPunch a, _⟩ => if e.punches.contains a then none else some (.punch a)
    | _ => none
  | _ => none

inductive Starts : Event → Errand → Prop
  | serve {source : Address} {datagram : Bytes} {m : Message} (heard : heard? datagram = some m) :
      Starts (.receive source datagram) (.serve source m)
  | call (c : Call) : Starts (.call c) (.call c)
  | keepAlive : Starts .keepAlive .keepAlive
  | punch (k : Nat) (a : Address) : Starts (.run k) (.punch a)

/-- Some event of a run started a task, of this number, on an errand. -/
def Started (n : Node) (e : Engine) (events : List Event) (k : Nat) (errand : Errand) : Prop :=
  ∃ past event later, events = past ++ event :: later ∧ (e.steps n past).1.nextTask = k ∧
    (e.steps n past).1.errandOf n event = some errand

/-- A task goes through a program of its errand, with a ticket that it was given if it has one. What it was
told before belongs to earlier rounds. -/
inductive OnErrand (n : Node) (e : Engine) (events : List Event) (k : Nat) (t : Task) : Prop
  | mk (earlier : List Asked) {errand : Errand} {p : Proc Outcome} {log : List Asked}
      (started : Started n e events k errand) (bears : errand.Bears t.duty) (runs : errand.Runs n p)
      (dialogue : e.dialogue n k events = earlier ++ log) (path : p.After log t.program)
      (ticket : ∀ u, t.ticket = some u → ∃ key, ⟨.register key, u⟩ ∈ e.dialogue n k events) :
      OnErrand n e events k t

def Numbered (e : Engine) : Prop := ∀ k t, e.tasks.get? k = some t → k < e.nextTask

variable {n : Node} {e e' : Engine} {events : List Event} {k j : Nat} {t : Task}

theorem Started.later {errand : Errand} (h : Started n e events k errand) (more : List Event) :
    Started n e (events ++ more) k errand := by
  obtain ⟨past, event, later, rfl, hk, herrand⟩ := h
  exact ⟨past, event, later ++ more, by simp, hk, herrand⟩

theorem starts_of_errandOf {event : Event} {errand : Errand}
    (h : e.errandOf n event = some errand) : Starts event errand := by
  cases event with
  | receive source datagram =>
    obtain ⟨m, hm, rfl⟩ := Option.map_eq_some_iff.mp h
    exact .serve (Option.filter_eq_some_iff.mp hm).1
  | call c =>
    cases h
    exact .call c
  | keepAlive =>
    obtain ⟨-, hkeeps⟩ := Option.ite_none_left_eq_some.mp h
    cases hkeeps
    exact .keepAlive
  | run k =>
    unfold errandOf at h
    dsimp only at h
    split at h
    · obtain ⟨-, hpunch⟩ := Option.ite_none_left_eq_some.mp h
      cases hpunch
      exact .punch k _
    · contradiction
  | _ => contradiction

theorem heard_of_started {source : Address} {m : Message}
    (h : Started n e events k (.serve source m)) :
    ∃ datagram, .receive source datagram ∈ events ∧ heard? datagram = some m := by
  obtain ⟨past, event, later, rfl, -, herrand⟩ := h
  cases starts_of_errandOf herrand with
  | serve heard => exact ⟨_, by simp, heard⟩

theorem called_of_started {c : Call} (h : Started n e events k (.call c)) : .call c ∈ events := by
  obtain ⟨past, event, later, rfl, -, herrand⟩ := h
  cases starts_of_errandOf herrand with
  | call => simp

/-! Tasks that an answer adds. -/

theorem tasks_afterOp {op : Op} (h : (e.afterOp n op).tasks.get? j = some t) :
    e.tasks.get? j = some t ∨ ∃ a, op = .beginPunch a ∧ e.punches.contains a = false ∧
      j = e.nextTask ∧ t = ⟨.punch a, none, silent (n.punch a)⟩ := by
  cases op with
  | beginPunch a =>
    dsimp only [afterOp] at h
    unfold beginPunch at h
    split at h
    · exact .inl h
    · rename_i hnew
      unfold spawn at h
      rw [Table.get?_set] at h
      split at h
      · rename_i hj
        cases h
        exact .inr ⟨a, rfl, by simpa using hnew, hj, rfl⟩
      · exact .inl h
  | _ => exact .inl h

theorem Numbered.spawn (h : Numbered e) (duty : Duty) (p : Proc Outcome) :
    Numbered (e.spawn duty p).2 := by
  intro k t ht
  unfold Engine.spawn at ht
  rw [Table.get?_set] at ht
  split at ht
  · rename_i hk
    exact hk ▸ Nat.lt_succ_self _
  · exact Nat.lt_succ_of_lt (h k t ht)

theorem Numbered.endTask (h : Numbered e) (k : Nat) : Numbered (e.endTask k) := by
  intro j t ht
  rw [get?_endTask] at ht
  split at ht
  · contradiction
  · exact h j t ht

theorem Numbered.setTask (h : Numbered e) (hk : k < e.nextTask) (t : Task) :
    Numbered (e.setTask k t) := by
  intro j u hu
  rw [get?_setTask] at hu
  split at hu
  · rename_i hj
    exact hj ▸ hk
  · exact h j u hu

theorem Numbered.perform (h : Numbered e) {op : Op} {answer : op.Answer} {records : List Record}
    (hanswer : e.perform n op = some (answer, e', records)) : Numbered e' := by
  intro j t ht
  have hnext := (frame_perform hanswer).nextTask
  obtain rfl := eq_afterOp_of_perform hanswer
  rcases tasks_afterOp ht with ht | ⟨a, rfl, hnew, rfl, -⟩
  · exact Nat.lt_of_lt_of_le (h j t ht) hnext
  · dsimp only [afterOp]
    unfold beginPunch
    rw [if_neg (by simpa using hnew)]
    exact Nat.lt_succ_self _

theorem Numbered.step (h : Numbered e) (event : Event) : Numbered (e.step n event).1 := by
  have hchange := change_step n e event
  generalize e.step n event = after at hchange ⊢
  cases hchange with
  | serve | call | keepAlive => exact h.spawn _ _
  | abort => exact Numbered.endTask (e := { e with replies := _ }) h _
  | @finish k duty ticket o htask =>
    cases duty with
    | call => exact h.endTask k
    | service => exact h.endTask k
    | punch a => exact Numbered.endTask (e := { e with punches := _ }) h k
    | keepAlive next => exact h.setTask (h k _ htask) _
  | answer htask hanswer =>
    have hk := Nat.lt_of_lt_of_le (h _ _ htask) (frame_perform hanswer).nextTask
    exact (h.perform hanswer).setTask hk _
  | _ => exact h

theorem Numbered.steps (h : Numbered e) (events : List Event) : Numbered (e.steps n events).1 := by
  have hstep (e : Engine) (event : Event) (_ : True) (he : Numbered e) :
      Numbered (e.step n event).1 := he.step event
  exact steps_invariant hstep h fun _ _ => trivial

theorem Numbered.lt_of_mem_dialogue (h : Numbered e) {asked : Asked}
    (hmem : asked ∈ e.dialogue n k events) : k < (e.steps n events).1.nextTask := by
  obtain ⟨turn, hturn, -⟩ := List.mem_map.mp hmem
  obtain ⟨past, later, rfl, hengine, hasked⟩ := exists_of_mem_turns hturn
  rw [hengine] at hasked
  obtain ⟨_, _, _, htask, -⟩ := asked?_eq_some_iff.mp hasked
  have hk := (h.steps (n := n) past) k _ htask
  rw [steps_append]
  exact Nat.lt_of_lt_of_le hk (nextTask_steps n _ _)

/-! What an event makes of the tasks and their dialogues. -/

theorem steps_concat (n : Node) (e : Engine) (events : List Event) (event : Event) :
    (e.steps n (events ++ [event])).1 = ((e.steps n events).1.step n event).1 := by
  rw [steps_append]
  rfl

theorem dialogue_concat (n : Node) (k : Nat) (e : Engine) (events : List Event) (event : Event) :
    e.dialogue n k (events ++ [event]) = e.dialogue n k events ++
      (((e.steps n events).1.turnOf n k event).map Turn.asked).toList := by
  rw [dialogue_append, dialogue_cons]
  exact congrArg _ (List.append_nil _)

theorem dialogue_concat_of_none {event : Event}
    (hturn : (e.steps n events).1.turnOf n k event = none) :
    e.dialogue n k (events ++ [event]) = e.dialogue n k events := by
  rw [dialogue_concat, hturn]
  exact List.append_nil _

theorem dialogue_concat_of_some {event : Event} {asked : Asked}
    (hturn : ((e.steps n events).1.turnOf n k event).map Turn.asked = some asked) :
    e.dialogue n k (events ++ [event]) = e.dialogue n k events ++ [asked] := by
  rw [dialogue_concat, hturn]
  rfl

theorem mem_dialogue_concat {event : Event} {asked : Asked}
    (h : asked ∈ e.dialogue n k (events ++ [event])) :
    asked ∈ e.dialogue n k events ∨
      event = .run k ∧ (e.steps n events).1.asked? n k = some asked := by
  cases hturn : (e.steps n events).1.turnOf n k event with
  | none =>
    rw [dialogue_concat_of_none hturn] at h
    exact .inl h
  | some turn =>
    obtain ⟨hevent, -, hasked⟩ := turnOf_eq_some hturn
    have hanswered : ((e.steps n events).1.turnOf n k event).map Turn.asked = some turn.asked := by
      rw [hturn]
      rfl
    rw [dialogue_concat_of_some hanswered] at h
    rcases List.mem_append.mp h with h | h
    · exact .inl h
    · exact .inr ⟨hevent, List.mem_singleton.mp h ▸ hasked⟩

theorem OnErrand.waits (h : OnErrand n e events k t) {event : Event}
    (hturn : (e.steps n events).1.turnOf n k event = none) :
    OnErrand n e (events ++ [event]) k t := by
  have hdialogue := dialogue_concat_of_none hturn
  obtain ⟨earlier, started, bears, runs, dialogue, path, ticket⟩ := h
  refine .mk earlier (started.later _) bears runs (hdialogue.trans dialogue) path ?_
  rwa [hdialogue]

theorem OnErrand.answered {duty : Duty} {ticket : Option Ticket} {op : Op}
    {next : op.Answer → Proc Outcome} (h : OnErrand n e events k ⟨duty, ticket, .ask op next⟩)
    {answer : op.Answer} {event : Event}
    (hturn : ((e.steps n events).1.turnOf n k event).map Turn.asked = some ⟨op, answer⟩) :
    OnErrand n e (events ++ [event]) k ⟨duty, heldTicket ticket op answer, next answer⟩ := by
  have hdialogue := dialogue_concat_of_some hturn
  obtain ⟨earlier, started, bears, runs, dialogue, path, hticket⟩ := h
  refine .mk earlier (started.later _) bears runs ?_ (path.append (.ask (.start _))) fun u hu => ?_
  · rw [hdialogue, dialogue, List.append_assoc]
  · rw [hdialogue]
    cases op with
    | register key =>
      cases hu
      exact ⟨key, by simp⟩
    | _ => exact (hticket u hu).imp fun key hmem => List.mem_append_left _ hmem

theorem onErrand_new {event : Event} {errand : Errand}
    (herrand : (e.steps n events).1.errandOf n event = some errand) {duty : Duty}
    (hduty : errand.Bears duty) {p : Proc Outcome} (hp : errand.Runs n p) :
    OnErrand n e (events ++ [event]) (e.steps n events).1.nextTask ⟨duty, none, p⟩ :=
  .mk _ ⟨events, event, [], rfl, rfl, herrand⟩ hduty hp (List.append_nil _).symm (.start p) nofun

theorem OnErrand.again {next next' : Nat} {ticket : Option Ticket} {p : Proc Outcome}
    (h : OnErrand n e events k ⟨.keepAlive next, ticket, p⟩) {event : Event} (due : Nat) :
    OnErrand n e (events ++ [event]) k ⟨.keepAlive next', none, silent (n.keepAliveRound due)⟩ := by
  obtain ⟨-, started, bears, -, -, -, -⟩ := h
  cases bears
  exact .mk _ (started.later _) (.keepAlive _) (.keepAlive due) (List.append_nil _).symm (.start _) nofun

theorem onErrand_spawn
    (h : ∀ k t, (e.steps n events).1.tasks.get? k = some t → OnErrand n e events k t)
    {event : Event} (hturn : ∀ k, (e.steps n events).1.turnOf n k event = none) {errand : Errand}
    (herrand : (e.steps n events).1.errandOf n event = some errand) {duty : Duty}
    (hduty : errand.Bears duty) {p : Proc Outcome} (hp : errand.Runs n p)
    (ht : ((e.steps n events).1.spawn duty p).2.tasks.get? k = some t) :
    OnErrand n e (events ++ [event]) k t := by
  unfold spawn at ht
  rw [Table.get?_set] at ht
  split at ht
  · rename_i hk
    cases ht
    exact hk ▸ onErrand_new herrand hduty hp
  · exact (h k t ht).waits (hturn k)

theorem onErrand_run
    (h : ∀ k t, (e.steps n events).1.tasks.get? k = some t → OnErrand n e events k t)
    (ht : ((e.steps n events).1.step n (.run j)).1.tasks.get? k = some t) :
    OnErrand n e (events ++ [.run j]) k t := by
  have hother (hne : k ≠ j) : (e.steps n events).1.turnOf n k (.run j) = none := if_neg hne.symm
  cases htask : (e.steps n events).1.tasks.get? j with
  | none =>
    rw [step_run_of_none htask] at ht
    apply (h k t ht).waits
    by_cases hk : k = j
    · cases hk
      exact turnOf_of_none htask _
    · exact hother hk
  | some u =>
    obtain ⟨duty, ticket, program⟩ := u
    cases program with
    | done o =>
      rw [step_run_of_done htask] at ht
      have hturn : (e.steps n events).1.turnOf n k (.run j) = none := by
        by_cases hk : k = j
        · cases hk
          exact turnOf_of_done htask
        · exact hother hk
      by_cases hk : k = j
      · cases hk
        cases duty with
        | keepAlive next =>
          simp only [finish, get?_setTask, if_true] at ht
          cases ht
          exact (h k _ htask).again next
        | _ => simp [finish] at ht
      · rw [(finish_of_ne hk duty o).1] at ht
        exact (h k t ht).waits hturn
    | ask op next =>
      cases hanswer : (e.steps n events).1.perform n op with
      | none =>
        rw [step_run_of_waits htask hanswer] at ht
        apply (h k t ht).waits
        by_cases hk : k = j
        · cases hk
          exact turnOf_of_waits htask hanswer
        · exact hother hk
      | some x =>
        obtain ⟨answer, e', records⟩ := x
        rw [step_run_of_answer htask hanswer, get?_setTask] at ht
        split at ht
        · rename_i hk
          cases hk
          cases ht
          exact (h k _ htask).answered (by rw [turnOf_of_answer htask hanswer]; rfl)
        · rename_i hk
          obtain rfl := eq_afterOp_of_perform hanswer
          rcases tasks_afterOp ht with hold | ⟨a, rfl, hnew, rfl, rfl⟩
          · exact (h k t hold).waits (hother hk)
          · apply onErrand_new _ (.punch a) (.punch a)
            have hasked : (e.steps n events).1.asked? n j = some ⟨.beginPunch a, answer⟩ :=
              asked?_eq_some_iff.mpr ⟨_, _, _, htask, _, _, hanswer⟩
            unfold errandOf
            simp only [hasked, hnew]
            rfl

theorem onErrand_step
    (h : ∀ k t, (e.steps n events).1.tasks.get? k = some t → OnErrand n e events k t) {event : Event}
    (ht : ((e.steps n events).1.step n event).1.tasks.get? k = some t) :
    OnErrand n e (events ++ [event]) k t := by
  cases event with
  | run j => exact onErrand_run h ht
  | receive source datagram =>
    rw [step_receive] at ht
    cases hm : heard? datagram with
    | none =>
      rw [hm] at ht
      exact (h k t ht).waits rfl
    | some m =>
      rw [hm, Option.elim_some] at ht
      unfold accept at ht
      split at ht
      · rename_i hrequest
        refine onErrand_spawn h (fun _ => rfl) ?_ (.serve source m) (.serve source m) ht
        unfold errandOf
        simp [hm, hrequest]
      · exact (h k t ht).waits rfl
  | call c => exact onErrand_spawn h (fun _ => rfl) rfl (.call c) (.call c) ht
  | keepAlive =>
    unfold step at ht
    dsimp only at ht
    split at ht
    · exact (h k t ht).waits rfl
    · rename_i hinterval
      exact onErrand_spawn h (fun _ => rfl) (if_neg hinterval) (.keepAlive _) (.keepAlive _) ht
  | abort j =>
    refine (h k t ?_).waits rfl
    have hchange := change_step n (e.steps n events).1 (.abort j)
    generalize (e.steps n events).1.step n (.abort j) = after at hchange ht
    cases hchange with
    | noTask => exact ht
    | abort =>
      rw [get?_endTask] at ht
      split at ht
      · contradiction
      · exact ht
  | sweep =>
    refine (h k t ?_).waits rfl
    have hchange := change_step n (e.steps n events).1 .sweep
    generalize (e.steps n events).1.step n .sweep = after at hchange ht
    cases hchange <;> exact ht
  | _ => exact (h k t ht).waits rfl

/-! The tasks that are there after an event, without their errands. -/

/-- How a task that is there after an event came to be so. -/
inductive Came (n : Node) (e : Engine) (event : Event) (k : Nat) : Task → Prop
  | stayed {t : Task} (task : e.tasks.get? k = some t) (turn : e.turnOf n k event = none) :
      Came n e event k t
  | answered {duty : Duty} {ticket : Option Ticket} {op : Op} {next : op.Answer → Proc Outcome}
      {answer : op.Answer} (task : e.tasks.get? k = some ⟨duty, ticket, .ask op next⟩)
      (turn : (e.turnOf n k event).map Turn.asked = some ⟨op, answer⟩) :
      Came n e event k ⟨duty, heldTicket ticket op answer, next answer⟩
  /-- It is new, or greets the server once more. -/
  | began {errand : Errand} {duty : Duty} {p : Proc Outcome} (runs : errand.Runs n p)
      (turn : e.turnOf n k event = none) (fresh : k = e.nextTask ∨ ∃ t, e.tasks.get? k = some t) :
      Came n e event k ⟨duty, none, p⟩

theorem came_of_spawn {event : Event} {duty : Duty} {p : Proc Outcome} {errand : Errand} {t : Task}
    (hturn : e.turnOf n k event = none) (hruns : errand.Runs n p)
    (ht : (e.spawn duty p).2.tasks.get? k = some t) : Came n e event k t := by
  unfold spawn at ht
  rw [Table.get?_set] at ht
  split at ht
  · rename_i hk
    cases ht
    exact .began hruns hturn (.inl hk)
  · exact .stayed ht hturn

theorem came_of_run {t : Task} (ht : (e.step n (.run j)).1.tasks.get? k = some t) :
    Came n e (.run j) k t := by
  by_cases hk : k = j
  · subst hk
    cases htask : e.tasks.get? k with
    | none =>
      rw [step_run_of_none htask, htask] at ht
      contradiction
    | some u =>
      obtain ⟨duty, ticket, program⟩ := u
      cases program with
      | done o =>
        rw [step_run_of_done htask] at ht
        have hturn := turnOf_of_done (n := n) htask
        cases duty with
        | keepAlive next =>
          simp only [finish, get?_setTask, if_true] at ht
          cases ht
          exact .began (.keepAlive next) hturn (.inr ⟨_, htask⟩)
        | _ => simp [finish] at ht
      | ask op next =>
        cases hanswer : e.perform n op with
        | none =>
          rw [step_run_of_waits htask hanswer] at ht
          exact .stayed ht (turnOf_of_waits htask hanswer)
        | some x =>
          obtain ⟨answer, e', records⟩ := x
          rw [step_run_of_answer htask hanswer, get?_setTask, if_pos rfl] at ht
          cases ht
          exact .answered htask (by rw [turnOf_of_answer htask hanswer]; rfl)
  · have hturn : e.turnOf n k (.run j) = none := if_neg (Ne.symm hk)
    have hchange := change_run n e j
    generalize e.step n (.run j) = after at hchange ht
    cases hchange with
    | rest => exact .stayed ht hturn
    | finish =>
      rw [(finish_of_ne hk _ _).1] at ht
      exact .stayed ht hturn
    | answer htask hanswer =>
      rw [get?_setTask, if_neg hk] at ht
      obtain rfl := eq_afterOp_of_perform hanswer
      obtain hold | ⟨a, -, -, rfl, rfl⟩ := tasks_afterOp ht
      · exact .stayed hold hturn
      · exact .began (.punch a) hturn (.inl rfl)

theorem came_of_step {event : Event} {t : Task} (ht : (e.step n event).1.tasks.get? k = some t) :
    Came n e event k t := by
  by_cases hrun : ∃ j, event = .run j
  · obtain ⟨j, rfl⟩ := hrun
    exact came_of_run ht
  · have hturn : e.turnOf n k event = none := by
      cases event <;> first | rfl | exact absurd ⟨_, rfl⟩ hrun
    have hchange := change_step n e event
    generalize e.step n event = after at hchange ht
    cases hchange with
    | rest | finish | answer => exact absurd ⟨_, rfl⟩ hrun
    | serve => exact came_of_spawn hturn (.serve _ _) ht
    | call => exact came_of_spawn hturn (.call _) ht
    | keepAlive => exact came_of_spawn hturn (.keepAlive _) ht
    | abort =>
      rw [get?_endTask] at ht
      split at ht
      · contradiction
      · exact .stayed ht hturn
    | _ => exact .stayed ht hturn

section

variable {rule : List Asked → Op → Prop}
  (hrule : ∀ errand p log, Errand.Runs n errand p → p.Obeys rule log)
include hrule

theorem obeying_steps (hnow : ∀ k t, e.tasks.get? k = some t → t.program.Obeys rule [])
    (events : List Event) (k : Nat) (t : Task) (ht : (e.steps n events).1.tasks.get? k = some t) :
    t.program.Obeys rule (e.dialogue n k events) := by
  induction events using List.reverseRecOn generalizing k t with
  | nil => exact hnow k t ht
  | append_singleton events event ih =>
    rw [steps_concat] at ht
    cases came_of_step ht with
    | stayed task turn =>
      rw [dialogue_concat_of_none turn]
      exact ih k t task
    | answered task turn =>
      rw [dialogue_concat_of_some turn]
      exact (ih k _ task).2 _
    | began runs turn => exact hrule _ _ _ runs

end

def Idle (e : Engine) : Prop := ∀ k, e.tasks.get? k = none

theorem idle_start (n : Node) (network : Network) (directory : Directory) (disk : Disk) :
    Idle (start n network directory disk) := fun _ => rfl

theorem Idle.numbered (h : Idle e) : Numbered e := by
  intro k t ht
  rw [h k] at ht
  contradiction

/-- Every task is on an errand, after any run of an engine that had none. -/
theorem onErrand_steps (hidle : Idle e) (events : List Event)
    (ht : (e.steps n events).1.tasks.get? k = some t) : OnErrand n e events k t := by
  induction events using List.reverseRecOn generalizing k t with
  | nil =>
    rw [steps_nil, hidle k] at ht
    contradiction
  | append_singleton events event ih =>
    rw [steps_concat] at ht
    exact onErrand_step (fun _ _ => ih) ht

theorem obeys_silent {rule : List Asked → Op → Prop} {log : List Asked} {p : Proc Unit}
    (h : p.Obeys rule log) : (silent p).Obeys rule log :=
  h.bind fun _ _ _ => trivial

section

variable {rule : Errand → List Asked → Op → Prop}
  (hrule : ∀ (errand : Errand) (p : Proc Outcome) log, errand.Runs n p → p.Obeys (rule errand) log)
include hrule

/-- A rule that holds for the programs of an errand holds for the question that a task on it has come to. -/
theorem obeys_next (hidle : Idle e) {duty : Duty} {ticket : Option Ticket} {op : Op}
    {next : op.Answer → Proc Outcome}
    (htask : (e.steps n events).1.tasks.get? k = some ⟨duty, ticket, .ask op next⟩) :
    ∃ errand, Started n e events k errand ∧ rule errand (e.dialogue n k events) op := by
  obtain ⟨earlier, started, -, runs, hdialogue, path, -⟩ := onErrand_steps hidle events htask
  refine ⟨_, started, ?_⟩
  rw [hdialogue]
  exact ((hrule _ _ earlier runs).after path).1

theorem obeys_at (hidle : Idle e) {asked : Asked}
    (hasked : (e.steps n events).1.asked? n k = some asked) :
    ∃ errand, Started n e events k errand ∧ rule errand (e.dialogue n k events) asked.op := by
  obtain ⟨duty, ticket, next, htask, -⟩ := asked?_eq_some_iff.mp hasked
  exact obeys_next hrule hidle htask

end

end Engine
end TreeShare
