import TreeShare.Proofs.Engine.Emissions
import TreeShare.Proofs.Engine.Outbound
import TreeShare.Proofs.Engine.Policy
import TreeShare.Proofs.Engine.Rounds
import TreeShare.Proofs.Replies.History

/-! Punches towards the initiators of traversals: what one event makes of them, how their list guards them
over a run, and how one goes from the notice that begins it to its end. Main statement:
`one_punch_per_initiator`. -/
namespace TreeShare

open Proc

def Proc.Halted {α : Type} : Proc α → Prop
  | .done _ => False
  | .ask op _ => ∃ cause, op = .halt cause

instance {α : Type} : DecidablePred (Proc.Halted (α := α))
  | .done _ => isFalse id
  | .ask op _ => decidable_of_iff (op = .halt .addition ∨ op = .halt .duration)
    ⟨fun h => h.elim (⟨_, ·⟩) (⟨_, ·⟩), fun ⟨cause, h⟩ => by cases cause <;> simp [h]⟩

/-- A round of a punch is a Hello to the initiator. -/
inductive PunchRound (n : Node) (initiator : Address) : Round Unit → Prop
  | greeting {log : List Asked} {op : Op} {next : op.Answer → Proc (Except RequestError String)}
      (path : (n.greet initiator).run.After log (.ask op next)) : PunchRound n initiator ⟨log, .going⟩
  | answered {log : List Asked} {name : String}
      (path : (n.greet initiator).run.After log (.done (.ok name))) :
      PunchRound n initiator ⟨log, .settled ()⟩
  | soft {log : List Asked} {cause : RequestError}
      (path : (n.greet initiator).run.After log (.done (.error cause))) (soft : cause.isSoft = true) :
      PunchRound n initiator ⟨log, .settled ()⟩
  | hard {log : List Asked} {cause : RequestError}
      (path : (n.greet initiator).run.After log (.done (.error cause))) (hard : cause.isSoft = false) :
      PunchRound n initiator ⟨log, .vain⟩

namespace Node

variable {n : Node} {a : Address} {log : List Asked}

theorem punchRounds_after {count : Nat} {q : Proc Unit}
    (h : (n.punchRounds a (count + 1)).After log q) :
    RoundsOn (PunchRound n a) (n.punchRounds a count) log q := by
  rcases after_bind h with ⟨op, next, hgreeting, rfl⟩ | ⟨greeting, r, rest, rfl, hgreeted, h⟩
  · exact .going (.greeting hgreeting) rfl
  cases r with
  | ok name =>
    obtain ⟨rfl, rfl⟩ := after_done_iff.mp h
    rw [List.append_nil]
    exact .settled (.answered hgreeted) rfl
  | error cause =>
    dsimp only at h
    cases hcause : cause.isSoft with
    | true =>
      rw [hcause, if_pos rfl] at h
      obtain ⟨rfl, rfl⟩ := after_done_iff.mp h
      rw [List.append_nil]
      exact .settled (.soft hgreeted hcause) rfl
    | false =>
      rw [hcause, if_neg Bool.false_ne_true] at h
      exact .vain (.hard hgreeted hcause) rfl h

theorem punch_after {q : Proc Unit} (h : (n.punch a).After log q) :
    ∃ rounds, Series (PunchRound n a) n.settings.traversalRounds.toNat rounds ∧
      log = rounds.flatMap Round.log ∧
      ∀ result, q.value? = some result ↔ Comes n.settings.traversalRounds.toNat () rounds result :=
  series_of_after (n.punchRounds a) rfl (fun _ _ _ => punchRounds_after) h

end Node

namespace Engine

variable {n : Node} {s e e' : Engine} {events : List Event} {j k : Nat} {a b : Address}

/-- A task punches towards an address: it has neither ended nor panicked. -/
def Punching (e : Engine) (k : Nat) (a : Address) : Prop :=
  ∃ t, e.tasks.get? k = some t ∧ t.duty = .punch a ∧ ¬ t.program.Halted

/-- The punch of a task has panicked: it goes no further, and it never takes its address off the list. -/
def Panicked (e : Engine) (k : Nat) (a : Address) : Prop :=
  ∃ t, e.tasks.get? k = some t ∧ t.duty = .punch a ∧ t.program.Halted

instance (e : Engine) (k : Nat) (a : Address) : Decidable (e.Punching k a) :=
  inferInstanceAs (Decidable (∃ t ∈ e.tasks.get? k, t.duty = .punch a ∧ ¬ t.program.Halted))

instance (e : Engine) (k : Nat) (a : Address) : Decidable (e.Panicked k a) :=
  inferInstanceAs (Decidable (∃ t ∈ e.tasks.get? k, t.duty = .punch a ∧ t.program.Halted))

/-- An event breaks a punch off: the punch is taken away, or it panics. -/
inductive BreaksOff (e e' : Engine) (k : Nat) (a : Address) : Event → Prop
  | aborted (was : e.Punching k a) : BreaksOff e e' k a (.abort k)
  | panicked (was : e.Punching k a) (now : e'.Panicked k a) : BreaksOff e e' k a (.run k)

def BrokenOff (n : Node) (s : Engine) (events : List Event) (a : Address) : Prop :=
  ∃ past event later k, events = past ++ event :: later ∧
    BreaksOff (s.steps n past).1 ((s.steps n past).1.step n event).1 k a event

theorem punching_of_task {t : Task} (htask : e.tasks.get? k = some t) :
    e.Punching k a ↔ t.duty = .punch a ∧ ¬ t.program.Halted := by
  simp [Punching, htask]

theorem Punching.unique (h : e.Punching k a) (h' : e.Punching k b) : a = b := by
  obtain ⟨_, htask, ha, -⟩ := h
  obtain ⟨_, htask', hb, -⟩ := h'
  cases htask.symm.trans htask'
  exact Duty.punch.inj (ha.symm.trans hb)

theorem Punching.not_panicked (h : e.Punching k a) : ¬ e.Panicked k b := by
  rintro ⟨_, htask, -, hhalted⟩
  exact ((punching_of_task htask).mp h).2 hhalted

theorem punching_endTask : (e.endTask j).Punching k a ↔ k ≠ j ∧ e.Punching k a := by
  unfold Punching
  rw [get?_endTask]
  by_cases hk : k = j <;> simp [hk]

theorem punching_setTask {t : Task} : (e.setTask j t).Punching k a ↔
    if k = j then t.duty = .punch a ∧ ¬ t.program.Halted else e.Punching k a := by
  by_cases hk : k = j
  · rw [if_pos hk, punching_of_task (by rw [get?_setTask, if_pos hk])]
  · unfold Punching
    rw [get?_setTask, if_neg hk, if_neg hk]

theorem punching_setTask_of_task {t u : Task} (htask : e.tasks.get? j = some t)
    (hsame : ∀ a, u.duty = .punch a ∧ ¬ u.program.Halted ↔ t.duty = .punch a ∧ ¬ t.program.Halted) :
    (e.setTask j u).Punching k a ↔ e.Punching k a := by
  rw [punching_setTask]
  split
  · rename_i hk
    rw [hk, hsame, punching_of_task htask]
  · rfl

theorem punching_spawn (h : Numbered e) {duty : Duty} {p : Proc Outcome} :
    (e.spawn duty p).2.Punching k a ↔
      k = e.nextTask ∧ (duty = .punch a ∧ ¬ p.Halted) ∨ e.Punching k a := by
  have hfree : ¬ e.Punching e.nextTask a := fun ⟨_, htask, _⟩ => Nat.lt_irrefl _ (h _ _ htask)
  by_cases hk : k = e.nextTask
  · rw [hk, punching_of_task (get?_spawn e duty p)]
    simp [hfree]
  · unfold Punching spawn
    rw [Table.get?_set, if_neg hk]
    simp [hk]

theorem punching_abort : (e.abort j).Punching k a ↔ k ≠ j ∧ e.Punching k a := by
  cases htask : e.tasks.get? j with
  | none =>
    have habort : e.abort j = e := by
      unfold abort
      rw [htask]
    rw [habort]
    refine (and_iff_right_of_imp ?_).symm
    rintro ⟨_, hk, -⟩ rfl
    rw [htask] at hk
    contradiction
  | some t =>
    obtain ⟨duty, ticket, program⟩ := t
    unfold abort
    rw [htask]
    cases ticket <;> exact punching_endTask

theorem punches_abort (e : Engine) (j : Nat) : (e.abort j).punches = e.punches := by
  unfold abort
  split
  · rfl
  · split <;> rfl

theorem afterOp_beginPunch (n : Node) (hnew : a ∉ e.punches) : e.afterOp n (.beginPunch a) =
    ({ e with punches := a :: e.punches }.spawn (.punch a) (silent (n.punch a))).2 := by
  dsimp only [afterOp]
  unfold beginPunch
  rw [if_neg (by simpa using hnew)]

theorem afterOp_of_listed (n : Node) {op : Op} (hold : ∀ a, op = .beginPunch a → a ∈ e.punches) :
    (e.afterOp n op).punches = e.punches ∧ (e.afterOp n op).tasks = e.tasks := by
  cases op with
  | beginPunch a =>
    dsimp only [afterOp]
    unfold beginPunch
    rw [if_pos (by simpa using hold a rfl)]
    exact ⟨rfl, rfl⟩
  | _ => exact ⟨rfl, rfl⟩

theorem not_halted_punch (n : Node) (a : Address) : ¬ (silent (n.punch a)).Halted := by
  unfold Node.punch
  cases n.settings.traversalRounds.toNat with
  | zero => exact id
  | succ rounds => exact nofun

/-- What one event makes of the punches: they go on, one begins towards an address that had none, one ends,
or one is broken off. -/
inductive PunchChange (e : Engine) (event : Event) (e' : Engine) : Prop
  | same (list : e'.punches = e.punches) (tasks : ∀ k a, e'.Punching k a ↔ e.Punching k a)
      (unbroken : ∀ k a, ¬ BreaksOff e e' k a event)
  | begins (a : Address) (new : a ∉ e.punches) (list : e'.punches = a :: e.punches)
      (tasks : ∀ k b, e'.Punching k b ↔ k = e.nextTask ∧ a = b ∨ e.Punching k b)
      (unbroken : ∀ k b, ¬ BreaksOff e e' k b event)
  | ends (j : Nat) (a : Address) (was : e.Punching j a) (list : e'.punches = e.punches.filter (· ≠ a))
      (tasks : ∀ k b, e'.Punching k b ↔ k ≠ j ∧ e.Punching k b)
      (unbroken : ∀ k b, ¬ BreaksOff e e' k b event)
  | breaksOff (j : Nat) (a : Address) (breaks : BreaksOff e e' j a event) (list : e'.punches = e.punches)
      (tasks : ∀ k b, e'.Punching k b ↔ k ≠ j ∧ e.Punching k b)

theorem not_breaksOff_of_kept {event : Event} (habort : ∀ a, event = .abort k → ¬ e.Punching k a)
    (hkept : ∀ a, e.Punching k a → e'.Punching k a) : ¬ BreaksOff e e' k a event := by
  rintro (was | ⟨was, now⟩)
  · exact habort a rfl was
  · exact (hkept a was).not_panicked now

theorem not_breaksOff_run (hkept : ∀ a, e.Punching k a → e'.Punching k a) :
    ¬ BreaksOff e e' k a (.run j) :=
  not_breaksOff_of_kept (fun _ habort => Event.noConfusion habort) hkept

theorem BreaksOff.was {event : Event} (h : BreaksOff e e' k a event) : e.Punching k a := by
  cases h with
  | aborted was => exact was
  | panicked was => exact was

theorem punchChange_spawn (h : Numbered e) {event : Event} {duty : Duty} (p : Proc Outcome)
    (hduty : ∀ a, duty ≠ .punch a) (hevent : ∀ j, event ≠ .abort j) :
    PunchChange e event (e.spawn duty p).2 := by
  have htasks (k : Nat) (a : Address) : (e.spawn duty p).2.Punching k a ↔ e.Punching k a := by
    rw [punching_spawn h]
    simp [hduty]
  exact .same rfl htasks fun k a =>
    not_breaksOff_of_kept (fun _ habort => absurd habort (hevent k)) fun b => (htasks k b).mpr

theorem punchChange_removed {event : Event} (hnot : ∀ a, ¬ e.Punching j a)
    (hevent : ∀ i, event = .abort i → i = j) (list : e'.punches = e.punches)
    (tasks : ∀ k b, e'.Punching k b ↔ k ≠ j ∧ e.Punching k b) : PunchChange e event e' := by
  have htasks (k : Nat) (a : Address) : e'.Punching k a ↔ e.Punching k a := by
    refine (tasks k a).trans (and_iff_right_of_imp ?_)
    rintro hk rfl
    exact hnot a hk
  refine .same list htasks fun k a => not_breaksOff_of_kept (fun b habort => ?_) fun b => (htasks k b).mpr
  exact hevent k habort ▸ hnot b

theorem punchChange_finish {duty : Duty} {ticket : Option Ticket} {o : Outcome}
    (htask : e.tasks.get? j = some ⟨duty, ticket, .done o⟩) :
    PunchChange e (.run j) (e.finish n j duty o).1 := by
  have hpunch (a : Address) : e.Punching j a ↔ duty = .punch a :=
    (punching_of_task htask).trans (and_iff_left id)
  cases duty with
  | call => exact punchChange_removed (by simp [hpunch]) nofun rfl fun _ _ => punching_endTask
  | service => exact punchChange_removed (by simp [hpunch]) nofun rfl fun _ _ => punching_endTask
  | punch a =>
    refine .ends j a ((hpunch a).mpr rfl) rfl (fun _ _ => punching_endTask) ?_
    rintro k b (_ | ⟨-, _, hgone, -⟩)
    refine absurd hgone ?_
    change (Engine.endTask { e with punches := _ } j).tasks.get? j ≠ _
    rw [get?_endTask, if_pos rfl]
    nofun
  | keepAlive next =>
    have htasks (k : Nat) (a : Address) :
        (e.finish n j (.keepAlive next) o).1.Punching k a ↔ e.Punching k a :=
      punching_setTask_of_task htask (by simp)
    exact .same rfl htasks fun k a => not_breaksOff_run fun b => (htasks k b).mpr

theorem punchChange_next {duty : Duty} {ticket ticket' : Option Ticket} {p q : Proc Outcome}
    (htask : e.tasks.get? j = some ⟨duty, ticket, p⟩) (hgoing : ¬ p.Halted)
    (list : e'.punches = e.punches) (tasks : e'.tasks = e.tasks) :
    PunchChange e (.run j) (e'.setTask j ⟨duty, ticket', q⟩) := by
  have htasks (k : Nat) (a : Address) : (e'.setTask j ⟨duty, ticket', q⟩).Punching k a ↔
      if k = j then duty = .punch a ∧ ¬ q.Halted else e.Punching k a := by
    rw [punching_setTask]
    unfold Punching
    rw [tasks]
  have hbefore (a : Address) : e.Punching j a ↔ duty = .punch a :=
    (punching_of_task htask).trans (and_iff_left hgoing)
  by_cases hpanics : ∃ a, duty = .punch a ∧ q.Halted
  · obtain ⟨a, hduty, hhalted⟩ := hpanics
    have hnow : (e'.setTask j ⟨duty, ticket', q⟩).Panicked j a :=
      ⟨_, by rw [get?_setTask, if_pos rfl], hduty, hhalted⟩
    refine .breaksOff j a (.panicked ((hbefore a).mpr hduty) hnow) list fun k b => ?_
    by_cases hk : k = j <;> simp [htasks, hk, hhalted]
  · have hkept (k : Nat) (a : Address) :
        (e'.setTask j ⟨duty, ticket', q⟩).Punching k a ↔ e.Punching k a := by
      rw [htasks]
      split
      · rename_i hk
        rw [hk, hbefore, and_iff_left_of_imp fun hduty hhalted => hpanics ⟨a, hduty, hhalted⟩]
      · rfl
    exact .same list hkept fun k a => not_breaksOff_run fun b => (hkept k b).mpr

theorem punchChange_answer (h : Numbered e) {duty : Duty} {ticket ticket' : Option Ticket} {op : Op}
    {next : op.Answer → Proc Outcome} {answer : op.Answer} {records : List Record}
    (htask : e.tasks.get? j = some ⟨duty, ticket, .ask op next⟩)
    (hbegin : ∀ a b, op = .beginPunch b → duty ≠ .punch a)
    (hanswer : e.perform n op = some (answer, e', records)) :
    PunchChange e (.run j) (e'.setTask j ⟨duty, ticket', next answer⟩) := by
  obtain rfl := eq_afterOp_of_perform hanswer
  by_cases hbegins : ∃ a, op = .beginPunch a ∧ a ∉ e.punches
  · obtain ⟨a, rfl, hnew⟩ := hbegins
    have hspawn := afterOp_beginPunch n hnew
    have hkept : (e.afterOp n (.beginPunch a)).tasks.get? j =
        some ⟨duty, ticket, .ask (.beginPunch a) next⟩ := by
      rw [(frame_perform hanswer).tasks j (h j _ htask), htask]
    have htasks (k : Nat) (b : Address) :
        ((e.afterOp n (.beginPunch a)).setTask j ⟨duty, ticket', next answer⟩).Punching k b ↔
          k = e.nextTask ∧ a = b ∨ e.Punching k b := by
      rw [punching_setTask_of_task hkept (by simp [hbegin _ a rfl]), hspawn,
        punching_spawn (e := { e with punches := a :: e.punches }) h]
      simp [Punching, not_halted_punch]
    refine .begins a hnew (by rw [hspawn]; rfl) htasks fun k b => ?_
    exact not_breaksOff_run fun c hc => (htasks k c).mpr (.inr hc)
  · obtain ⟨hlist, hsame⟩ := afterOp_of_listed (e := e) n fun a ha =>
      Classical.not_not.mp fun hnew => hbegins ⟨a, ha, hnew⟩
    refine punchChange_next htask ?_ hlist hsame
    rintro ⟨cause, rfl⟩
    exact answer.elim

theorem punchChange_abort (e : Engine) (j : Nat) : PunchChange e (.abort j) (e.abort j) := by
  by_cases hpunch : ∃ a, e.Punching j a
  · obtain ⟨a, hpunch⟩ := hpunch
    exact .breaksOff j a (.aborted hpunch) (punches_abort e j) fun _ _ => punching_abort
  · exact punchChange_removed (fun a hj => hpunch ⟨a, hj⟩) (fun _ h => (Event.abort.inj h).symm)
      (punches_abort e j) fun _ _ => punching_abort

theorem punchChange_step (n : Node) (h : Numbered e)
    (hbegin : ∀ {k : Nat} {duty : Duty} {ticket : Option Ticket} {b : Address}
      {next : Unit → Proc Outcome},
      e.tasks.get? k = some ⟨duty, ticket, .ask (.beginPunch b) next⟩ → ∀ a, duty ≠ .punch a)
    (event : Event) : PunchChange e event (e.step n event).1 := by
  by_cases habort : ∃ j, event = .abort j
  · obtain ⟨j, rfl⟩ := habort
    exact punchChange_abort e j
  · have hchange := change_step n e event
    generalize e.step n event = after at hchange ⊢
    cases hchange with
    | serve | call | keepAlive => exact punchChange_spawn h _ nofun nofun
    | finish htask => exact punchChange_finish htask
    | answer htask hanswer =>
      refine punchChange_answer h htask (fun a b hop => ?_) hanswer
      subst hop
      exact hbegin htask a
    | noTask | abort => exact absurd ⟨_, rfl⟩ habort
    | _ => exact .same rfl (fun _ _ => Iff.rfl) fun k a => not_breaksOff_of_kept nofun fun _ => id

/-! The list of punches over a run. -/

theorem brokenOff_nil : ¬ BrokenOff n s [] a := by
  rintro ⟨past, _, _, _, hevents, -⟩
  cases past <;> cases hevents

theorem brokenOff_concat {event : Event} : BrokenOff n s (events ++ [event]) a ↔ BrokenOff n s events a ∨
    ∃ k, BreaksOff (s.steps n events).1 ((s.steps n events).1.step n event).1 k a event := by
  constructor
  · rintro ⟨past, first, later, k, hevents, hbreaks⟩
    obtain ⟨-, rfl, rfl⟩ | ⟨mid, rfl, rfl⟩ := ReplyTable.concat_eq_split.mp hevents
    · exact .inr ⟨k, hbreaks⟩
    · exact .inl ⟨past, first, mid, k, rfl, hbreaks⟩
  · rintro (⟨past, first, later, k, rfl, hbreaks⟩ | ⟨k, hbreaks⟩)
    · exact ⟨past, first, later ++ [event], k, by simp, hbreaks⟩
    · exact ⟨events, event, [], k, rfl, hbreaks⟩

theorem BrokenOff.later (h : BrokenOff n s events a) (more : List Event) :
    BrokenOff n s (events ++ more) a := by
  obtain ⟨past, event, later, k, rfl, hbreaks⟩ := h
  exact ⟨past, event, later ++ more, k, by simp, hbreaks⟩

/-- The list of punches guards them after some events: it has the addresses towards which tasks punch, one
task each, and those where a punch was broken off, which are left without a task. -/
structure Guarded (n : Node) (s : Engine) (events : List Event) (e : Engine) : Prop where
  listed : ∀ a, a ∈ e.punches ↔ (∃ k, e.Punching k a) ∨ BrokenOff n s events a
  once : ∀ j k a, e.Punching j a → e.Punching k a → j = k
  forsaken : ∀ k a, BrokenOff n s events a → ¬ e.Punching k a

theorem guarded_start (n : Node) (network : Network) (directory : Directory) (disk : Disk) :
    Guarded n (start n network directory disk) [] (start n network directory disk) := by
  have hnone (k : Nat) (a : Address) : ¬ (start n network directory disk).Punching k a := by
    rintro ⟨_, htask, -⟩
    cases htask
  refine ⟨fun a => iff_of_false List.not_mem_nil ?_, fun j k a hj => absurd hj (hnone j a),
    fun k a _ => hnone k a⟩
  rintro (⟨k, hk⟩ | hbroken)
  · exact hnone k a hk
  · exact brokenOff_nil hbroken

section

variable {event : Event}

theorem Guarded.begins (h : Guarded n s events e)
    (hbroken : ∀ b, BrokenOff n s (events ++ [event]) b ↔ BrokenOff n s events b) (new : a ∉ e.punches)
    (list : e'.punches = a :: e.punches)
    (tasks : ∀ k b, e'.Punching k b ↔ k = e.nextTask ∧ a = b ∨ e.Punching k b) :
    Guarded n s (events ++ [event]) e' where
  listed b := by
    rw [list, List.mem_cons, h.listed, hbroken, ← or_assoc]
    simp only [tasks, exists_or, exists_and_right, exists_eq, true_and, eq_comm]
  once i k b hi hk := by
    have hold (k : Nat) : ¬ e.Punching k a := fun hk => new ((h.listed a).mpr (.inl ⟨k, hk⟩))
    rcases (tasks i b).mp hi with ⟨rfl, rfl⟩ | hi <;> rcases (tasks k _).mp hk with ⟨rfl, hb⟩ | hk
    · rfl
    · exact absurd hk (hold k)
    · exact absurd (hb ▸ hi) (hold i)
    · exact h.once i k b hi hk
  forsaken k b hb hk := by
    have hb := (hbroken b).mp hb
    rcases (tasks k b).mp hk with ⟨-, rfl⟩ | hk
    · exact new ((h.listed _).mpr (.inr hb))
    · exact h.forsaken k b hb hk

theorem Guarded.ends (h : Guarded n s events e)
    (hbroken : ∀ b, BrokenOff n s (events ++ [event]) b ↔ BrokenOff n s events b) (was : e.Punching j a)
    (list : e'.punches = e.punches.filter (· ≠ a))
    (tasks : ∀ k b, e'.Punching k b ↔ k ≠ j ∧ e.Punching k b) :
    Guarded n s (events ++ [event]) e' where
  listed b := by
    rw [list, hbroken, List.mem_filter, decide_eq_true_iff, h.listed]
    constructor
    · rintro ⟨⟨k, hk⟩ | hb, hne⟩
      · refine .inl ⟨k, (tasks k b).mpr ⟨?_, hk⟩⟩
        rintro rfl
        exact hne (hk.unique was)
      · exact .inr hb
    · rintro (⟨k, hk⟩ | hb)
      · obtain ⟨hne, hk⟩ := (tasks k b).mp hk
        refine ⟨.inl ⟨k, hk⟩, ?_⟩
        rintro rfl
        exact hne (h.once k j b hk was)
      · refine ⟨.inr hb, ?_⟩
        rintro rfl
        exact h.forsaken j b hb was
  once i k b hi hk := h.once i k b ((tasks i b).mp hi).2 ((tasks k b).mp hk).2
  forsaken k b hb hk := h.forsaken k b ((hbroken b).mp hb) ((tasks k b).mp hk).2

theorem Guarded.breaksOff (h : Guarded n s events e)
    (hbroken : ∀ b, BrokenOff n s (events ++ [event]) b ↔ BrokenOff n s events b ∨ e.Punching j b)
    (list : e'.punches = e.punches) (tasks : ∀ k b, e'.Punching k b ↔ k ≠ j ∧ e.Punching k b) :
    Guarded n s (events ++ [event]) e' where
  listed b := by
    rw [list, hbroken, h.listed]
    constructor
    · rintro (⟨k, hk⟩ | hb)
      · by_cases hkj : k = j
        · exact .inr (.inr (hkj ▸ hk))
        · exact .inl ⟨k, (tasks k b).mpr ⟨hkj, hk⟩⟩
      · exact .inr (.inl hb)
    · rintro (⟨k, hk⟩ | hb | hj)
      · exact .inl ⟨k, ((tasks k b).mp hk).2⟩
      · exact .inr hb
      · exact .inl ⟨j, hj⟩
  once i k b hi hk := h.once i k b ((tasks i b).mp hi).2 ((tasks k b).mp hk).2
  forsaken k b hb hk := by
    obtain ⟨hne, hk⟩ := (tasks k b).mp hk
    rcases (hbroken b).mp hb with hb | hj
    · exact h.forsaken k b hb hk
    · exact hne (h.once k j b hk hj)

theorem Guarded.step (h : Guarded n s events (s.steps n events).1)
    (hchange : PunchChange (s.steps n events).1 event ((s.steps n events).1.step n event).1) :
    Guarded n s (events ++ [event]) ((s.steps n events).1.step n event).1 := by
  have hkept
      (unbroken : ∀ k a, ¬ BreaksOff (s.steps n events).1 ((s.steps n events).1.step n event).1 k a event)
      (a : Address) : BrokenOff n s (events ++ [event]) a ↔ BrokenOff n s events a :=
    brokenOff_concat.trans (or_iff_left fun ⟨k, hk⟩ => unbroken k a hk)
  cases hchange with
  | same list tasks unbroken =>
    constructor <;> simp only [list, tasks, hkept unbroken]
    · exact h.listed
    · exact h.once
    · exact h.forsaken
  | begins a new list tasks unbroken => exact h.begins (hkept unbroken) new list tasks
  | ends j a was list tasks unbroken => exact h.ends (hkept unbroken) was list tasks
  | breaksOff j a breaks list tasks =>
    refine h.breaksOff (fun b => ?_) list tasks
    refine brokenOff_concat.trans (or_congr_right ⟨fun ⟨k, hk⟩ => ?_, fun hb => ?_⟩)
    · cases hk <;> cases breaks <;> assumption
    · exact ⟨j, hb.unique breaks.was ▸ breaks⟩

end

theorem not_punch_of_beginPunch (hidle : Idle s) {duty : Duty} {ticket : Option Ticket}
    {next : Unit → Proc Outcome}
    (htask : (s.steps n events).1.tasks.get? k = some ⟨duty, ticket, .ask (.beginPunch b) next⟩)
    (a : Address) : duty ≠ .punch a := by
  obtain ⟨earlier, -, bears, runs, -, path, -⟩ := onErrand_steps hidle events htask
  obtain ⟨source, m, initiator, hserved, -⟩ := ((grounded_of_runs n _ _ earlier runs).after path).1
  rintro rfl
  cases bears
  cases hserved

theorem guarded_steps (n : Node) (network : Network) (directory : Directory) (disk : Disk)
    (events : List Event) : Guarded n (start n network directory disk) events
      ((start n network directory disk).steps n events).1 := by
  induction events using List.reverseRecOn with
  | nil => exact guarded_start n network directory disk
  | append_singleton events event ih =>
    rw [steps_concat]
    have hidle := idle_start n network directory disk
    exact ih.step (punchChange_step n (hidle.numbered.steps events) (not_punch_of_beginPunch hidle) event)

/-- Where a punch was broken off, nobody punches any more. -/
theorem not_punching_of_brokenOff {network : Network} {directory : Directory} {disk : Disk}
    (h : BrokenOff n (start n network directory disk) events a) (later : List Event) (k : Nat) :
    ¬ (((start n network directory disk).steps n events).1.steps n later).1.Punching k a := by
  have hlater := guarded_steps n network directory disk (events ++ later)
  rw [steps_append] at hlater
  exact hlater.forsaken k a (h.later later)

/-! One punch from its beginning on. -/

theorem Punching.started (hidle : Idle s) (h : (s.steps n events).1.Punching k a) :
    Started n s events k (.punch a) := by
  obtain ⟨t, htask, hduty, -⟩ := h
  obtain ⟨_, started, bears, -, -, -, -⟩ := onErrand_steps hidle events htask
  rw [hduty] at bears
  cases bears
  exact started

theorem step_beginPunch (h : Numbered e) (hasked : e.asked? n j = some ⟨.beginPunch a, ()⟩)
    (hnew : a ∉ e.punches) :
    (e.step n (.run j)).1.tasks.get? e.nextTask = some ⟨.punch a, none, silent (n.punch a)⟩ ∧
      e.nextTask < (e.step n (.run j)).1.nextTask := by
  obtain ⟨duty, ticket, next, htask, e', records, hanswer⟩ := asked?_eq_some_iff.mp hasked
  rw [step_run_of_answer htask hanswer, get?_setTask, if_neg (Nat.ne_of_gt (h j _ htask)),
    eq_afterOp_of_perform hanswer, afterOp_beginPunch n hnew]
  exact ⟨get?_spawn _ _ _, Nat.lt_succ_self _⟩

theorem began_of_started (h : Started n s events k (.punch a)) :
    ∃ past j later, events = past ++ .run j :: later ∧ (s.steps n past).1.nextTask = k ∧
      (s.steps n past).1.asked? n j = some ⟨.beginPunch a, ()⟩ ∧ a ∉ (s.steps n past).1.punches := by
  obtain ⟨past, event, later, rfl, hk, herrand⟩ := h
  cases starts_of_errandOf herrand with
  | punch j =>
    refine ⟨past, j, later, rfl, hk, ?_⟩
    unfold errandOf at herrand
    dsimp only at herrand
    split at herrand
    · obtain ⟨hnew, hpunch⟩ := Option.ite_none_left_eq_some.mp herrand
      cases hpunch
      exact ⟨‹_›, by simpa using hnew⟩
    · contradiction

theorem fate_of_started (hs : Numbered s) (h : Started n s events k (.punch a)) :
    ∃ later records, later ⊆ events ∧ Fate k (.punch a) (silent (n.punch a)) later
      (s.dialogue n k events) records ((s.steps n events).1.tasks.get? k) := by
  obtain ⟨past, j, later, rfl, rfl, hasked, hnew⟩ := began_of_started h
  have hnumbered : Numbered (s.steps n past).1 := hs.steps past
  obtain ⟨htask, hlt⟩ := step_beginPunch hnumbered hasked hnew
  have hother : ¬ Touches (s.steps n past).1.nextTask (.run j) := by
    obtain ⟨_, _, _, hj, -⟩ := asked?_eq_some_iff.mp hasked
    exact fun htouches => Nat.ne_of_lt (hnumbered j _ hj) htouches
  have hfate := fate (n := n) (nofun : ∀ next, Duty.punch a ≠ .keepAlive next) hlt htask later
  rw [dialogue_of_new hs (Nat.le_refl _), dialogue_cons, turnOf_of_other hother, steps_append]
  exact ⟨later, _, fun x hx => by simp [hx], hfate⟩

theorem silent_punch_after {log : List Asked} {q : Proc Outcome}
    (h : (silent (n.punch a)).After log q) :
    ∃ rounds, Series (PunchRound n a) n.settings.traversalRounds.toNat rounds ∧
      log = rounds.flatMap Round.log ∧
      ((∃ o, q = .done o) ↔ Comes n.settings.traversalRounds.toNat () rounds ()) := by
  obtain ⟨p, hp, rfl⟩ := after_map h
  obtain ⟨rounds, hseries, hlog, hcomes⟩ := Node.punch_after hp
  refine ⟨rounds, hseries, hlog, ?_⟩
  rw [← hcomes]
  cases p with
  | ask op next => exact iff_of_false (fun ⟨_, hq⟩ => nomatch hq) nofun
  | done => exact iff_of_true ⟨_, rfl⟩ rfl

/-- A punch goes in rounds of one Hello each. It goes on until they have come to something, unless it is taken
away or panics, and then it goes with its next step. -/
theorem rounds_of_started (hs : Numbered s) (h : Started n s events k (.punch a)) :
    ∃ rounds, Series (PunchRound n a) n.settings.traversalRounds.toNat rounds ∧
      s.dialogue n k events = rounds.flatMap Round.log ∧
      (¬ (s.steps n events).1.Punching k a →
        Comes n.settings.traversalRounds.toNat () rounds () ∨ .abort k ∈ events ∨
          (s.steps n events).1.Panicked k a) ∧
      (Comes n.settings.traversalRounds.toNat () rounds () →
        ¬ ((s.steps n events).1.step n (.run k)).1.Punching k a) := by
  obtain ⟨later, records, hlater, hfate⟩ := fate_of_started hs h
  generalize ht : (s.steps n events).1.tasks.get? k = t at hfate
  have hgone (hnone : t = none) : ¬ ((s.steps n events).1.step n (.run k)).1.Punching k a := by
    rw [step_run_of_none (ht.trans hnone)]
    rintro ⟨_, htask, -⟩
    cases (ht.trans hnone).symm.trans htask
  cases hfate with
  | live path =>
    obtain ⟨rounds, hseries, hlog, hdone⟩ := silent_punch_after path
    refine ⟨rounds, hseries, hlog, fun hnot => .inr (.inr ⟨_, ht, rfl, ?_⟩), fun hcomes => ?_⟩
    · exact Classical.not_not.mp fun hgoing => hnot ⟨_, ht, rfl, hgoing⟩
    obtain ⟨o, rfl⟩ := hdone.mpr hcomes
    rw [step_run_of_done ht]
    exact fun hpunch => (punching_endTask.mp hpunch).1 rfl
  | done path =>
    obtain ⟨rounds, hseries, hlog, hdone⟩ := silent_punch_after path
    exact ⟨rounds, hseries, hlog, fun _ => .inl (hdone.mp ⟨_, rfl⟩), fun _ => hgone rfl⟩
  | aborted path silent abort =>
    obtain ⟨rounds, hseries, hlog, -⟩ := silent_punch_after path
    exact ⟨rounds, hseries, hlog, fun _ => .inr (.inl (hlater abort)), fun _ => hgone rfl⟩

theorem overflow_of_panicked (hidle : Idle s) (h : (s.steps n events).1.Panicked k a) :
    ∃ cause, n.settings.attempts = .error cause := by
  obtain ⟨⟨duty, ticket, program⟩, htask, -, hhalted⟩ := h
  cases program with
  | done => exact hhalted.elim
  | ask op next =>
    obtain ⟨cause, rfl⟩ := hhalted
    obtain ⟨_, -, hoverflow⟩ := obeys_next (outbound_of_runs n) hidle htask
    exact ⟨cause, hoverflow⟩

theorem aborted_of_brokenOff (hidle : Idle s) {attempts : Nat} (hfits : n.settings.attempts = .ok attempts)
    (h : BrokenOff n s events a) : ∃ k, .abort k ∈ events := by
  obtain ⟨past, event, later, k, rfl, hbreaks⟩ := h
  cases hbreaks with
  | aborted => exact ⟨k, by simp⟩
  | panicked was now =>
    rw [← steps_concat] at now
    obtain ⟨cause, hover⟩ := overflow_of_panicked hidle now
    cases hfits.symm.trans hover

/-! A notice of the server. -/

theorem perform_withTasks {op : Op} (h : op.IsFree ∨ op.IsLookup) (n : Node) (e : Engine)
    (tasks : Table Nat Task) : ({ e with tasks } : Engine).perform n op =
      (e.perform n op).map fun x => (x.1, { x.2.1 with tasks }, x.2.2) := by
  cases op <;> first | rfl | exact absurd h (by simp [Op.IsFree, Op.IsLookup])

theorem alone_withTasks {α : Type} {p : Proc α} {log : List Asked}
    (h : p.Obeys (fun _ op => op.IsFree ∨ op.IsLookup) log) (n : Node) (e : Engine)
    (tasks : Table Nat Task) : ({ e with tasks } : Engine).alone n p =
      (e.alone n p).map fun x => (x.1, { x.2.1 with tasks }, x.2.2) := by
  induction p generalizing e log with
  | done a => rfl
  | ask op next ih =>
    unfold alone
    rw [perform_withTasks h.1]
    cases e.perform n op with
    | none => rfl
    | some x =>
      obtain ⟨answer, e', records⟩ := x
      have hnext := ih answer (h.2 answer) e'
      simp only [Option.map_some, Option.bind_eq_bind, Option.bind_some, hnext]
      cases e'.alone n (next answer) <;> rfl

theorem steps_of_alone {α : Type} {p : Proc α} {log : List Asked}
    (h : p.Obeys (fun _ op => op.IsFree ∨ op.IsLookup) log) {x : α} {records : List Record}
    (halone : e.alone n p = some (x, e', records)) {f : α → Proc Outcome} {duty : Duty}
    {ticket : Option Ticket} (htask : e.tasks.get? k = some ⟨duty, ticket, p.bind f⟩) :
    ∃ count tasks ticket', (e.steps n (List.replicate count (.run k))).1 = { e' with tasks } ∧
      tasks.get? k = some ⟨duty, ticket', f x⟩ := by
  induction p generalizing e e' ticket log records with
  | done a =>
    cases halone
    exact ⟨0, e.tasks, ticket, rfl, htask⟩
  | ask op next ih =>
    obtain ⟨⟨answer, middle, first⟩, hanswer, halone⟩ := Option.bind_eq_some_iff.mp halone
    obtain ⟨⟨_, last, rest⟩, hnext, halone⟩ := Option.bind_eq_some_iff.mp halone
    cases halone
    have hstep := step_run_of_answer htask hanswer
    have hlater := alone_withTasks (h.2 answer) n middle
      (middle.tasks.set k ⟨duty, heldTicket ticket op answer, (next answer).bind f⟩)
    rw [hnext] at hlater
    obtain ⟨count, tasks, ticket', hsteps, hget⟩ :=
      ih answer (h.2 answer) hlater (by rw [Table.get?_set, if_pos rfl])
    refine ⟨count + 1, tasks, ticket', ?_, hget⟩
    rw [List.replicate_succ, steps_cons, hstep]
    exact hsteps

theorem alone_isServer (n : Node) (e : Engine) (a : Address) :
    e.alone n (n.isServer a) = some (e.listsServer n a, e, []) := by
  have hbook : e.perform n (.inBook n.settings.serverName a) =
    some (e.book.contains n.settings.serverName a, e, []) := rfl
  have hdirectory : e.perform n (.findAddresses n.settings.serverName) =
    some (e.directory.addresses n.settings.serverName, e, []) := rfl
  have hknown : e.perform n (.knownAddresses n.settings.serverName) =
    some (e.book.known n.settings.serverName, e, []) := rfl
  unfold listsServer
  cases hin : e.book.contains n.settings.serverName a with
  | true =>
    rw [hin] at hbook
    exact alone_ask hbook _
  | false =>
    rw [hin] at hbook
    refine (alone_ask hbook _).trans ?_
    cases hlisted : e.directory.addresses n.settings.serverName with
    | ok listed =>
      rw [hlisted] at hdirectory
      exact alone_ask hdirectory _
    | error cause =>
      rw [hlisted] at hdirectory
      refine (alone_ask hdirectory _).trans ((alone_ask hknown _).trans ?_)
      have hnot : (e.book.known n.settings.serverName).contains a = false := by
        unfold PeerBook.contains at hin
        simpa using hin
      exact congrArg (fun found => some (found, e, [])) hnot

/-- Before a notice may begin a punch, its sender is checked and has to be the server. -/
def vetting (n : Node) (source : Address) (m : Message) : Proc Bool :=
  (n.checkSender source m).bind fun
    | .ok () => n.isServer source
    | .error _ => .done false

theorem serve_notice {source : Address} {m : Message} {initiator : Endpoint}
    (hrequest : Request.ofMessage? m = some (.punch initiator)) :
    n.serve source m = (vetting n source m).bind fun fromServer =>
      if fromServer then Proc.perform (.beginPunch (.v4 initiator)) else .done () := by
  unfold Node.serve vetting
  rw [hrequest, bind_bind]
  refine congrArg (n.checkSender source m).bind (funext fun verdict => ?_)
  cases verdict <;> rfl

theorem alone_vetting {source : Address} {m : Message}
    (hadmissible : m.Admissible n.scheme (e.finding source m))
    (hserver : e.listsServer n source = true) :
    ∃ keys, e.alone n (vetting n source m) = some (true, { e with keyCache := keys }, []) := by
  have hruling : n.ruling m (e.finding source m) = .ok () := by
    rcases n.ruling_spec m (e.finding source m) with ⟨hok, -⟩ | ⟨_, -, hfaulty⟩
    · exact hok
    · exact absurd hadmissible hfaulty.not_admissible
  have hcheck := alone_checkSender n e source m
  rw [hruling] at hcheck
  have hlists : ({ e with keyCache := e.keysAfter source m } : Engine).listsServer n source = true :=
    hserver
  have his := alone_isServer n { e with keyCache := e.keysAfter source m } source
  rw [hlists] at his
  exact ⟨_, alone_bind hcheck his⟩

/-- A notice of the server begins a punch if none is under way and none was broken off. -/
theorem punch_of_notice (h : Numbered e) {source : Address} {datagram : Bytes} {m : Message}
    {initiator : Endpoint} (hheard : heard? datagram = some m)
    (hrequest : Request.ofMessage? m = some (.punch initiator))
    (hadmissible : m.Admissible n.scheme (e.finding source m))
    (hserver : e.listsServer n source = true) (hnew : .v4 initiator ∉ e.punches) :
    ∃ count, (e.steps n (.receive source datagram :: List.replicate count (.run e.nextTask))).1.tasks.get?
      (e.nextTask + 1) =
        some ⟨.punch (.v4 initiator), none, silent (n.punch (.v4 initiator))⟩ := by
  have htype : m.type.isRequest = true := by
    rw [Request.type_of_ofMessage? hrequest]
    rfl
  let served := (e.spawn .service (silent (n.serve source m))).2
  have hserved : (e.step n (.receive source datagram)).1 = served := by
    rw [step_receive, hheard, Option.elim_some, accept, if_pos htype]
  obtain ⟨keys, halone⟩ := alone_vetting (e := served) hadmissible hserver
  have hobeys : (vetting n source m).Obeys (fun _ op => op.IsFree ∨ op.IsLookup) [] := by
    refine ((Node.checkSender_within n source m).obeys fun _ _ => .inr).bind fun verdict _ _ => ?_
    cases verdict with
    | ok => exact Node.isServer_obeys (fun _ _ => .inl) n source _
    | error => exact trivial
  have htask : served.tasks.get? e.nextTask = some ⟨.service, none, (vetting n source m).bind
      fun fromServer => silent
        (if fromServer then Proc.perform (.beginPunch (.v4 initiator)) else .done ())⟩ := by
    refine (get?_spawn ..).trans ?_
    rw [serve_notice hrequest]
    exact congrArg (fun program => some (Task.mk .service none program)) (bind_bind _ _ _)
  obtain ⟨count, tasks, ticket, hsteps, hget⟩ := steps_of_alone hobeys halone htask
  refine ⟨count + 1, ?_⟩
  rw [steps_cons, hserved, List.replicate_succ', steps_concat, hsteps]
  have hnumbered : Numbered ({ served with keyCache := keys, tasks } : Engine) := by
    have hsteps' := ((h.step (n := n) (.receive source datagram)).steps (n := n)
      (List.replicate count (.run e.nextTask)))
    rwa [hserved, hsteps] at hsteps'
  refine (step_beginPunch hnumbered (j := e.nextTask) ?_ hnew).1
  exact asked?_eq_some_iff.mpr ⟨_, _, _, hget, _, _, rfl⟩

/-- Punches after any events: notices from anywhere and as often as may be, steps of all tasks in any order,
and the rest. The list of punches has the addresses towards which tasks punch and those where a punch was
broken off, taken away or by a panic, and a punch panics only if the number of attempts overflows. Each
address has one such task at most, which was started for it. A punch makes one Hello a round, no more than its
budget, until the first that is answered, well or badly; then it goes with its next step. When nobody punches
towards an address and no punch was broken off there, the next notice of the server begins one. Where one was
broken off, no later event begins another. -/
theorem one_punch_per_initiator (n : Node) (network : Network) (directory : Directory) (disk : Disk)
    (events : List Event) :
    let s := start n network directory disk
    let e := (s.steps n events).1
    let limit := n.settings.traversalRounds.toNat
    (∀ a, a ∈ e.punches ↔ (∃ k, e.Punching k a) ∨ BrokenOff n s events a) ∧
    (∀ j k a, e.Punching j a → e.Punching k a → j = k) ∧
    (∀ k a, e.Punching k a → Started n s events k (.punch a)) ∧
    (∀ k a, e.Panicked k a → ∃ cause, n.settings.attempts = .error cause) ∧
    (∀ k a, Started n s events k (.punch a) → ∃ rounds, Series (PunchRound n a) limit rounds ∧
      s.dialogue n k events = rounds.flatMap Round.log ∧
      (¬ e.Punching k a → Comes limit () rounds () ∨ .abort k ∈ events ∨ e.Panicked k a) ∧
      (Comes limit () rounds () → ¬ (e.step n (.run k)).1.Punching k a)) ∧
    (∀ initiator source datagram m, (∀ k, ¬ e.Punching k (.v4 initiator)) →
      ¬ BrokenOff n s events (.v4 initiator) → heard? datagram = some m →
      Request.ofMessage? m = some (.punch initiator) →
      m.Admissible n.scheme (e.finding source m) → e.listsServer n source = true →
      ∃ count, (e.steps n
        (.receive source datagram :: List.replicate count (.run e.nextTask))).1.tasks.get?
          (e.nextTask + 1) =
        some ⟨.punch (.v4 initiator), none, silent (n.punch (.v4 initiator))⟩) ∧
    ∀ a, BrokenOff n s events a → ∀ later k, ¬ (e.steps n later).1.Punching k a := by
  intro s e limit
  have hidle : Idle s := idle_start n network directory disk
  have hguarded : Guarded n s events e := guarded_steps n network directory disk events
  refine ⟨hguarded.listed, hguarded.once, fun k a => Punching.started hidle,
    fun k a => overflow_of_panicked hidle, fun k a => rounds_of_started hidle.numbered, ?_,
    fun a => not_punching_of_brokenOff⟩
  intro initiator source datagram m hnobody hkept hheard hrequest hadmissible hserver
  refine punch_of_notice (hidle.numbered.steps events) hheard hrequest hadmissible hserver fun hmem => ?_
  rcases (hguarded.listed _).mp hmem with ⟨k, hk⟩ | hbroken
  · exact hnobody k hk
  · exact hkept hbroken

/-- Three notices for one initiator, two of them from the server and one from a stranger, begin one punch. The
initiator is silent, so it ends, and another notice of the server begins the next. -/
theorem one_punch_of_repeated_notices :
    let server : Address := .v4 ⟨#v[10, 0, 0, 2], 1000⟩
    let stranger : Address := .v4 ⟨#v[10, 0, 0, 3], 1000⟩
    let initiator : Endpoint := ⟨#v[10, 0, 0, 1], 1000⟩
    let notice : Message := .ofEndpoint 7 .natTraversal initiator
    let directory := (PeerTable.empty.setAddresses "server" [server]).directory
    let told (source : Address) (task : Nat) : List Event :=
      .receive source notice.encode :: List.replicate 8 (.run task)
    let silence : List Event := .pass 100 100 :: List.replicate 8 (.run 1)
    let busy := told server 0 ++ told stranger 2 ++ told server 3
    let events := busy ++ List.replicate 8 (.run 1) ++ silence ++ silence
    let s := start .plain .ip4 directory ⟨⟨[]⟩⟩
    let e := (s.steps .plain events).1
    (∃! k, (s.steps .plain busy).1.Punching k (.v4 initiator)) ∧
      (∀ k, ¬ e.Punching k (.v4 initiator)) ∧
      ∃ count, (e.steps .plain
        (.receive server notice.encode :: List.replicate count (.run e.nextTask))).1.tasks.get?
          (e.nextTask + 1) =
        some ⟨.punch (.v4 initiator), none, silent (Node.plain.punch (.v4 initiator))⟩ := by
  intro server stranger initiator notice directory told silence busy events s e
  have hkept (past : List Event) (hpast : ∀ k, .abort k ∉ past) :
      ¬ BrokenOff .plain s past (.v4 initiator) := by
    intro hbroken
    obtain ⟨k, hk⟩ := aborted_of_brokenOff (idle_start _ _ _ _) rfl hbroken
    exact hpast k hk
  have hbusy : Address.v4 initiator ∈ (s.steps .plain busy).1.punches := by decide +kernel
  have hidle : Address.v4 initiator ∉ e.punches := by decide +kernel
  have hheard : heard? notice.encode = some notice := by decide +kernel
  have hrequest : Request.ofMessage? notice = some (.punch initiator) := by decide +kernel
  have hfinding : e.finding server notice = none := by decide +kernel
  have hserver : e.listsServer .plain server = true := by decide +kernel
  have hadmissible : notice.Admissible Node.plain.scheme (e.finding server notice) := by
    rw [hfinding]
    exact .nameless
  have hkept_busy := hkept busy (by simp [busy, told])
  have hkept_events := hkept events (by simp [events, busy, told, silence])
  clear_value events busy
  obtain ⟨listed, once, -⟩ := one_punch_per_initiator .plain .ip4 directory ⟨⟨[]⟩⟩ busy
  obtain ⟨listed', -, -, -, -, next, -⟩ := one_punch_per_initiator .plain .ip4 directory ⟨⟨[]⟩⟩ events
  obtain ⟨k, hk⟩ := ((listed _).mp hbusy).resolve_right hkept_busy
  have hnobody (k : Nat) : ¬ e.Punching k (.v4 initiator) :=
    fun hk => hidle ((listed' _).mpr (.inl ⟨k, hk⟩))
  refine ⟨⟨k, hk, fun j hj => once j k _ hj hk⟩, hnobody, ?_⟩
  exact next initiator server notice.encode notice hnobody hkept_events hheard hrequest hadmissible
    hserver

/-- With the greatest number of reemissions the punch of the first notice panics before it has sent anything.
Its address stays on the list, nobody punches towards it, and whatever the server or anybody else says later,
nobody ever will. -/
theorem no_punch_after_overflow :
    let n : Node := { Node.plain with
      settings := { Node.plain.settings with reemissions := 0xFFFFFFFF } }
    let server : Address := .v4 ⟨#v[10, 0, 0, 2], 1000⟩
    let initiator : Endpoint := ⟨#v[10, 0, 0, 1], 1000⟩
    let notice : Message := .ofEndpoint 7 .natTraversal initiator
    let directory := (PeerTable.empty.setAddresses "server" [server]).directory
    let told : List Event := .receive server notice.encode :: List.replicate 8 (.run 0)
    let s := start n .ip4 directory ⟨⟨[]⟩⟩
    let e := (s.steps n (told ++ [.run 1])).1
    (s.steps n (told ++ [.run 1])).2 = [] ∧ .v4 initiator ∈ e.punches ∧
      (∀ k, ¬ e.Punching k (.v4 initiator)) ∧ e.listsServer n server = true ∧
      ∀ later k, ¬ (e.steps n later).1.Punching k (.v4 initiator) := by
  intro n server initiator notice directory told s e
  have hsilent : (s.steps n (told ++ [.run 1])).2 = [] := by decide +kernel
  have hlisted : Address.v4 initiator ∈ e.punches := by decide +kernel
  have hserver : e.listsServer n server = true := by decide +kernel
  have hwas : (s.steps n told).1.Punching 1 (.v4 initiator) := by decide +kernel
  have hnow : ((s.steps n told).1.step n (.run 1)).1.Panicked 1 (.v4 initiator) := by decide +kernel
  clear_value n notice directory told
  have hbroken : BrokenOff n s (told ++ [.run 1]) (.v4 initiator) :=
    ⟨told, .run 1, [], 1, rfl, .panicked hwas hnow⟩
  have hforsaken := not_punching_of_brokenOff hbroken
  exact ⟨hsilent, hlisted, hforsaken [], hserver, hforsaken⟩

end Engine
end TreeShare
