import TreeShare.Config.File
import TreeShare.Proofs.Engine.Outbound
import TreeShare.Proofs.Engine.Solo
import TreeShare.Proofs.Toml.Integers

/-! The times that a configuration sets. A file cannot state a number of more than 63 bits, but neither it
nor the environment is held to what the arithmetic of requests and the timers of an engine can bear. Main
statement: `timing`. -/
namespace TreeShare

/-! What a file can state. -/

namespace Config

open Toml

theorem bounded_fieldValues {v : Value} (hv : v.Bounded) {names : List String}
    {values : List (Option Value)} (h : fieldValues names v = some values) :
    ∀ o ∈ values, ∀ x, o = some x → x.Bounded := by
  rintro o ho x rfl
  cases hv with
  | table hrows =>
    cases h
    obtain ⟨name, -, hlookup⟩ := List.mem_map.mp ho
    exact Rows.Bounded.lookup hrows hlookup
  | tables hitems =>
    cases h
    obtain ⟨i, -, hitem⟩ := List.mem_map.mp ho
    obtain ⟨rows, hrows, rfl⟩ := Option.map_eq_some_iff.mp hitem
    exact .table (hitems rows (List.mem_of_getElem? hrows))
  | list hitems =>
    cases h
    obtain ⟨i, -, hitem⟩ := List.mem_map.mp ho
    exact hitems x (List.mem_of_getElem? hitem)
  | moment =>
    cases h
    obtain ⟨name, -, hnone⟩ := List.mem_map.mp ho
    contradiction
  | _ => contradiction

theorem span?_isInt64 {v : Value} (hv : v.Bounded) {n : UInt64} (h : span? v = some n) :
    IsInt64 n.toNat := by
  obtain ⟨k, hk, rfl⟩ := Option.map_eq_some_iff.mp h
  cases hv with
  | @integer m hbound =>
    unfold number? at hk
    dsimp only at hk
    split at hk
    · cases hk
      have hlow := hbound.1
      have hhigh := hbound.2
      unfold IsInt64
      rw [UInt64.toNat_ofNat']
      omega
    · contradiction
  | _ => contradiction

theorem span_isInt64 {o : Option Value} (ho : ∀ v, o = some v → v.Bounded) {missing n : UInt64}
    (hmissing : IsInt64 missing.toNat) (h : field span? missing o = some n) : IsInt64 n.toNat := by
  cases o with
  | none =>
    cases h
    exact hmissing
  | some v => exact span?_isInt64 (ho v rfl) h

theorem reliability_isInt64 {v : Value} (hv : v.Bounded) {d r : ReliabilitySection}
    (hd : IsInt64 d.replyTimeoutMs.toNat) (h : reliability? d v = some r) :
    IsInt64 r.replyTimeoutMs.toNat := by
  obtain ⟨values, hvalues, h⟩ := Option.bind_eq_some_iff.mp h
  have hbounded := bounded_fieldValues hv hvalues
  split at h
  · rename_i reemissions timeout rounds keepAlive reap signing
    obtain ⟨_, -, h⟩ := Option.bind_eq_some_iff.mp h
    obtain ⟨n, hn, h⟩ := Option.bind_eq_some_iff.mp h
    obtain ⟨_, -, h⟩ := Option.bind_eq_some_iff.mp h
    obtain ⟨_, -, h⟩ := Option.bind_eq_some_iff.mp h
    obtain ⟨_, -, h⟩ := Option.bind_eq_some_iff.mp h
    obtain ⟨_, -, h⟩ := Option.bind_eq_some_iff.mp h
    cases h
    exact span_isInt64 (hbounded timeout (by simp)) hd hn
  · contradiction

theorem parse_isInt64 {standard c : Config} {text : String}
    (hstandard : IsInt64 standard.reliability.replyTimeoutMs.toNat)
    (h : parse standard text = some c) : IsInt64 c.reliability.replyTimeoutMs.toNat := by
  obtain ⟨v, hv, h⟩ := Option.bind_eq_some_iff.mp h
  obtain ⟨values, hvalues, h⟩ := Option.bind_eq_some_iff.mp h
  have hbounded := bounded_fieldValues (parse_bounded hv) hvalues
  split at h
  · rename_i identity network «export» reliability
    obtain ⟨_, -, h⟩ := Option.bind_eq_some_iff.mp h
    obtain ⟨_, -, h⟩ := Option.bind_eq_some_iff.mp h
    obtain ⟨_, -, h⟩ := Option.bind_eq_some_iff.mp h
    obtain ⟨r, hr, h⟩ := Option.bind_eq_some_iff.mp h
    cases h
    cases reliability with
    | none =>
      cases hr
      exact hstandard
    | some v => exact reliability_isInt64 (hbounded (some v) (by simp) v rfl) hstandard hr
  · contradiction

theorem load_isInt64 {env : Environment} {d : Disk} {c : Config} (h : load env d = .ok c) :
    IsInt64 c.reliability.replyTimeoutMs.toNat := by
  have hstandard : IsInt64 (standard env).reliability.replyTimeoutMs.toNat := by
    show IsInt64 (500 : UInt64).toNat
    decide
  unfold load at h
  dsimp only at h
  split at h
  · obtain ⟨base, hbase, h⟩ := Except.bind_eq_ok_iff.mp h
    cases h
    show IsInt64 base.reliability.replyTimeoutMs.toNat
    obtain ⟨text, -, hbase⟩ := Except.bind_eq_ok_iff.mp hbase
    split at hbase
    · rename_i hparse
      cases hbase
      exact parse_isInt64 hstandard hparse
    · contradiction
  · cases h
    exact hstandard

end Config

/-! What an engine needs. -/

namespace Engine

variable {n : Node} {e : Engine}

/-- No task ever gives up on arithmetic. -/
def NeverHalts (n : Node) : Prop :=
  ∀ network directory disk events k t,
    ((start n network directory disk).steps n events).1.tasks.get? k = some t →
    ∀ cause next, t.program ≠ .ask (.halt cause) next

/-- There is always a time for the next sweep, and a sweep when it has come. -/
def Sweeps (n : Node) : Prop :=
  ∀ network directory disk events, let e := ((start n network directory disk).steps n events).1
    ∃ due, e.nextSweep = some due ∧
      ∀ time age, due ≤ e.clock + time → ((e.step n (.pass time age)).1.sweep? n).isSome

/-- Where the server is to be greeted at intervals, there is a task that does so until it is taken away. -/
def Greets (n : Node) : Prop :=
  ∀ network directory disk events, let e := ((start n network directory disk).steps n events).1
    ∀ later, .abort e.nextTask ∉ later →
      ∃ t next, ((e.step n .keepAlive).1.steps n later).1.tasks.get? e.nextTask = some t ∧
        t.duty = .keepAlive next

theorem neverHalts_iff : NeverHalts n ↔ ∃ k, n.settings.attempts = .ok k := by
  constructor
  · intro h
    cases hattempts : n.settings.attempts with
    | ok k => exact ⟨k, rfl⟩
    | error cause =>
      let a : Address := .v4 ⟨#v[10, 0, 0, 1], 1000⟩
      obtain ⟨next, hprogram⟩ := n.run_send_of_overflow a (.empty 0 .root) hattempts
      have htask := get?_spawn (start n .ip4 PeerTable.empty.directory .empty) .call
        (n.run (.send a (.empty 0 .root)))
      exact absurd hprogram (h _ _ _ [.call (.send a (.empty 0 .root))] 0 _ htask cause next)
  · rintro ⟨k, hattempts⟩ network directory disk events task ⟨duty, ticket, program⟩ ht cause next hprogram
    cases hprogram
    obtain ⟨errand, -, hhalts⟩ := obeys_next (outbound_of_runs n) (idle_start n network directory disk) ht
    cases hattempts.symm.trans hhalts

theorem nextSweep_step (n : Node) (e : Engine) (event : Event) :
    (e.step n event).1.nextSweep.isSome = e.nextSweep.isSome := by
  have h := change_step n e event
  generalize e.step n event = after at h
  cases h with
  | @finish _ duty => cases duty <;> rfl
  | answer _ hanswer =>
    show (Engine.nextSweep _).isSome = _
    exact congrArg _ (frame_perform hanswer).nextSweep
  | sweep hnext => exact (hnext ▸ rfl : true = e.nextSweep.isSome)
  | _ => rfl

theorem nextSweep_steps (n : Node) (e : Engine) (events : List Event) :
    (e.steps n events).1.nextSweep.isSome = e.nextSweep.isSome := by
  induction events generalizing e with
  | nil => rfl
  | cons event events ih => exact (ih _).trans (nextSweep_step n e event)

theorem sweep?_isSome {due : Nat} (hnext : e.nextSweep = some due) :
    (e.sweep? n).isSome ↔ (∃ w, n.settings.retryWindow = .ok w) ∧ due ≤ e.clock := by
  unfold sweep?
  rw [hnext]
  cases n.settings.retryWindow with
  | error cause => simp [Except.toOption]
  | ok w =>
    simp only [Except.toOption, Option.bind_eq_bind, Option.bind_some]
    split <;> simp_all

theorem sweeps_iff :
    Sweeps n ↔ (∃ w, n.settings.retryWindow = .ok w) ∧ n.settings.reapInterval ≠ 0 := by
  constructor
  · intro h
    obtain ⟨due, hnext, hsweep⟩ := h .ip4 PeerTable.empty.directory .empty []
    have hfirst : (start n .ip4 PeerTable.empty.directory .empty).nextSweep = some due := hnext
    refine ⟨?_, fun hzero => ?_⟩
    · have hswept := hsweep due 0 (Nat.le_add_left _ _)
      exact ((sweep?_isSome (by exact hnext)).mp hswept).1
    · unfold start at hfirst
      rw [if_pos hzero] at hfirst
      contradiction
  · rintro ⟨hwindow, hinterval⟩ network directory disk events
    have hsome := nextSweep_steps n (start n network directory disk) events
    have hfirst : (start n network directory disk).nextSweep = some 0 := if_neg hinterval
    rw [hfirst] at hsome
    obtain ⟨due, hdue⟩ := Option.isSome_iff_exists.mp hsome
    exact ⟨due, hdue, fun time age htime => (sweep?_isSome (by exact hdue)).mpr ⟨hwindow, htime⟩⟩

theorem greets_steps {k : Nat} (hk : k < e.nextTask) {t : Task} {due : Nat}
    (ht : e.tasks.get? k = some t) (hduty : t.duty = .keepAlive due) {later : List Event}
    (hlater : .abort k ∉ later) :
    ∃ t next, (e.steps n later).1.tasks.get? k = some t ∧ t.duty = .keepAlive next := by
  induction later generalizing e t due with
  | nil => exact ⟨t, due, ht, hduty⟩
  | cons event later ih =>
    obtain ⟨hevent, hrest⟩ := not_or.mp (mt List.mem_cons.mpr hlater)
    have hk' := Nat.lt_of_lt_of_le hk (nextTask_step n e event)
    by_cases hother : Touches k event
    · cases event <;> try exact hother.elim
      case abort =>
        cases hother
        exact absurd rfl hevent
      case run =>
        cases hother
        obtain ⟨duty, ticket, program⟩ := t
        cases hduty
        cases program with
        | done o =>
          rw [steps_cons]
          rw [step_run_of_done ht] at hk' ⊢
          exact ih hk' ((get?_setTask ..).trans (if_pos rfl)) rfl hrest
        | ask op next =>
          rw [steps_cons]
          cases hanswer : e.perform n op with
          | none =>
            rw [step_run_of_waits ht hanswer]
            exact ih hk ht rfl hrest
          | some x =>
            obtain ⟨answer, e', records⟩ := x
            rw [step_run_of_answer ht hanswer] at hk' ⊢
            exact ih hk' ((get?_setTask ..).trans (if_pos rfl)) rfl hrest
    · exact ih hk' ((task_step_of_other hk hother).1.trans ht) hduty hrest

theorem greets_iff : Greets n ↔ n.settings.keepAlive ≠ 0 := by
  constructor
  · intro h hzero
    obtain ⟨t, next, ht, -⟩ := h .ip4 PeerTable.empty.directory .empty [] [] (by simp)
    have hnone : (start n .ip4 PeerTable.empty.directory .empty).step n .keepAlive =
        (start n .ip4 PeerTable.empty.directory .empty, []) := if_pos hzero
    simp only [steps_nil, hnone] at ht
    exact absurd ht (by simp [start])
  · intro hinterval network directory disk events
    dsimp only
    generalize ((start n network directory disk).steps n events).1 = e
    intro later hlater
    have hstep : (e.step n .keepAlive).1 = (e.spawn (.keepAlive (e.clock + n.settings.keepAlive))
        (silent (n.keepAliveRound e.clock))).2 := by
      unfold step
      dsimp only
      rw [if_neg hinterval]
    rw [hstep]
    exact greets_steps (Nat.lt_succ_self _) (get?_spawn ..) rfl hlater

end Engine

namespace Config

theorem retryWindow_of_lt {env : Environment} {d : Disk} {c : Config} (h : load env d = .ok c)
    (hfew : c.reliability.reemissions.toNat < 2000) : ∃ w, c.settings.retryWindow = .ok w := by
  have hfits : c.reliability.reemissions ≠ 0xFFFFFFFF := by
    intro hlast
    rw [hlast] at hfew
    contradiction
  have hlong := (load_isInt64 h).2
  have hwindow := calc c.reliability.replyTimeoutMs.toNat * (c.reliability.reemissions.toNat + 1)
      ≤ c.reliability.replyTimeoutMs.toNat * 2000 := Nat.mul_le_mul_left _ hfew
    _ < 9223372036854775808 * 2000 := Nat.mul_lt_mul_of_pos_right (by omega) (by decide)
    _ = 1000 * UInt64.size := by decide
  exact ⟨_, Settings.retryWindow_eq_ok_iff.mpr ⟨hfits, rfl, hwindow⟩⟩

/-- Of every configuration that is loaded, the number of attempts fits its type unless the number of
reemissions is the greatest there is. The retry window is there when its seconds fit theirs as well, as they
do for fewer than 2000 reemissions. An interval is empty exactly if it is set to zero. An engine needs this
and no more: for its tasks never to give up on arithmetic, for the sweeps to go on, and for a task that greets
the server at intervals to stay. -/
theorem timing {env : Environment} {d : Disk} {c : Config} (h : load env d = .ok c) :
    (∀ k, c.settings.attempts = .ok k ↔
      c.reliability.reemissions ≠ 0xFFFFFFFF ∧ k = c.reliability.reemissions.toNat + 1) ∧
    (∀ w, c.settings.retryWindow = .ok w ↔ c.reliability.reemissions ≠ 0xFFFFFFFF ∧
      w = c.reliability.replyTimeoutMs.toNat * (c.reliability.reemissions.toNat + 1) ∧
      w < 1000 * UInt64.size) ∧
    (c.reliability.reemissions.toNat < 2000 → ∃ w, c.settings.retryWindow = .ok w) ∧
    (c.settings.reapInterval = 0 ↔ c.reliability.reapIntervalMs = 0) ∧
    (c.settings.keepAlive = 0 ↔ c.reliability.keepAliveSecs = 0) ∧
    ∀ n : Node, n.settings = c.settings →
      (Engine.NeverHalts n ↔ ∃ k, c.settings.attempts = .ok k) ∧
      (Engine.Sweeps n ↔ (∃ w, c.settings.retryWindow = .ok w) ∧ c.settings.reapInterval ≠ 0) ∧
      (Engine.Greets n ↔ c.settings.keepAlive ≠ 0) := by
  refine ⟨fun k => Settings.attempts_eq_ok_iff, fun w => Settings.retryWindow_eq_ok_iff,
    retryWindow_of_lt h, ?_, ?_, fun n hn => ?_⟩
  · exact UInt64.toNat_inj (b := 0)
  · show 1000 * c.reliability.keepAliveSecs.toNat = 0 ↔ _
    rw [← UInt64.toNat_inj, Nat.mul_eq_zero, or_iff_right (by decide)]
    rfl
  · rw [← hn]
    exact ⟨Engine.neverHalts_iff, Engine.sweeps_iff, Engine.greets_iff⟩

theorem timing_of_defaults :
    let env : Environment := ⟨fun _ => none⟩
    load env .empty = .ok (standard env) ∧ (standard env).settings.attempts = .ok 5 ∧
      (standard env).settings.retryWindow = .ok 2500 ∧
      ∀ n : Node, n.settings = (standard env).settings →
        Engine.NeverHalts n ∧ Engine.Sweeps n ∧ Engine.Greets n := by
  intro env
  have hload : load env .empty = .ok (standard env) := rfl
  have hattempts : (standard env).settings.attempts = .ok 5 := rfl
  have hwindow : (standard env).settings.retryWindow = .ok 2500 := by decide +kernel
  obtain ⟨-, -, -, hreap, hkeep, hengine⟩ := timing hload
  refine ⟨hload, hattempts, hwindow, fun n hn => ?_⟩
  obtain ⟨hhalts, hsweeps, hgreets⟩ := hengine n hn
  exact ⟨hhalts.mpr ⟨5, hattempts⟩, hsweeps.mpr ⟨⟨2500, hwindow⟩, mt hreap.mp (by decide)⟩,
    hgreets.mpr (mt hkeep.mp (by decide))⟩

/-- Three configurations that are loaded: the greatest number of reemissions from the environment, and from
files the longest timeout and empty intervals. -/
theorem not_timely :
    let greatest : Environment :=
      ⟨fun name => if name = "ARBOR_RELIABILITY__REEMISSIONS" then some "4294967295" else none⟩
    let named : Environment := ⟨fun name => if name = "ARBOR_CONFIG" then some "c" else none⟩
    let holding (text : String) : Disk := ⟨⟨[([[0x63]], .file (Utf8.encode text) 0o644)]⟩⟩
    (∃ c, load greatest .empty = .ok c ∧ c.settings.attempts = .error .addition ∧
      c.settings.retryWindow = .error .addition ∧
      ∀ n : Node, n.settings = c.settings → ¬ Engine.NeverHalts n ∧ ¬ Engine.Sweeps n) ∧
    (∃ c, load named (holding
        "[reliability]\nreemissions = 2000\nreply_timeout_ms = 9223372036854775807\n") = .ok c ∧
      c.settings.attempts = .ok 2001 ∧ c.settings.retryWindow = .error .duration ∧
      ∀ n : Node, n.settings = c.settings → ¬ Engine.Sweeps n) ∧
    ∃ c, load named (holding "[reliability]\nkeep_alive_secs = 0\nreap_interval_ms = 0\n") = .ok c ∧
      c.settings.keepAlive = 0 ∧ c.settings.reapInterval = 0 ∧
      ∀ n : Node, n.settings = c.settings → ¬ Engine.Sweeps n ∧ ¬ Engine.Greets n := by
  intro greatest named holding
  let c₁ := { standard greatest with reliability.reemissions := 4294967295 }
  let c₂ := { standard named with
    reliability.reemissions := 2000, reliability.replyTimeoutMs := 9223372036854775807 }
  let c₃ := { standard named with
    reliability.keepAliveSecs := 0, reliability.reapIntervalMs := 0 }
  have hattempts : c₁.settings.attempts = .error .addition := rfl
  have hnoWindow : c₁.settings.retryWindow = .error .addition := rfl
  have hlongWindow : c₂.settings.retryWindow = .error .duration := by decide +kernel
  refine ⟨⟨c₁, by decide +kernel, hattempts, hnoWindow, fun n hn => ⟨fun h => ?_, fun h => ?_⟩⟩,
    ⟨c₂, by decide +kernel, rfl, hlongWindow, fun n hn h => ?_⟩,
    c₃, by decide +kernel, rfl, rfl, fun n hn => ⟨fun h => ?_, fun h => ?_⟩⟩
  · obtain ⟨k, hk⟩ := Engine.neverHalts_iff.mp h
    cases hattempts.symm.trans (hn ▸ hk)
  · obtain ⟨w, hw⟩ := (Engine.sweeps_iff.mp h).1
    cases hnoWindow.symm.trans (hn ▸ hw)
  · obtain ⟨w, hw⟩ := (Engine.sweeps_iff.mp h).1
    cases hlongWindow.symm.trans (hn ▸ hw)
  · exact (Engine.sweeps_iff.mp h).2 (by rw [hn]; rfl)
  · exact Engine.greets_iff.mp h (by rw [hn]; rfl)

end Config
end TreeShare
