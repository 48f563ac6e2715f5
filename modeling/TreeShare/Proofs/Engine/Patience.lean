import TreeShare.Proofs.Engine.Duel
import TreeShare.Proofs.Engine.Together

/-! How long a call waits before it gives an address up. A call with a key of its own waits all its windows
out; two calls under one key close each other's ticket at every attempt and need no time at all. Main
statement: `patience`. -/
namespace TreeShare

/-! A request alone. -/

namespace Line

def giveUp? (n : Node) (clock : Nat) : Line → Option Nat
  | registered (.sending more) _ => some (clock + more * n.settings.replyTimeout)
  | registered (.timing more) _ => some (clock + (more + 1) * n.settings.replyTimeout)
  | registered (.waiting more deadline) _ => some (deadline + more * n.settings.replyTimeout)
  | left .noReply => some clock
  | _ => none

theorem giveUp?_begin (l : Line) (n : Node) (clock : Nat) :
    l.begin.giveUp? n clock = l.giveUp? n clock := by
  cases l <;> rfl

theorem giveUp?_deliver (l : Line) (r : Message) (now : Nat) (n : Node) (clock : Nat) :
    (l.deliver r now).giveUp? n clock = l.giveUp? n clock := by
  cases l with
  | registered stage mail => cases stage <;> cases mail <;> rfl
  | _ => rfl

theorem giveUp?_sweep (l : Line) (window now : Nat) (n : Node) (clock : Nat) :
    (l.sweep window now).giveUp? n clock = l.giveUp? n clock := by
  cases l <;> rfl

theorem giveUp?_mono {l : Line} {n : Node} {clock clock' later : Nat} (hclock : clock ≤ clock')
    (h : l.giveUp? n clock' = some later) :
    ∃ earlier, l.giveUp? n clock = some earlier ∧ earlier ≤ later := by
  cases l with
  | absent => contradiction
  | fresh => contradiction
  | registered stage mail =>
    cases stage with
    | unsent => contradiction
    | waiting => exact ⟨later, h, Nat.le_refl _⟩
    | sending | timing =>
      cases Option.some.inj h
      exact ⟨_, rfl, by omega⟩
  | left how =>
    cases how with
    | noReply =>
      cases Option.some.inj h
      exact ⟨clock, rfl, hclock⟩
    | unsent => contradiction
    | told => contradiction

theorem giveUp?_run {l : Line} (hbegun : l.Begun) {n : Node} {w : Network} {a : Address} {m : Message}
    {clock later : Nat} (h : (l.run n w a m clock).giveUp? n clock = some later) :
    ∃ earlier, l.giveUp? n clock = some earlier ∧ earlier ≤ later := by
  have hran := ran_run n w a m clock l
  generalize l.run n w a m clock = after at h hran
  cases hran with
  | rest => exact ⟨later, h, Nat.le_refl _⟩
  | register => exact hbegun.elim
  | giveUp mail =>
    cases Option.some.inj h
    exact ⟨_, rfl, by omega⟩
  | send more mail => exact ⟨later, h, Nat.le_refl _⟩
  | fail => contradiction
  | time more mail =>
    refine ⟨later, ?_, Nat.le_refl _⟩
    rw [← h]
    apply congrArg some
    rw [Nat.succ_mul]
    omega
  | tell => contradiction
  | silence hdue more =>
    cases Option.some.inj h
    exact ⟨_, rfl, Nat.add_le_add_right hdue _⟩
  | leave => contradiction

end Line

namespace Solo

variable {n : Node} {k : Nat} {a : Address} {m : Message} {s : Solo}

theorem giveUp?_step (hbegun : s.line.Begun) {event : Event} {later : Nat}
    (h : (s.step n k a m event).line.giveUp? n (s.step n k a m event).clock = some later) :
    ∃ earlier, s.line.giveUp? n s.clock = some earlier ∧ earlier ≤ later := by
  obtain ⟨between, hbetween, hle⟩ :=
    Line.giveUp?_mono (clock_step_le n k a m s event) h
  have htouched := touched_step n k a m s event
  generalize (s.step n k a m event).line = l at hbetween htouched
  cases htouched with
  | rest => exact ⟨between, hbetween, hle⟩
  | begin => exact ⟨between, s.line.giveUp?_begin n _ ▸ hbetween, hle⟩
  | deliver => exact ⟨between, s.line.giveUp?_deliver _ _ n _ ▸ hbetween, hle⟩
  | sweep => exact ⟨between, s.line.giveUp?_sweep _ _ n _ ▸ hbetween, hle⟩
  | run =>
    obtain ⟨earlier, hearlier, hle'⟩ := Line.giveUp?_run hbegun hbetween
    exact ⟨earlier, hearlier, Nat.le_trans hle' hle⟩

theorem giveUp?_steps (hbegun : s.line.Begun) {events : List Event} {later : Nat}
    (h : (s.steps n k a m events).line.giveUp? n (s.steps n k a m events).clock = some later) :
    ∃ earlier, s.line.giveUp? n s.clock = some earlier ∧ earlier ≤ later := by
  induction events generalizing s with
  | nil => exact ⟨later, h, Nat.le_refl _⟩
  | cons event events ih =>
    obtain ⟨between, hbetween, hle⟩ := ih (begun_step hbegun event) h
    obtain ⟨earlier, hearlier, hle'⟩ := giveUp?_step hbegun hbetween
    exact ⟨earlier, hearlier, Nat.le_trans hle' hle⟩

end Solo

namespace Node

theorem ne_noReply_of_checkReply {sent r : Message} {cause : RequestError}
    (h : checkReply sent r = .error cause) (b : Address) (count : Nat) : cause ≠ .noReply b count := by
  unfold checkReply at h
  split at h
  · cases h
    nofun
  · split at h
    · cases h
      nofun
    · split at h
      · split at h
        · cases h
          nofun
        · split at h <;> cases h
          nofun
      · cases h

theorem not_noReply_of_validate {n : Node} {a b : Address} {sent r : Message} {log : List Asked}
    {count : Nat} (h : (settle (n.validate a sent r)).After log (.done (.failed (.noReply b count)))) :
    False := by
  cases hcheck : checkReply sent r with
  | error cause =>
    rw [settle_validate_of_error hcheck, Proc.after_done_iff] at h
    cases h.2
    exact ne_noReply_of_checkReply hcheck b count rfl
  | ok =>
    rw [settle_validate_of_ok hcheck] at h
    obtain ⟨_, v, _, _, _, hv⟩ := Proc.after_bind_done_iff.mp h
    cases v <;> cases (Proc.after_done_iff.mp hv).2

end Node

namespace Engine

variable {n : Node} {e : Engine} {k : Nat} {a : Address} {m : Message} {line : Line}
  {calls : List (Address × Message)} {attempts : Nat} {s : Solo}

/-- No call gives an address up before all its windows are over, counted from its first step. -/
def Patient (n : Node) (attempts : Nat) (e : Engine) (events : List Event) : Prop :=
  ∀ past later k b count, events = past ++ .run k :: later →
    .ended k (.failed (.noReply b count)) ∈ ((e.steps n past).1.step n (.run k)).2 →
    ∃ first, (e.turns n k past).head? = some first ∧
      first.engine.clock + attempts * n.settings.replyTimeout ≤ (e.steps n past).1.clock

theorem Tracks.of_noReply (h : Tracks n e k a m line) {b : Address} {count : Nat}
    (hended : .ended k (.failed (.noReply b count)) ∈ (e.step n (.run k)).2) :
    line = .left .noReply := by
  obtain ⟨ticket, htask⟩ := task_of_ended hended
  cases h with
  | absent _ task => cases task.symm.trans htask
  | fresh _ task =>
    have hprogram := congrArg Task.program (Option.some.inj (task.symm.trans htask))
    exact absurd hprogram (n.run_send_ne_done a m _)
  | @registered stage _ _ _ _ _ task =>
    have hprogram := congrArg Task.program (Option.some.inj (task.symm.trans htask))
    exact absurd hprogram (stage.program_ne_done n a m _ _ _)
  | @left how _ task =>
    have hallows := (task _ htask).2
    cases how with
    | noReply => rfl
    | unsent => cases hallows
    | told r =>
      obtain ⟨log, hlog⟩ := hallows
      exact (Node.not_noReply_of_validate hlog).elim

theorem Follows.first_turn (hs : Follows n e k a m s) (hlimit : n.settings.attempts = .ok attempts)
    (hyoung : ¬ s.line.Begun) (event : Event) :
    (e.turnOf n k event = none ∧ ¬ (s.step n k a m event).line.Begun) ∨
      ∃ asked mail, e.turnOf n k event = some ⟨e, asked⟩ ∧
        s.step n k a m event = { s with line := .registered (.sending attempts) mail } := by
  by_cases hrun : event = .run k
  · subst hrun
    obtain ⟨clock, ageClock, nextSweep, network, called, line⟩ := s
    have htracks := hs.tracks
    cases line with
    | absent parked =>
      cases htracks with
      | absent _ task =>
        refine .inl ⟨turnOf_of_none task _, ?_⟩
        unfold Solo.step
        dsimp only
        rw [if_pos rfl]
        exact id
    | fresh parked =>
      cases htracks with
      | fresh _ task =>
        rw [n.run_send_of_attempts a m attempts hlimit] at task
        refine .inr ⟨_, parked.map Prod.fst,
          turnOf_of_answer task (perform_register n e (a, m.id)), ?_⟩
        unfold Solo.step Line.run
        dsimp only
        rw [if_pos rfl, hlimit]
    | registered => exact absurd trivial hyoung
    | left => exact absurd trivial hyoung
  · refine .inl ⟨?_, ?_⟩
    · cases event with
      | run j => exact if_neg fun hj => hrun (congrArg Event.run hj)
      | _ => rfl
    · have htouched := Solo.touched_step n k a m s event
      generalize (s.step n k a m event).line = l at htouched
      cases htouched with
      | rest => exact hyoung
      | begin => exact fun h => hyoung (s.line.begun_begin.mp h)
      | run => exact absurd rfl hrun
      | deliver => exact fun h => hyoung ((s.line.begun_deliver _ _).mp h)
      | sweep => exact fun h => hyoung ((s.line.begun_sweep _ _).mp h)

theorem Together.waited (h : Together n e calls) (hkeys : (calls.map keyOfCall).Nodup)
    (hlimit : n.settings.attempts = .ok attempts) {events later : List Event}
    (ha : Ahead e calls (events ++ later)) (hk : calls[k]? = some (a, m))
    (hs : Follows n e k a m s) (hyoung : ¬ s.line.Begun)
    (hleft : (s.steps n k a m events).line = .left .noReply) :
    ∃ first, (e.turns n k events).head? = some first ∧
      first.engine.clock + attempts * n.settings.replyTimeout ≤ (s.steps n k a m events).clock := by
  induction events generalizing e s with
  | nil =>
    change s.line = _ at hleft
    rw [hleft] at hyoung
    exact absurd trivial hyoung
  | cons event events ih =>
    rw [turns]
    rcases hs.first_turn hlimit hyoung event with ⟨hturn, hstill⟩ | ⟨asked, mail, hturn, hstep⟩
    · obtain ⟨hfirst, hnext, hrest⟩ := h.ahead ha
      obtain ⟨htogether, hfollows⟩ := h.step hkeys hfirst hnext
      rw [hturn]
      exact ih htogether hrest (hfollows k a m s hk hs) hstill hleft
    · rw [hturn]
      refine ⟨_, rfl, ?_⟩
      have hgiveUp : (s.steps n k a m (event :: events)).line.giveUp? n
          (s.steps n k a m (event :: events)).clock =
            some (s.steps n k a m (event :: events)).clock := by
        rw [hleft]
        rfl
      change (((s.step n k a m event).steps n k a m events).line.giveUp? n _) = _ at hgiveUp
      have hbegun : (s.step n k a m event).line.Begun := by
        rw [hstep]
        trivial
      obtain ⟨earlier, hearlier, hle⟩ := Solo.giveUp?_steps hbegun hgiveUp
      rw [hstep] at hearlier
      cases Option.some.inj hearlier
      rw [← hs.clock]
      exact hle

theorem patient_of_distinct (n : Node) (network : Network) (directory : Directory) (disk : Disk)
    (hlimit : n.settings.attempts = .ok attempts) {events : List Event}
    (hlegal : ∀ event ∈ events, event.OfCalls)
    (hkeys : ((events.filterMap Event.call?).map keyOfCall).Nodup) :
    Patient n attempts (start n network directory disk) events := by
  intro past later k b count hsplit hended
  subst hsplit
  obtain ⟨htogether, -, hfollows⟩ := @follows_steps n network directory disk past _ hlegal hkeys
  obtain ⟨ticket, htask⟩ := task_of_ended hended
  obtain ⟨⟨a, m⟩, hk⟩ : ∃ c, ((past ++ .run k :: later).filterMap Event.call?)[k]? = some c :=
    ⟨_, List.getElem?_eq_getElem (htogether.tasks k _ htask).2⟩
  have hs := hfollows k a m hk
  obtain ⟨first, hhead, hle⟩ := (together_start n network directory disk _).waited hkeys hlimit
    (ahead_start n network directory disk hlegal) hk (follows_start n network directory disk k a m) id
    (hs.tracks.of_noReply hended)
  exact ⟨first, hhead, hs.clock ▸ hle⟩

def callsOf (calls : List (Address × Message)) : List Event :=
  calls.map fun c => .call (.send c.1 c.2)

theorem filterMap_callsOf (calls : List (Address × Message)) (ks : List Nat) :
    (callsOf calls ++ ks.map Event.run).filterMap Event.call? = calls := by
  have hruns : (ks.map Event.run).filterMap Event.call? = [] := by
    rw [List.filterMap_map]
    exact List.filterMap_eq_nil_iff.mpr fun _ _ => rfl
  have hcalls : (callsOf calls).filterMap Event.call? = calls := by
    unfold callsOf
    rw [List.filterMap_map]
    exact List.filterMap_some
  rw [List.filterMap_append, hruns, hcalls, List.append_nil]

theorem ofCalls_of_mem {ks : List Nat} {event : Event} (h : event ∈ callsOf calls ++ ks.map .run) :
    event.OfCalls := by
  rcases List.mem_append.mp h with h | h
  · obtain ⟨c, -, rfl⟩ := List.mem_map.mp h
    trivial
  · obtain ⟨k, -, rfl⟩ := List.mem_map.mp h
    trivial

theorem steps_callsOf (n : Node) (e : Engine) (calls : List (Address × Message)) :
    (e.steps n (callsOf calls)).1.replies = e.replies ∧
      (e.steps n (callsOf calls)).1.clock = e.clock ∧
      (e.steps n (callsOf calls)).1.network = e.network ∧
      (∀ k, k < e.nextTask → (e.steps n (callsOf calls)).1.tasks.get? k = e.tasks.get? k) ∧
      ∀ (i : Nat) (c : Address × Message), calls[i]? = some c →
        (e.steps n (callsOf calls)).1.tasks.get? (e.nextTask + i) =
          some ⟨.call, none, n.run (.send c.1 c.2)⟩ := by
  induction calls generalizing e with
  | nil => exact ⟨rfl, rfl, rfl, fun _ _ => rfl, fun _ _ h => nomatch h⟩
  | cons c calls ih =>
    have hself := get?_spawn e .call (n.run (.send c.1 c.2))
    have hframe := frame_spawn e .call (n.run (.send c.1 c.2))
    obtain ⟨hreplies, hclock, hnetwork, htasks, hcalls⟩ := ih (e.spawn .call (n.run (.send c.1 c.2))).2
    refine ⟨hreplies, hclock, hnetwork, fun k hk => ?_, fun i d hd => ?_⟩
    · exact (htasks k (Nat.lt_succ_of_lt hk)).trans (hframe.tasks k hk)
    · cases i with
      | zero =>
        cases hd
        exact (htasks e.nextTask (Nat.lt_succ_self _)).trans hself
      | succ i =>
        have h := hcalls i d hd
        rwa [show (e.spawn .call (n.run (.send c.1 c.2))).2.nextTask + i = e.nextTask + (i + 1) from
          Nat.add_right_comm .. ] at h

theorem exists_same_key (h : ¬ (calls.map keyOfCall).Nodup) :
    ∃ (i j : Nat) (a : Address) (m x : Message), i ≠ j ∧ m.id = x.id ∧
      calls[i]? = some (a, m) ∧ calls[j]? = some (a, x) := by
  refine Classical.byContradiction fun hnone => h ?_
  rw [List.Nodup, List.pairwise_iff_getElem]
  intro i j hi hj hlt hkey
  rw [List.length_map] at hi hj
  rw [List.getElem_map, List.getElem_map] at hkey
  obtain ⟨haddress, hid⟩ := Prod.mk.inj hkey
  refine hnone ⟨i, j, calls[i].1, calls[i].2, calls[j].2, Nat.ne_of_lt hlt, hid,
    List.getElem?_eq_getElem hi, ?_⟩
  rw [haddress]
  exact List.getElem?_eq_getElem hj

theorem attempts_pos (hlimit : n.settings.attempts = .ok attempts) : 0 < attempts := by
  unfold Settings.attempts at hlimit
  dsimp only at hlimit
  split at hlimit <;> cases hlimit
  exact Nat.succ_pos _

/-- With calls under different keys every address that is given up has had all its windows. Two calls
under one key can give an address up with no time passed at all. -/
theorem patience (n : Node) (network : Network) (directory : Directory) (disk : Disk)
    (calls : List (Address × Message)) {attempts : Nat} (hlimit : n.settings.attempts = .ok attempts) :
    ((calls.map keyOfCall).Nodup → ∀ events : List Event, (∀ event ∈ events, event.OfCalls) →
      events.filterMap Event.call? = calls →
        Patient n attempts (start n network directory disk) events) ∧
    (0 < n.settings.replyTimeout →
      (∀ c ∈ calls, network.carries c.1 (n.prepare c.2).encode = true) →
      ¬ (calls.map keyOfCall).Nodup → ∃ events : List Event, (∀ event ∈ events, event.OfCalls) ∧
        events.filterMap Event.call? = calls ∧
          ((start n network directory disk).steps n events).1.clock = 0 ∧
          ¬ Patient n attempts (start n network directory disk) events) := by
  constructor
  · rintro hkeys events hlegal rfl
    exact patient_of_distinct n network directory disk hlimit hlegal hkeys
  · intro htimeout hcarries hsame
    obtain ⟨i, j, a, m, x, hne, hid, hi, hj⟩ := exists_same_key hsame
    obtain ⟨hreplies, hclock, hnetwork, -, htasks⟩ :=
      steps_callsOf n (start n network directory disk) calls
    have htask {k : Nat} {m : Message} (hk : calls[k]? = some (a, m)) :
        ((start n network directory disk).steps n (callsOf calls)).1.tasks.get? k =
          some ⟨.call, none, n.run (.send a m)⟩ := by
      have h := htasks k (a, m) hk
      rwa [show (start n network directory disk).nextTask + k = k from Nat.zero_add k] at h
    have hempty : ((start n network directory disk).steps n (callsOf calls)).1.replies = .empty := hreplies
    have hm : network.carries a (n.prepare m).encode = true :=
      hcarries (a, m) (List.mem_of_getElem? hi)
    have hx : network.carries a (n.prepare x).encode = true :=
      hcarries (a, x) (List.mem_of_getElem? hj)
    have hhasty := hasty_of_same_key hlimit hne hid hempty (htask hi) (htask hj) (hnetwork ▸ hm)
      (hnetwork ▸ hx)
    obtain ⟨ks, k, b, hended, hinstant⟩ := hhasty
    have hsteps : (((start n network directory disk).steps n (callsOf calls)).1.steps n (ks.map .run)).1 =
        ((start n network directory disk).steps n (callsOf calls ++ ks.map .run)).1 := by
      rw [steps_append]
    rw [hsteps] at hended hinstant
    have hsplit : callsOf calls ++ (ks ++ [k]).map .run =
        (callsOf calls ++ ks.map .run) ++ [.run k] := by
      rw [List.map_append, List.append_assoc]
      rfl
    refine ⟨callsOf calls ++ (ks ++ [k]).map .run, fun _ => ofCalls_of_mem,
      filterMap_callsOf calls _, ?_, fun hpatient => ?_⟩
    · obtain ⟨ticket, hdone⟩ := task_of_ended hended
      rw [hsplit, steps_append]
      change (Engine.step n _ (.run k)).1.clock = 0
      rw [step_run_of_done hdone]
      exact hinstant.trans hclock
    · obtain ⟨first, -, hle⟩ := hpatient _ [] k b attempts hsplit hended
      rw [hinstant, hclock] at hle
      have hpos : 0 < attempts * n.settings.replyTimeout :=
        Nat.mul_pos (attempts_pos hlimit) htimeout
      change _ ≤ 0 at hle
      omega

/-- A call that stays alone gives up after both its windows; and two calls for one id have a run in which
no time passes and one of them gives up. -/
theorem patience_of_plain_node :
    let a : Address := .v4 ⟨#v[10, 0, 0, 1], 1000⟩
    let e := start .plain .ip4 PeerTable.empty.directory ⟨⟨[]⟩⟩
    let events := callsOf [(a, .empty 7 .root)] ++ [.run 0, .run 0, .run 0, .pass 100 100, .run 0,
      .run 0, .run 0, .pass 100 100, .run 0, .run 0, .run 0]
    (.ended 0 (.failed (.noReply a 2)) ∈ (e.steps .plain events).2 ∧ Patient .plain 2 e events) ∧
    ∃ events : List Event, (∀ event ∈ events, event.OfCalls) ∧
      events.filterMap Event.call? = [(a, .empty 7 .root), (a, .empty 7 .hello)] ∧
        (e.steps .plain events).1.clock = 0 ∧ ¬ Patient .plain 2 e events := by
  intro a e events
  have hlimit : Node.plain.settings.attempts = .ok 2 := rfl
  have hlegal : ∀ event ∈ events, event.OfCalls := by decide +kernel
  refine ⟨⟨by decide +kernel, ?_⟩, ?_⟩
  · exact (patience .plain .ip4 _ _ [(a, .empty 7 .root)] hlimit).1 (by simp) _ hlegal rfl
  · exact (patience .plain .ip4 _ _ [(a, .empty 7 .root), (a, .empty 7 .hello)] hlimit).2 (by decide)
      (by decide +kernel) (by decide)

/-- Two calls for one id that take turns: each time one sends, the ticket of the other is closed. -/
theorem not_patient_by_turns :
    let a : Address := .v4 ⟨#v[10, 0, 0, 1], 1000⟩
    ¬ Patient .plain 2 (start .plain .ip4 PeerTable.empty.directory ⟨⟨[]⟩⟩)
      (callsOf [(a, .empty 7 .root), (a, .empty 7 .hello)] ++
        [0, 0, 0, 1, 1, 1, 0, 0, 0, 0, 1, 1, 1, 1, 0, 0, 0, 0].map .run) := by
  intro a hpatient
  have hended : .ended 0 (.failed (.noReply a 2)) ∈
      (((start .plain .ip4 PeerTable.empty.directory ⟨⟨[]⟩⟩).steps .plain
        (callsOf [(a, .empty 7 .root), (a, .empty 7 .hello)] ++
          [0, 0, 0, 1, 1, 1, 0, 0, 0, 0, 1, 1, 1, 1, 0, 0, 0].map .run)).1.step .plain (.run 0)).2 := by
    decide +kernel
  obtain ⟨first, -, hle⟩ := hpatient _ [] 0 a 2 rfl hended
  have hclock : ((start .plain .ip4 PeerTable.empty.directory ⟨⟨[]⟩⟩).steps .plain
      (callsOf [(a, .empty 7 .root), (a, .empty 7 .hello)] ++
        [0, 0, 0, 1, 1, 1, 0, 0, 0, 0, 1, 1, 1, 1, 0, 0, 0].map .run)).1.clock = 0 := by
    decide +kernel
  rw [hclock] at hle
  change _ + 2 * 100 ≤ 0 at hle
  omega

end Engine
end TreeShare
