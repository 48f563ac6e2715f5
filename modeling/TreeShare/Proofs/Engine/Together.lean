import TreeShare.Proofs.Engine.Moves

/-! Requests under different keys side by side. Each fares as if it were alone, because its slot and its
ticket are its own. Main statement: `follows_steps`. -/
namespace TreeShare

/-! What runs of calls are made of. -/

namespace Event

/-- Calls that send to one address, steps of tasks, replies, time, sweeps and changes outside. -/
def OfCalls : Event → Prop
  | .call (.send ..) => True
  | .call _ | .keepAlive | .abort _ => False
  | .receive _ datagram => ∀ m, Message.ofDatagram (datagram.take Engine.bufferSize) = .ok m →
      m.type.isRequest = false
  | _ => True

instance : DecidablePred OfCalls
  | .receive _ datagram =>
    match h : Message.ofDatagram (datagram.take Engine.bufferSize) with
    | .error _ => isTrue fun _ hm => nomatch h.symm.trans hm
    | .ok r =>
      if hr : r.type.isRequest = false then
        isTrue fun _ hm => by cases h.symm.trans hm; exact hr
      else isFalse fun hall => hr (hall r h)
  | .call (.send ..) | .run _ | .sweep | .pass .. | .network _ | .directory _ | .disk _ | .exportPath _
  | .register .. | .evict .. => isTrue trivial
  | .call (.greet _) | .call (.request ..) | .call (.download ..) | .call (.rootOf _)
  | .call (.publicKeyOf _) | .call (.traverse ..) | .keepAlive | .abort _ => isFalse id

def call? : Event → Option (Address × Message)
  | .call (.send a m) => some (a, m)
  | _ => none

end Event

def keyOfCall (c : Address × Message) : ReplyKey := (c.1, c.2.id)

namespace Engine

variable {n : Node} {e e' : Engine} {k : Nat} {a : Address} {m : Message} {line : Line}

/-! What others do to a request. -/

theorem Tracks.with_replies {p : ReplyTable} (h : Tracks n e k a m line)
    (hslot : p.slot? (a, m.id) = e.replies.slot? (a, m.id))
    (hinbox : ∀ task t, e.tasks.get? k = some task → task.ticket = some t →
      p.inbox t = e.replies.inbox t) : Tracks n { e with replies := p } k a m line :=
  h.frame Iff.rfl rfl hslot hinbox

theorem Tracks.slot_ne_waiting {parked : Option (Message × Nat)}
    (hslot : e.replies.slot? (a, m.id) = parked.map fun x => .parked x.1 x.2) (t : Ticket) :
    e.replies.slot? (a, m.id) ≠ some (.waiting t) := by
  rw [hslot]
  cases parked <;> simp

theorem Tracks.deliver (h : Tracks n e k a m line) {r : Message} (hid : r.id = m.id) (now : Nat) :
    Tracks n { e with replies := (e.replies.deliver a r now).2 } k a m (line.deliver r now) := by
  cases h with
  | absent late task slot =>
    obtain ⟨hslots, -⟩ :=
      e.replies.deliver_free a r (by rw [hid]; exact slot_ne_waiting slot) now
    exact .absent late task (by rw [hslots, hid, if_pos rfl]; rfl)
  | fresh called task slot =>
    obtain ⟨hslots, -⟩ :=
      e.replies.deliver_free a r (by rw [hid]; exact slot_ne_waiting slot) now
    exact .fresh called task (by rw [hslots, hid, if_pos rfl]; rfl)
  | @registered stage mail t attempts called limit task posted =>
    cases mail with
    | none =>
      obtain ⟨hslots, hinbox⟩ :=
        e.replies.deliver_waiting a r (hid ▸ posted.1) now
      refine .registered called limit task ?_
      exact ⟨fun u => by rw [hslots, hid, if_pos rfl]; simp,
        by rw [hinbox, if_pos ⟨rfl, posted.2⟩]⟩
    | some first =>
      obtain ⟨hslots, hinbox⟩ :=
        e.replies.deliver_free a r (hid ▸ posted.1) now
      refine .registered called limit task ?_
      exact ⟨fun u => by rw [hslots, hid, if_pos rfl]; simp, (hinbox t).trans posted.2⟩
  | left called task slot spent =>
    obtain ⟨hslots, hinbox⟩ := e.replies.deliver_free a r (hid ▸ slot) now
    refine .left called task (fun u => ?_) fun x u hx hu => ?_
    · change (e.replies.deliver a r now).2.slot? (a, m.id) ≠ _
      rw [hslots, hid, if_pos rfl]
      simp
    · change (e.replies.deliver a r now).2.inbox u ≠ _
      rw [hinbox]
      exact spent x u hx hu

theorem slot?_young {parked : Option (Message × Nat)} {p : ReplyTable} {key : ReplyKey}
    (hslot : p.slot? key = parked.map fun x => .parked x.1 x.2) (window now : Nat) :
    (p.slot? key).filter (p.survives window now) =
      (Line.young window now parked).map fun x => .parked x.1 x.2 := by
  rw [hslot]
  unfold Line.young
  cases parked with
  | none => rfl
  | some x =>
    rw [Option.map_some, Option.filter_some, Option.filter_some]
    unfold ReplyTable.survives
    dsimp only
    split <;> rfl

theorem Tracks.sweep (h : Tracks n e k a m line) (hdistinct : e.replies.slots.Distinct)
    (window now : Nat) :
    Tracks n { e with replies := (e.replies.reap window now).2 } k a m (line.sweep window now) := by
  have hslots := e.replies.slot?_reap hdistinct window now
  cases h with
  | absent late task slot => exact .absent late task ((hslots _).trans (slot?_young slot window now))
  | fresh called task slot => exact .fresh called task ((hslots _).trans (slot?_young slot window now))
  | @registered stage mail t attempts called limit task posted =>
    refine .registered called limit task ?_
    cases mail with
    | none =>
      refine ⟨?_, posted.2⟩
      rw [hslots, posted.1]
      simp [ReplyTable.survives, posted.2]
    | some r =>
      refine ⟨fun u => ?_, posted.2⟩
      rw [hslots]
      exact fun hu => posted.1 u (Option.filter_eq_some_iff.mp hu).1
  | left called task slot spent =>
    refine .left called task (fun u => ?_) spent
    change (e.replies.reap window now).2.slot? (a, m.id) ≠ _
    rw [hslots]
    exact fun hu => slot u (Option.filter_eq_some_iff.mp hu).1

/-- Requests under different keys in one engine. -/
structure Together (n : Node) (e : Engine) (calls : List (Address × Message)) : Prop where
  distinct : e.replies.slots.Distinct
  tasks : ∀ k t, e.tasks.get? k = some t → k < e.nextTask ∧ k < calls.length
  tickets : ∀ k t u, e.tasks.get? k = some t → t.ticket = some u →
    u.number < e.replies.issued ∧
      ∀ j s, e.tasks.get? j = some s → s.ticket = some u → j = k
  slots : ∀ key t, e.replies.slot? key = some (.waiting t) →
    ∃ k c task, calls[k]? = some c ∧ key = keyOfCall c ∧ e.tasks.get? k = some task ∧
      task.ticket = some t
  tracks : ∀ k a m, calls[k]? = some (a, m) → ∃ line, Tracks n e k a m line

structure Follows (n : Node) (e : Engine) (k : Nat) (a : Address) (m : Message) (s : Solo) : Prop
    where
  clock : s.clock = e.clock
  ageClock : s.ageClock = e.ageClock
  nextSweep : s.nextSweep = e.nextSweep
  network : s.network = e.network
  called : s.called = e.nextTask
  tracks : Tracks n e k a m s.line

variable {calls : List (Address × Message)}

theorem eq_of_keyOfCall (hkeys : (calls.map keyOfCall).Nodup) {j k : Nat} {c d : Address × Message}
    (hj : calls[j]? = some c) (hk : calls[k]? = some d) (hkey : keyOfCall c = keyOfCall d) :
    j = k := by
  have hlt : j < (calls.map keyOfCall).length := by
    rw [List.length_map]
    exact (List.getElem?_eq_some_iff.mp hj).1
  refine (List.getElem?_inj hlt hkeys).mp ?_
  rw [List.getElem?_map, List.getElem?_map, hj, hk]
  exact congrArg some hkey

theorem OwnStep.tracks_of_ne (h : Together n e calls) {j : Nat} {key : ReplyKey}
    (hown : OwnStep e e' j key) (hne : k ≠ j) (hkey : (a, m.id) ≠ key)
    (ht : Tracks n e k a m line) : Tracks n e' k a m line := by
  apply ht.frame (by rw [hown.nextTask]) (hown.tasks k hne) (hown.slots _ hkey)
  intro task t htask hheld
  obtain ⟨hissued, hunique⟩ := h.tickets k task t htask hheld
  exact hown.inbox t hissued fun task' htask' hheld' =>
    hne (hunique j task' htask' hheld').symm

theorem Together.ownStep (h : Together n e calls) (hkeys : (calls.map keyOfCall).Nodup) {j : Nat}
    {b : Address} {x : Message} (hj : calls[j]? = some (b, x)) (hcalled : j < e.nextTask)
    (hown : OwnStep e e' j (b, x.id)) (ht : ∃ line, Tracks n e' j b x line) :
    Together n e' calls where
  distinct := hown.distinct h.distinct
  tasks k t htask := by
    rw [hown.nextTask]
    rcases Decidable.em (k = j) with rfl | hne
    · exact ⟨hcalled, (List.getElem?_eq_some_iff.mp hj).1⟩
    · exact h.tasks k t (hown.tasks k hne ▸ htask)
  tickets k t u htask hheld := by
    rcases Decidable.em (k = j) with rfl | hne
    · refine ⟨?_, fun i s hs hsheld => ?_⟩
      · rcases hown.ticket t u htask hheld with ⟨old, hold, holdheld⟩ | ⟨-, hlt⟩
        · exact Nat.lt_of_lt_of_le (h.tickets k old u hold holdheld).1 hown.issued
        · exact hlt
      · apply Decidable.byContradiction
        intro hik
        rw [hown.tasks i hik] at hs
        obtain ⟨hissued, hunique⟩ := h.tickets i s u hs hsheld
        rcases hown.ticket t u htask hheld with ⟨old, hold, holdheld⟩ | ⟨heq, -⟩
        · exact hik (hunique k old hold holdheld).symm
        · omega
    · rw [hown.tasks k hne] at htask
      obtain ⟨hissued, hunique⟩ := h.tickets k t u htask hheld
      refine ⟨Nat.lt_of_lt_of_le hissued hown.issued, fun i s hs hsheld => ?_⟩
      rcases Decidable.em (i = j) with rfl | hij
      · rcases hown.ticket s u hs hsheld with ⟨old, hold, holdheld⟩ | ⟨heq, -⟩
        · exact hunique i old hold holdheld
        · omega
      · exact hunique i s (hown.tasks i hij ▸ hs) hsheld
  slots key t hslot := by
    rcases Decidable.em (key = (b, x.id)) with rfl | hkey
    · obtain ⟨task, htask, hheld⟩ := hown.own t hslot
      exact ⟨j, (b, x), task, hj, rfl, htask, hheld⟩
    · rw [hown.slots key hkey] at hslot
      obtain ⟨k, c, task, hk, rfl, htask, hheld⟩ := h.slots key t hslot
      have hne : k ≠ j := by
        rintro rfl
        cases hk.symm.trans hj
        exact hkey rfl
      exact ⟨k, c, task, hk, rfl, by rw [hown.tasks k hne, htask], hheld⟩
  tracks k a m hk := by
    rcases Decidable.em (k = j) with rfl | hne
    · cases hk.symm.trans hj
      exact ht
    · obtain ⟨line, hline⟩ := h.tracks k a m hk
      exact ⟨line, hown.tracks_of_ne h hne
        (fun hkey => hne (eq_of_keyOfCall hkeys hk hj hkey)) hline⟩

theorem Follows.own {s : Solo} (hs : Follows n e k a m s) {j : Nat} {key : ReplyKey}
    (hown : OwnStep e e' j key) (ht : Tracks n e' k a m line) :
    Follows n e' k a m { s with line } where
  clock := hs.clock.trans hown.clock.symm
  ageClock := hs.ageClock.trans hown.ageClock.symm
  nextSweep := hs.nextSweep.trans hown.nextSweep.symm
  network := hs.network.trans hown.network.symm
  called := hs.called.trans hown.nextTask.symm
  tracks := ht

theorem Follows.run {s : Solo} (hs : Follows n e k a m s) :
    Follows n (e.step n (.run k)).1 k a m (s.step n k a m (.run k)) := by
  have hmoves := moves_run hs.tracks
  rw [← hs.clock, ← hs.network] at hmoves
  unfold Solo.step
  dsimp only
  rw [if_pos rfl]
  exact hs.own hmoves.own hmoves.tracks

theorem Together.run (h : Together n e calls) (hkeys : (calls.map keyOfCall).Nodup) (j : Nat) :
    Together n (e.step n (.run j)).1 calls ∧
      ∀ k a m s, calls[k]? = some (a, m) → Follows n e k a m s →
        Follows n (e.step n (.run j)).1 k a m (s.step n k a m (.run j)) := by
  cases htask : e.tasks.get? j with
  | none =>
    refine ⟨by rwa [step_run_of_none htask], fun k a m s _ hs => ?_⟩
    by_cases hjk : j = k
    · exact hjk ▸ hs.run
    · rw [step_run_of_none htask]
      unfold Solo.step
      dsimp only
      rwa [if_neg hjk]
  | some t =>
    obtain ⟨hcalled, hlt⟩ := h.tasks j t htask
    obtain ⟨⟨b, x⟩, hj⟩ : ∃ c, calls[j]? = some c := ⟨_, List.getElem?_eq_getElem hlt⟩
    obtain ⟨line, hline⟩ := h.tracks j b x hj
    have hmoves := moves_run hline
    refine ⟨h.ownStep hkeys hj hcalled hmoves.own ⟨_, hmoves.tracks⟩, fun k a m s hk hs => ?_⟩
    by_cases hjk : j = k
    · exact hjk ▸ hs.run
    · unfold Solo.step
      dsimp only
      rw [if_neg hjk]
      have hne : k ≠ j := fun hkj => hjk hkj.symm
      exact hs.own hmoves.own
        (hmoves.own.tracks_of_ne h hne (fun hkey => hne (eq_of_keyOfCall hkeys hk hj hkey)) hs.tracks)

theorem Together.tracks_deliver (h : Together n e calls) (source : Address) (r : Message)
    (now : Nat) (hk : calls[k]? = some (a, m)) (ht : Tracks n e k a m line) :
    Tracks n { e with replies := (e.replies.deliver source r now).2 } k a m
      (if (source, r.id) = (a, m.id) then line.deliver r now else line) := by
  split
  · rename_i hkey
    cases congrArg Prod.fst hkey
    exact ht.deliver (congrArg Prod.snd hkey) now
  · rename_i hkey
    by_cases hw : ∃ t, e.replies.slot? (source, r.id) = some (.waiting t)
    · obtain ⟨t, hw⟩ := hw
      obtain ⟨hslots, hinbox⟩ := e.replies.deliver_waiting source r hw now
      apply ht.with_replies (by rw [hslots, if_neg (Ne.symm hkey)])
      intro task u htask hheld
      rw [hinbox, if_neg]
      rintro ⟨rfl, -⟩
      -- the ticket of the other slot is that of another task
      obtain ⟨j, c, task', hj, hcall, htask', hheld'⟩ := h.slots _ u hw
      cases (h.tickets k task u htask hheld).2 j task' htask' hheld'
      cases hj.symm.trans hk
      exact hkey hcall
    · have hfree : ∀ t, e.replies.slot? (source, r.id) ≠ some (.waiting t) :=
        fun t ht => hw ⟨t, ht⟩
      obtain ⟨hslots, hinbox⟩ := e.replies.deliver_free source r hfree now
      exact ht.with_replies (by rw [hslots, if_neg (Ne.symm hkey)]) fun _ u _ _ => hinbox u

theorem Together.deliver (h : Together n e calls) (source : Address) (r : Message) (now : Nat) :
    Together n { e with replies := (e.replies.deliver source r now).2 } calls where
  distinct := e.replies.distinct_deliver h.distinct source r now
  tasks := h.tasks
  tickets k t u htask hheld := by
    rw [e.replies.issued_deliver]
    exact h.tickets k t u htask hheld
  slots key t hslot := by
    apply h.slots key t
    change (e.replies.deliver source r now).2.slot? key = _ at hslot
    by_cases hw : ∃ t, e.replies.slot? (source, r.id) = some (.waiting t)
    · obtain ⟨u, hw⟩ := hw
      rw [(e.replies.deliver_waiting source r hw now).1] at hslot
      split at hslot
      · contradiction
      · exact hslot
    · rw [(e.replies.deliver_free source r (fun t ht => hw ⟨t, ht⟩) now).1] at hslot
      split at hslot
      · cases hslot
      · exact hslot
  tracks k a m hk := by
    obtain ⟨line, hline⟩ := h.tracks k a m hk
    exact ⟨_, h.tracks_deliver source r now hk hline⟩

theorem Together.sweep (h : Together n e calls) (window now : Nat) (next : Option Nat) :
    Together n { e with replies := (e.replies.reap window now).2, nextSweep := next } calls where
  distinct := e.replies.distinct_reap h.distinct window now
  tasks := h.tasks
  tickets := h.tickets
  slots key t hslot := by
    change (e.replies.reap window now).2.slot? key = _ at hslot
    rw [e.replies.slot?_reap h.distinct] at hslot
    exact h.slots key t (Option.filter_eq_some_iff.mp hslot).1
  tracks k a m hk := by
    obtain ⟨line, hline⟩ := h.tracks k a m hk
    exact ⟨_, (hline.sweep h.distinct window now).frame Iff.rfl rfl rfl fun _ _ _ _ => rfl⟩

theorem Tracks.call {b : Address} {x : Message} (hcall : k = e.nextTask → (a, m) = (b, x))
    (ht : Tracks n e k a m line) :
    Tracks n (e.spawn .call (n.run (.send b x))).2 k a m
      (if e.nextTask = k then line.begin else line) := by
  have hself := get?_spawn e .call (n.run (.send b x))
  have hother (hne : e.nextTask ≠ k) :
      (e.spawn .call (n.run (.send b x))).2.tasks.get? k = e.tasks.get? k := by
    unfold spawn
    rw [Table.get?_set, if_neg (Ne.symm hne)]
  split
  · rename_i hk
    cases hk
    cases hcall rfl
    cases ht with
    | absent _ _ slot => exact .fresh (Nat.lt_succ_self _) hself slot
    | fresh called => exact absurd called (Nat.lt_irrefl _)
    | registered called => exact absurd called (Nat.lt_irrefl _)
    | left called => exact absurd called (Nat.lt_irrefl _)
  · rename_i hne
    refine ht.frame ?_ (hother hne) rfl fun _ _ _ _ => rfl
    change k < e.nextTask + 1 ↔ _
    omega

theorem Together.call (h : Together n e calls) {b : Address} {x : Message}
    (hcall : calls[e.nextTask]? = some (b, x)) :
    Together n (e.spawn .call (n.run (.send b x))).2 calls where
  distinct := h.distinct
  tasks k t htask := by
    change _ < e.nextTask + 1 ∧ _
    rcases Decidable.em (k = e.nextTask) with rfl | hne
    · exact ⟨Nat.lt_succ_self _, (List.getElem?_eq_some_iff.mp hcall).1⟩
    · unfold spawn at htask
      rw [Table.get?_set, if_neg hne] at htask
      exact ⟨Nat.lt_succ_of_lt (h.tasks k t htask).1, (h.tasks k t htask).2⟩
  tickets k t u htask hheld := by
    have hold {i : Nat} {s : Task} (hs : (e.spawn .call (n.run (.send b x))).2.tasks.get? i = some s)
        (hsheld : s.ticket = some u) : e.tasks.get? i = some s := by
      unfold spawn at hs
      rw [Table.get?_set] at hs
      split at hs
      · cases hs
        contradiction
      · exact hs
    obtain ⟨hissued, hunique⟩ := h.tickets k t u (hold htask hheld) hheld
    exact ⟨hissued, fun j s hs hsheld => hunique j s (hold hs hsheld) hsheld⟩
  slots key t hslot := by
    obtain ⟨k, c, task, hk, hkey, htask, hheld⟩ := h.slots key t hslot
    have hlt := (h.tasks k task htask).1
    exact ⟨k, c, task, hk, hkey, ((frame_spawn e _ _).tasks k hlt).trans htask, hheld⟩
  tracks k a m hk := by
    obtain ⟨line, hline⟩ := h.tracks k a m hk
    refine ⟨_, hline.call fun hnext => ?_⟩
    cases hnext
    exact Option.some.inj (hk.symm.trans hcall)

theorem Together.outside (h : Together n e calls) (hreplies : e'.replies = e.replies)
    (htasks : e'.tasks = e.tasks) (hnext : e'.nextTask = e.nextTask) : Together n e' calls where
  distinct := hreplies ▸ h.distinct
  tasks k t ht := by
    rw [hnext]
    exact h.tasks k t (htasks ▸ ht)
  tickets k t u ht hheld := by
    rw [hreplies]
    obtain ⟨hissued, hunique⟩ := h.tickets k t u (htasks ▸ ht) hheld
    exact ⟨hissued, fun j s hs => hunique j s (htasks ▸ hs)⟩
  slots key t hslot := by
    rw [htasks]
    exact h.slots key t (hreplies ▸ hslot)
  tracks k a m hk := by
    obtain ⟨line, hline⟩ := h.tracks k a m hk
    exact ⟨line, hline.frame (by rw [hnext]) (by rw [htasks]) (by rw [hreplies])
      fun _ _ _ _ => by rw [hreplies]⟩

theorem Follows.sweep {s : Solo} (hs : Follows n e k a m s) :
    (s.due? n = none ∧ e.step n .sweep = (e, [])) ∨
      ∃ due window, s.due? n = some (due, window) ∧
        e.step n .sweep = ({ e with
          replies := (e.replies.reap window e.ageClock).2
          nextSweep := some (due + n.settings.reapInterval) }, []) := by
  unfold Solo.due? step
  dsimp only
  unfold sweep?
  rw [hs.nextSweep, hs.clock]
  cases e.nextSweep with
  | none => exact .inl ⟨rfl, rfl⟩
  | some due =>
    cases n.settings.retryWindow with
    | error cause => exact .inl ⟨rfl, rfl⟩
    | ok window =>
      by_cases hdue : due ≤ e.clock
      · exact .inr ⟨due, window, by simp [hdue, Except.toOption], by simp [hdue, Except.toOption]⟩
      · exact .inl ⟨by simp [hdue, Except.toOption], by simp [hdue, Except.toOption]⟩

/-- One event, for the engine and for each request alone. -/
theorem Together.step (h : Together n e calls) (hkeys : (calls.map keyOfCall).Nodup) {event : Event}
    (hlegal : event.OfCalls) (hcall : ∀ c, event.call? = some c → calls[e.nextTask]? = some c) :
    Together n (e.step n event).1 calls ∧
      ∀ k a m s, calls[k]? = some (a, m) → Follows n e k a m s →
        Follows n (e.step n event).1 k a m (s.step n k a m event) := by
  cases event with
  | receive source datagram =>
    cases hm : Message.ofDatagram (datagram.take bufferSize) with
    | error cause =>
      rw [step_receive_of_error hm]
      refine ⟨h, fun k a m s _ hs => ?_⟩
      unfold Solo.step
      simp only [hm]
      exact hs
    | ok r =>
      rw [step_receive_of_reply hm (hlegal r hm)]
      refine ⟨h.deliver source r e.ageClock, fun k a m s hk hs => ?_⟩
      have htracks := h.tracks_deliver source r e.ageClock hk hs.tracks
      unfold Solo.step
      simp only [hm, hs.ageClock]
      split
      · rename_i hkey
        rw [if_pos hkey] at htracks
        exact ⟨hs.clock, rfl, hs.nextSweep, hs.network, hs.called, htracks⟩
      · rename_i hkey
        rw [if_neg hkey] at htracks
        exact ⟨hs.clock, hs.ageClock, hs.nextSweep, hs.network, hs.called, htracks⟩
  | call c =>
    cases c with
    | send b x =>
      have hnext := hcall (b, x) rfl
      refine ⟨h.call hnext, fun k a m s hk hs => ?_⟩
      refine ⟨hs.clock, hs.ageClock, hs.nextSweep, hs.network, congrArg (· + 1) hs.called, ?_⟩
      have htracks := hs.tracks.call (b := b) (x := x) fun hkn => by
        cases hkn
        exact Option.some.inj (hk.symm.trans hnext)
      rw [← hs.called] at htracks
      exact htracks
    | _ => exact hlegal.elim
  | run j => exact h.run hkeys j
  | sweep =>
    constructor
    · have hchange := change_sweep n e
      generalize e.step n .sweep = after at hchange
      cases hchange with
      | notDue => exact h
      | sweep => exact h.sweep _ _ _
    · intro k a m s hk hs
      unfold Solo.step
      dsimp only
      rcases hs.sweep with ⟨hdue, hstep⟩ | ⟨due, window, hdue, hstep⟩
      · rw [hdue, hstep]
        exact hs
      · rw [hdue, hstep]
        refine ⟨hs.clock, hs.ageClock, rfl, hs.network, hs.called, ?_⟩
        rw [hs.ageClock]
        exact (hs.tracks.sweep h.distinct window e.ageClock).frame Iff.rfl rfl rfl fun _ _ _ _ => rfl
  | pass time age =>
    refine ⟨h.outside rfl rfl rfl, fun k a m s _ hs => ?_⟩
    exact ⟨congrArg (· + time) hs.clock, congrArg (· + age) hs.ageClock, hs.nextSweep, hs.network,
      hs.called, hs.tracks.frame Iff.rfl rfl rfl fun _ _ _ _ => rfl⟩
  | network w =>
    refine ⟨h.outside rfl rfl rfl, fun k a m s _ hs => ?_⟩
    exact ⟨hs.clock, hs.ageClock, hs.nextSweep, rfl, hs.called,
      hs.tracks.frame Iff.rfl rfl rfl fun _ _ _ _ => rfl⟩
  | keepAlive => exact hlegal.elim
  | abort => exact hlegal.elim
  | _ =>
    refine ⟨h.outside rfl rfl rfl, fun k a m s _ hs => ?_⟩
    exact ⟨hs.clock, hs.ageClock, hs.nextSweep, hs.network, hs.called,
      hs.tracks.frame Iff.rfl rfl rfl fun _ _ _ _ => rfl⟩

theorem Together.nextTask_step (h : Together n e calls) {event : Event} (hlegal : event.OfCalls) :
    (e.step n event).1.nextTask = e.nextTask + event.call?.toList.length := by
  cases event with
  | receive source datagram =>
    cases hm : Message.ofDatagram (datagram.take bufferSize) with
    | error cause => rw [step_receive_of_error hm]; rfl
    | ok r => rw [step_receive_of_reply hm (hlegal r hm)]; rfl
  | call c =>
    cases c with
    | send b x => rfl
    | _ => exact hlegal.elim
  | run j =>
    cases htask : e.tasks.get? j with
    | none => rw [step_run_of_none htask]; rfl
    | some t =>
      obtain ⟨⟨b, x⟩, hj⟩ : ∃ c, calls[j]? = some c :=
        ⟨_, List.getElem?_eq_getElem (h.tasks j t htask).2⟩
      obtain ⟨line, hline⟩ := h.tracks j b x hj
      exact (moves_run hline).own.nextTask
  | sweep =>
    have hchange := change_sweep n e
    generalize e.step n .sweep = after at hchange ⊢
    cases hchange <;> rfl
  | keepAlive => exact hlegal.elim
  | abort => exact hlegal.elim
  | _ => rfl

/-- The calls among these events are the next ones of the list. -/
structure Ahead (e : Engine) (calls : List (Address × Message)) (events : List Event) : Prop where
  legal : ∀ event ∈ events, event.OfCalls
  next : ∃ past, e.nextTask = past.length ∧ past ++ events.filterMap Event.call? <+: calls

theorem Together.ahead (h : Together n e calls) {event : Event} {events : List Event}
    (ha : Ahead e calls (event :: events)) :
    event.OfCalls ∧ (∀ c, event.call? = some c → calls[e.nextTask]? = some c) ∧
      Ahead (e.step n event).1 calls events := by
  obtain ⟨past, hpast, hcalls⟩ := ha.next
  have hfirst := ha.legal event (by simp)
  have hsplit : past ++ (event :: events).filterMap Event.call? =
      (past ++ event.call?.toList) ++ events.filterMap Event.call? := by
    rw [List.append_assoc]
    cases hc : event.call? <;> simp [hc]
  refine ⟨hfirst, fun c hc => ?_, fun x hx => ha.legal x (by simp [hx]),
    past ++ event.call?.toList, ?_, hsplit ▸ hcalls⟩
  · obtain ⟨rest, rfl⟩ := hcalls
    rw [hpast, hsplit, hc]
    simp
  · rw [h.nextTask_step hfirst, hpast, List.length_append]

/-- Requests under different keys go on together and each as if it were alone. -/
theorem Together.steps (h : Together n e calls) (hkeys : (calls.map keyOfCall).Nodup)
    {events later : List Event} (ha : Ahead e calls (events ++ later)) :
    Together n (e.steps n events).1 calls ∧ Ahead (e.steps n events).1 calls later ∧
      ∀ k a m s, calls[k]? = some (a, m) → Follows n e k a m s →
        Follows n (e.steps n events).1 k a m (s.steps n k a m events) := by
  induction events generalizing e with
  | nil => exact ⟨h, ha, fun _ _ _ _ _ hs => hs⟩
  | cons event events ih =>
    obtain ⟨hfirst, hnext, hrest⟩ := h.ahead ha
    obtain ⟨htogether, hfollows⟩ := h.step hkeys hfirst hnext
    obtain ⟨hend, hahead, hends⟩ := ih htogether hrest
    exact ⟨hend, hahead, fun k a m s hk hs => hends k a m _ hk (hfollows k a m s hk hs)⟩

end Engine

def Solo.start (n : Node) (network : Network) : Solo where
  clock := 0
  ageClock := 0
  nextSweep := if n.settings.reapInterval = 0 then none else some 0
  network := network
  called := 0
  line := .absent none

namespace Engine

theorem together_start (n : Node) (network : Network) (directory : Directory) (disk : Disk)
    (calls : List (Address × Message)) : Together n (start n network directory disk) calls where
  distinct := List.nodup_nil
  tasks _ _ h := nomatch h
  tickets _ _ _ h := nomatch h
  slots _ _ h := nomatch h
  tracks _ _ _ _ := ⟨.absent none, .absent (Nat.zero_le _) rfl rfl⟩

theorem follows_start (n : Node) (network : Network) (directory : Directory) (disk : Disk) (k : Nat)
    (a : Address) (m : Message) : Follows n (start n network directory disk) k a m (Solo.start n network) :=
  ⟨rfl, rfl, rfl, rfl, rfl, .absent (Nat.zero_le _) rfl rfl⟩

theorem ahead_start (n : Node) (network : Network) (directory : Directory) (disk : Disk)
    {events : List Event} (hlegal : ∀ event ∈ events, event.OfCalls) :
    Ahead (start n network directory disk) (events.filterMap Event.call?) events :=
  ⟨hlegal, [], rfl, List.prefix_rfl⟩

/-- In any run of calls under different keys, each call is where it would be alone. -/
theorem follows_steps {n : Node} {network : Network} {directory : Directory} {disk : Disk}
    {past later : List Event} (hlegal : ∀ event ∈ past ++ later, event.OfCalls)
    (hkeys : (((past ++ later).filterMap Event.call?).map keyOfCall).Nodup) :
    let calls := (past ++ later).filterMap Event.call?
    let e := ((start n network directory disk).steps n past).1
    Together n e calls ∧ Ahead e calls later ∧ ∀ k a m, calls[k]? = some (a, m) →
      Follows n e k a m ((Solo.start n network).steps n k a m past) := by
  obtain ⟨htogether, hahead, hfollows⟩ :=
    (together_start n network directory disk _).steps hkeys (ahead_start n network directory disk hlegal)
  exact ⟨htogether, hahead,
    fun k a m hk => hfollows k a m _ hk (follows_start n network directory disk k a m)⟩

end Engine
end TreeShare
