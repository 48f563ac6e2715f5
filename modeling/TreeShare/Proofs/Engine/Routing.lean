import TreeShare.Proofs.Engine.Together

/-! Which reply reaches which request. Main statement: `reply_routing`. -/
namespace TreeShare

/-! A request alone. -/

namespace Line

def reply? : Line → Option Message
  | absent parked | fresh parked => parked.map Prod.fst
  | registered _ mail => mail
  | left (.told r) => some r
  | left _ => none

theorem reply?_begin (l : Line) : l.begin.reply? = l.reply? := by
  cases l <;> rfl

theorem reply?_deliver (l : Line) (r : Message) (now : Nat) :
    (l.deliver r now).reply? = some r ∨ (l.deliver r now).reply? = l.reply? := by
  cases l with
  | absent => exact .inl rfl
  | fresh => exact .inl rfl
  | registered stage mail => cases mail <;> first | exact .inl rfl | exact .inr rfl
  | left => exact .inr rfl

theorem reply?_young {window now : Nat} {parked : Option (Message × Nat)} {r : Message}
    (h : (young window now parked).map Prod.fst = some r) : parked.map Prod.fst = some r := by
  obtain ⟨x, hx, rfl⟩ := Option.map_eq_some_iff.mp h
  rw [(Option.filter_eq_some_iff.mp hx).1]
  rfl

theorem reply?_sweep {l : Line} {window now : Nat} {r : Message}
    (h : (l.sweep window now).reply? = some r) : l.reply? = some r := by
  cases l with
  | absent => exact reply?_young h
  | fresh => exact reply?_young h
  | registered => exact h
  | left => exact h

theorem reply?_run {l : Line} {n : Node} {w : Network} {a : Address} {m : Message} {clock : Nat}
    {r : Message} (h : (l.run n w a m clock).reply? = some r) : l.reply? = some r := by
  have hran := ran_run n w a m clock l
  generalize l.run n w a m clock = after at h hran
  cases hran with
  | giveUp => contradiction
  | leave => contradiction
  | _ => exact h

def Holds (r : Message) : Line → Prop
  | registered _ mail => mail = some r
  | left _ => True
  | _ => False

theorem Holds.run {l : Line} {r : Message} (h : l.Holds r) (n : Node) (w : Network) (a : Address)
    (m : Message) (clock : Nat) : (l.run n w a m clock).Holds r := by
  have hran := ran_run n w a m clock l
  generalize l.run n w a m clock = after at hran
  cases hran with
  | rest => exact h
  | register => exact h.elim
  | giveUp | tell | leave => exact trivial
  | send | fail | time => exact h
  | silence => cases h

end Line

namespace Solo

variable {n : Node} {k : Nat} {a : Address} {m : Message} {s : Solo}

theorem steps_append (n : Node) (k : Nat) (a : Address) (m : Message) (s : Solo)
    (x y : List Event) : s.steps n k a m (x ++ y) = (s.steps n k a m x).steps n k a m y :=
  List.foldl_append

def Received (a : Address) (m r : Message) (events : List Event) : Prop :=
  r.id = m.id ∧ ∃ datagram, .receive a datagram ∈ events ∧
    Message.ofDatagram (datagram.take Engine.bufferSize) = .ok r

theorem reply?_step {event : Event} {r : Message}
    (h : (s.step n k a m event).line.reply? = some r) :
    s.line.reply? = some r ∨ Received a m r [event] := by
  have htouched := touched_step n k a m s event
  generalize (s.step n k a m event).line = l at h htouched
  cases htouched with
  | rest => exact .inl h
  | begin => exact .inl (s.line.reply?_begin ▸ h)
  | run => exact .inl (Line.reply?_run h)
  | sweep => exact .inl (Line.reply?_sweep h)
  | @deliver source datagram x hx hkey =>
    rcases s.line.reply?_deliver x s.ageClock with hnew | hold
    · cases hnew.symm.trans h
      cases congrArg Prod.fst hkey
      exact .inr ⟨congrArg Prod.snd hkey, datagram, List.mem_singleton.mpr rfl, hx⟩
    · exact .inl (hold.symm.trans h)

theorem received_of_reply? {events : List Event} {r : Message}
    (h : (s.steps n k a m events).line.reply? = some r) :
    s.line.reply? = some r ∨ Received a m r events := by
  induction events generalizing s with
  | nil => exact .inl h
  | cons event events ih =>
    rcases ih h with hfirst | ⟨hid, datagram, hmem, hdecode⟩
    · rcases reply?_step hfirst with hs | ⟨hid, datagram, hmem, hdecode⟩
      · exact .inl hs
      · exact .inr ⟨hid, datagram, List.mem_cons.mpr (.inl (List.mem_singleton.mp hmem)), hdecode⟩
    · exact .inr ⟨hid, datagram, List.mem_cons_of_mem _ hmem, hdecode⟩

theorem steps_left {how : Leave} (h : s.line = .left how) (events : List Event) :
    (s.steps n k a m events).line = .left how := by
  induction events generalizing s with
  | nil => exact h
  | cons event events ih =>
    apply ih
    have htouched := touched_step n k a m s event
    generalize (s.step n k a m event).line = l at htouched
    cases htouched with
    | rest => exact h
    | begin | run | deliver | sweep =>
      rw [h]
      rfl

theorem holds_step {r : Message} (h : s.line.Holds r) (event : Event) :
    (s.step n k a m event).line.Holds r := by
  have htouched := touched_step n k a m s event
  generalize (s.step n k a m event).line = l at htouched
  cases htouched with
  | rest => exact h
  | run => exact h.run ..
  | begin | deliver | sweep =>
    cases hline : s.line with
    | absent | fresh =>
      rw [hline] at h
      exact h.elim
    | registered stage mail =>
      rw [hline] at h
      cases h
      rfl
    | left => exact trivial

theorem holds_steps {r : Message} (h : s.line.Holds r) (events : List Event) :
    (s.steps n k a m events).line.Holds r := by
  induction events generalizing s with
  | nil => exact h
  | cons event events ih => exact ih (holds_step h event)

theorem line_step_of_other {event : Event} (hother : ¬ Engine.Touches k event) {stage : Stage}
    {r : Message} (h : s.line = .registered stage (some r)) :
    (s.step n k a m event).line = .registered stage (some r) := by
  have htouched := touched_step n k a m s event
  generalize (s.step n k a m event).line = l at htouched
  cases htouched with
  | rest => exact h
  | run => exact absurd rfl hother
  | begin | deliver | sweep =>
    rw [h]
    rfl

theorem line_step_run : (s.step n k a m (.run k)).line = s.line.run n s.network a m s.clock := by
  unfold step
  dsimp only
  rw [if_pos rfl]

def Concerns (k : Nat) (key : ReplyKey) : Event → Bool
  | .call _ | .sweep | .pass .. | .network _ => true
  | .run j => j = k
  | .receive source datagram =>
    match Message.ofDatagram (datagram.take Engine.bufferSize) with
    | .error _ => false
    | .ok r => (source, r.id) = key
  | _ => false

theorem step_of_not_concerns {event : Event} (h : Concerns k (a, m.id) event = false) :
    s.step n k a m event = s ∧ s.actOf n k a m event = none := by
  cases event with
  | call | sweep | pass | network => cases h
  | run j =>
    have hne : ¬ j = k := by simpa [Concerns] using h
    exact ⟨if_neg hne, if_neg hne⟩
  | receive source datagram =>
    refine ⟨?_, rfl⟩
    unfold step
    cases hm : Message.ofDatagram (datagram.take Engine.bufferSize) with
    | error cause => simp only [hm]
    | ok r =>
      simp only [Concerns, hm] at h
      simp only [hm]
      exact if_neg (of_decide_eq_false h)
  | _ => exact ⟨rfl, rfl⟩

theorem filterMap_call?_filter (k : Nat) (key : ReplyKey) (events : List Event) :
    (events.filter (Concerns k key)).filterMap Event.call? = events.filterMap Event.call? := by
  induction events with
  | nil => rfl
  | cons event events ih =>
    cases event with
    | call c => rw [List.filter_cons_of_pos rfl, List.filterMap_cons, List.filterMap_cons, ih]
    | _ =>
      rw [List.filter_cons, List.filterMap_cons]
      split
      · rw [List.filterMap_cons]
        exact ih
      · exact ih

theorem acts_filter (s : Solo) (events : List Event) :
    s.acts n k a m (events.filter (Concerns k (a, m.id))) = s.acts n k a m events := by
  induction events generalizing s with
  | nil => rfl
  | cons event events ih =>
    cases hc : Concerns k (a, m.id) event with
    | true =>
      rw [List.filter_cons_of_pos hc, acts, acts, ih]
    | false =>
      obtain ⟨hstep, hact⟩ := step_of_not_concerns (n := n) (s := s) hc
      rw [List.filter_cons_of_neg (by simp [hc]), acts, hstep, hact, ih]
      rfl

end Solo

/-- What a request may ask where it stands, and what it is answered. No wait ends because the slot is
gone. -/
inductive Line.Asks (n : Node) (w : Network) (a : Address) (m : Message) : Line → Asked → Prop
  | register {attempts : Nat} (limit : n.settings.attempts = .ok attempts)
      (parked : Option (Message × Nat)) (t : Ticket) :
      Asks n w a m (.fresh parked) ⟨.register (a, m.id), t⟩
  | give (mail : Option Message) :
      Asks n w a m (.registered (.sending 0) mail) ⟨.cancel (a, m.id), ()⟩
  | send (more : Nat) (mail : Option Message) : Asks n w a m (.registered (.sending (more + 1)) mail)
      ⟨.transmit a (n.prepare m).encode, w.carries a (n.prepare m).encode⟩
  | time (more : Nat) (mail : Option Message) (now : Nat) :
      Asks n w a m (.registered (.timing more) mail) ⟨.now, now⟩
  | reply (more deadline : Nat) (t : Ticket) (r : Message) :
      Asks n w a m (.registered (.waiting more deadline) (some r)) ⟨.awaitReply t deadline, .reply r⟩
  | silence (more deadline : Nat) (t : Ticket) :
      Asks n w a m (.registered (.waiting more deadline) none) ⟨.awaitReply t deadline, .silence⟩
  | unsent (mail : Option Message) : Asks n w a m (.registered .unsent mail) ⟨.cancel (a, m.id), ()⟩
  | lookup (how : Leave) {op : Op} (answer : op.Answer) (h : op.IsLookup) :
      Asks n w a m (.left how) ⟨op, answer⟩

theorem Line.Asks.ne_swept {n : Node} {w : Network} {a : Address} {m : Message} {line : Line}
    {t : Ticket} {deadline : Nat} (h : line.Asks n w a m ⟨.awaitReply t deadline, .swept⟩) :
    False := by
  cases h with
  | lookup _ _ hop => exact hop

def Asked.act? : Asked → Option Act
  | ⟨.transmit target datagram, left⟩ => some (.sends target datagram left)
  | ⟨.awaitReply _ _, .reply r⟩ => some (.validates r)
  | _ => none

theorem Line.Asks.begun {n : Node} {w : Network} {a : Address} {m : Message} {line : Line}
    {asked : Asked} (h : line.Asks n w a m asked) :
    (∀ key, asked.op = .register key → ¬ line.Begun) ∧ ∀ clock, (line.run n w a m clock).Begun := by
  cases h with
  | register limit parked t =>
    refine ⟨fun _ _ => id, fun clock => ?_⟩
    unfold Line.run
    dsimp only
    rw [limit]
    trivial
  | lookup how answer hop =>
    refine ⟨fun key hkey => ?_, fun clock => trivial⟩
    cases hkey
    exact hop.elim
  | _ =>
    refine ⟨nofun, fun clock => Begun.run ?_ ..⟩
    trivial

theorem Line.Asks.act {n : Node} {w : Network} {a : Address} {m : Message} {line : Line} {asked : Asked}
    (h : line.Asks n w a m asked) : asked.act? = line.act n w a m := by
  cases h with
  | @lookup how op answer hop => cases op <;> first | exact hop.elim | rfl
  | _ => rfl

namespace Engine

variable {n : Node} {e : Engine} {k : Nat} {a : Address} {m : Message} {line : Line}

theorem Tracks.asks (h : Tracks n e k a m line) {asked : Asked}
    (hasked : e.asked? n k = some asked) : line.Asks n e.network a m asked := by
  obtain ⟨op, answer⟩ := asked
  obtain ⟨duty, ticket, next, htask, e', records, hperform⟩ := asked?_eq_some_iff.mp hasked
  dsimp only at htask hperform
  cases h with
  | absent _ task => cases task.symm.trans htask
  | fresh _ task =>
    cases hlimit : n.settings.attempts with
    | ok attempts =>
      rw [n.run_send_of_attempts a m attempts hlimit] at task
      cases task.symm.trans htask
      exact .register hlimit _ _
    | error cause =>
      obtain ⟨_, hprogram⟩ := n.run_send_of_overflow a m hlimit
      rw [hprogram] at task
      cases task.symm.trans htask
      cases hperform
  | @registered stage mail t attempts _ _ task posted =>
    rcases stage with (_ | more) | more | ⟨more, deadline⟩ | _
    · rw [Stage.program_sending_zero] at task
      cases task.symm.trans htask
      exact .give mail
    · rw [Stage.program_sending_succ] at task
      cases task.symm.trans htask
      obtain ⟨records', hsend⟩ := perform_transmit n e a (n.prepare m).encode
      cases hsend.symm.trans hperform
      exact .send more mail
    · cases task.symm.trans htask
      exact .time more mail _
    · cases task.symm.trans htask
      cases mail with
      | some r =>
        cases (perform_awaitReply_holding posted.2 n deadline).symm.trans hperform
        exact .reply more deadline t r
      | none =>
        have hanswer := perform_awaitReply_waiting posted.2 n deadline
        split at hanswer
        · cases hanswer.symm.trans hperform
          exact .silence more deadline t
        · cases hanswer.symm.trans hperform
    · rw [Stage.program_unsent] at task
      cases task.symm.trans htask
      exact .unsent mail
  | left _ task =>
    obtain ⟨-, hallows⟩ := task _ htask
    exact .lookup _ answer (Leave.Allows.next hallows).1

theorem Tracks.exists_asked (h : Tracks n e k a m line) (hact : line.act n e.network a m ≠ none) :
    ∃ asked, e.asked? n k = some asked := by
  cases h with
  | @registered stage mail t attempts _ _ task posted =>
    rcases stage with (_ | more) | more | ⟨more, deadline⟩ | _
    · exact absurd rfl hact
    · rw [Stage.program_sending_succ] at task
      obtain ⟨records, hsend⟩ := perform_transmit n e a (n.prepare m).encode
      exact ⟨⟨_, _⟩, asked?_eq_some_iff.mpr ⟨_, _, _, task, _, _, hsend⟩⟩
    · exact absurd rfl hact
    · cases mail with
      | some r =>
        exact ⟨⟨_, _⟩, asked?_eq_some_iff.mpr
          ⟨_, _, _, task, _, _, perform_awaitReply_holding posted.2 n deadline⟩⟩
      | none => exact absurd rfl hact
    · exact absurd rfl hact
  | _ => exact absurd rfl hact

/-- What a task is seen to do, and when. -/
def actOf (n : Node) (k : Nat) (e : Engine) (event : Event) : Option (Nat × Act) :=
  (e.turnOf n k event).bind fun turn => turn.asked.act?.map (Prod.mk turn.engine.clock)

def acts (n : Node) (k : Nat) (e : Engine) : List Event → List (Nat × Act)
  | [] => []
  | event :: events => (e.actOf n k event).toList ++ acts n k (e.step n event).1 events

theorem Follows.actOf {s : Solo} (hs : Follows n e k a m s) (event : Event) :
    e.actOf n k event = s.actOf n k a m event := by
  cases event with
  | run j =>
    unfold Engine.actOf Solo.actOf turnOf
    dsimp only
    split
    · rw [hs.clock, hs.network]
      cases hasked : e.asked? n k with
      | some asked =>
        rw [← (hs.tracks.asks hasked).act]
        rfl
      | none =>
        cases hact : s.line.act n e.network a m with
        | none => rfl
        | some act =>
          obtain ⟨asked, hsome⟩ := hs.tracks.exists_asked (by rw [hact]; simp)
          rw [hasked] at hsome
          contradiction
    · rfl
  | _ => rfl

variable {calls : List (Address × Message)} {s : Solo}

theorem Together.acts (h : Together n e calls) (hkeys : (calls.map keyOfCall).Nodup)
    {events : List Event} (ha : Ahead e calls events) (hk : calls[k]? = some (a, m))
    (hs : Follows n e k a m s) : e.acts n k events = s.acts n k a m events := by
  induction events generalizing e s with
  | nil => rfl
  | cons event events ih =>
    obtain ⟨hfirst, hnext, hrest⟩ := h.ahead ha
    obtain ⟨htogether, hfollows⟩ := h.step hkeys hfirst hnext
    rw [Engine.acts, Solo.acts, hs.actOf, ih htogether hrest (hfollows k a m s hk hs)]

theorem Together.next_stage (h : Together n e calls) (hkeys : (calls.map keyOfCall).Nodup)
    {events : List Event} (ha : Ahead e calls (.run k :: events)) (hk : calls[k]? = some (a, m))
    (hs : Follows n e k a m s) {t : Ticket} {op : Op} {next : op.Answer → Proc Outcome}
    (htask : e.tasks.get? k = some ⟨.call, some t, .ask op next⟩) {answer : op.Answer} {e' : Engine}
    {records : List Record} (hanswer : e.perform n op = some (answer, e', records))
    (hheld : heldTicket (some t) op answer = some t) :
    e.dialogue n k (.run k :: events) =
        ⟨op, answer⟩ :: (e.step n (.run k)).1.dialogue n k events ∧
      (e.step n (.run k)).1.tasks.get? k = some ⟨.call, some t, next answer⟩ ∧
      Together n (e.step n (.run k)).1 calls ∧ Ahead (e.step n (.run k)).1 calls events ∧
      Follows n (e.step n (.run k)).1 k a m (s.step n k a m (.run k)) := by
  obtain ⟨hfirst, hnext, hrest⟩ := h.ahead ha
  obtain ⟨htogether, hfollows⟩ := h.step hkeys hfirst hnext
  refine ⟨?_, ?_, htogether, hrest, hfollows k a m s hk hs⟩
  · rw [dialogue_cons, turnOf_of_answer htask hanswer]
    rfl
  · rw [step_run_of_answer htask hanswer, get?_setTask, if_pos rfl, hheld]

section

variable {t : Ticket} {stage : Stage} {r : Message} {attempts i : Nat} {events : List Event}
  (h : Together n e calls) (hkeys : (calls.map keyOfCall).Nodup)
  (hk : calls[k]? = some (a, m)) (hs : Follows n e k a m s)
  (hline : s.line = .registered stage (some r))
  (htask : e.tasks.get? k = some ⟨.call, some t, stage.program n a (n.prepare m) attempts t⟩)
include h hkeys hk hs hline htask

/-- A registered call with a reply in its inbox comes one question nearer to its wait, if what it sends
leaves. -/
theorem Together.nearer_to_wait (ha : Ahead e calls (.run k :: events))
    (hstage : stage.questionsToWait? = some (i + 1))
    (hsent : ∀ target datagram,
      ⟨.transmit target datagram, false⟩ ∉ e.dialogue n k (.run k :: events)) :
    ∃ asked stage', e.dialogue n k (.run k :: events) =
        asked :: (e.step n (.run k)).1.dialogue n k events ∧
      stage'.questionsToWait? = some i ∧
      (s.step n k a m (.run k)).line = .registered stage' (some r) ∧
      (e.step n (.run k)).1.tasks.get? k =
        some ⟨.call, some t, stage'.program n a (n.prepare m) attempts t⟩ ∧
      Together n (e.step n (.run k)).1 calls ∧ Ahead (e.step n (.run k)).1 calls events ∧
      Follows n (e.step n (.run k)).1 k a m (s.step n k a m (.run k)) := by
  have hafter : (s.step n k a m (.run k)).line = s.line.run n s.network a m s.clock :=
    Solo.line_step_run
  rw [hline] at hafter
  rcases stage with (_ | more) | more | ⟨more, deadline⟩ | _ <;> cases hstage
  · rw [Stage.program_sending_succ] at htask
    obtain ⟨records, hanswer⟩ := perform_transmit n e a (n.prepare m).encode
    obtain ⟨hlog, hnext, hrest⟩ := h.next_stage hkeys ha hk hs htask hanswer rfl
    have hcarried : e.network.carries a (n.prepare m).encode = true := by
      cases hlost : e.network.carries a (n.prepare m).encode with
      | true => rfl
      | false => exact absurd (by rw [hlog, hlost]; exact List.mem_cons_self) (hsent a _)
    rw [if_pos hcarried] at hnext
    unfold Line.run at hafter
    dsimp only at hafter
    rw [hs.network, if_pos hcarried] at hafter
    exact ⟨_, .timing more, hlog, rfl, hafter, hnext, hrest⟩
  · have hanswer : e.perform n .now = some (e.clock, e, []) := rfl
    obtain ⟨hlog, hnext, hrest⟩ := h.next_stage hkeys ha hk hs htask hanswer rfl
    rw [← hs.clock] at hnext
    exact ⟨_, .waiting more _, hlog, rfl, hafter, hnext, hrest⟩

/-- Where it waits it is told the reply. -/
theorem Together.told_at_wait (ha : Ahead e calls (.run k :: events))
    (hstage : stage.questionsToWait? = some 0) : ∃ deadline,
      (e.dialogue n k (.run k :: events))[0]? = some ⟨.awaitReply t deadline, .reply r⟩ := by
  rcases stage with (_ | more) | more | ⟨more, deadline⟩ | _ <;> cases hstage
  have hholding : e.replies.inbox t = .holding r := by
    have htracks := hs.tracks
    rw [hline] at htracks
    cases htracks with
    | registered _ _ task posted =>
      cases congrArg Task.ticket (Option.some.inj (task.symm.trans htask))
      exact posted.2
  obtain ⟨hlog, -⟩ := h.next_stage hkeys ha hk hs htask
    (perform_awaitReply_holding hholding n deadline) rfl
  exact ⟨deadline, by rw [hlog]; rfl⟩

end

/-- A registered call with a reply in its inbox is told that reply in its next window. -/
theorem Together.told_in_window (h : Together n e calls) (hkeys : (calls.map keyOfCall).Nodup)
    {events : List Event} (ha : Ahead e calls events) (hk : calls[k]? = some (a, m))
    (hs : Follows n e k a m s) {stage : Stage} {r : Message}
    (hline : s.line = .registered stage (some r)) {t : Ticket} {attempts : Nat}
    (htask : e.tasks.get? k = some ⟨.call, some t, stage.program n a (n.prepare m) attempts t⟩)
    {i : Nat} (hstage : stage.questionsToWait? = some i)
    (hturns : i < events.countP fun event => Touches k event)
    (hsent : ∀ target datagram, ⟨.transmit target datagram, false⟩ ∉ e.dialogue n k events) :
    ∃ deadline, (e.dialogue n k events)[i]? = some ⟨.awaitReply t deadline, .reply r⟩ := by
  induction events generalizing e s stage i with
  | nil => exact absurd hturns (Nat.not_lt_zero i)
  | cons event events ih =>
    by_cases htouches : Touches k event
    · rcases eq_of_touches htouches with rfl | rfl
      case inr => exact (ha.legal _ List.mem_cons_self).elim
      cases i with
      | zero => exact h.told_at_wait hkeys hk hs hline htask ha hstage
      | succ i =>
        rw [List.countP_cons_of_pos (by simpa using htouches)] at hturns
        obtain ⟨asked, stage', hlog, hstage', hline', htask', htogether, hrest, hfollows⟩ :=
          h.nearer_to_wait hkeys hk hs hline htask ha hstage hsent
        rw [hlog] at hsent ⊢
        exact ih htogether hrest hfollows hline' htask' hstage' (Nat.lt_of_succ_lt_succ hturns)
          fun target datagram hmem => hsent target datagram (List.mem_cons_of_mem _ hmem)
    · obtain ⟨hfirst, hnext, hrest⟩ := h.ahead ha
      obtain ⟨htogether, hfollows⟩ := h.step hkeys hfirst hnext
      rw [List.countP_cons_of_neg (by simpa using htouches)] at hturns
      rw [dialogue_cons, turnOf_of_other htouches] at hsent ⊢
      refine ih htogether hrest (hfollows k a m s hk hs) (Solo.line_step_of_other htouches hline) ?_
        hstage hturns hsent
      exact (task_step_of_other (h.tasks k _ htask).1 htouches).1.trans htask

def Told (n : Node) (e : Engine) (k : Nat) (r : Message) : Prop :=
  ∃ t deadline, e.asked? n k = some ⟨.awaitReply t deadline, .reply r⟩

theorem Tracks.of_told (ht : Tracks n e k a m line) {r : Message} (h : Told n e k r) :
    ∃ more deadline, line = .registered (.waiting more deadline) (some r) := by
  obtain ⟨t, deadline, hasked⟩ := h
  cases ht.asks hasked with
  | reply more => exact ⟨more, deadline, rfl⟩
  | lookup _ _ hop => exact hop.elim

theorem not_told_again {r r' : Message} {past mid : List Event} {network : Network}
    {directory : Directory} {disk : Disk}
    (hfirst : Follows n ((start n network directory disk).steps n past).1 k a m
      ((Solo.start n network).steps n k a m past))
    (htold : Told n ((start n network directory disk).steps n past).1 k r)
    (hagain : Follows n ((start n network directory disk).steps n (past ++ .run k :: mid)).1 k a m
      ((Solo.start n network).steps n k a m (past ++ .run k :: mid))) :
    ¬ Told n ((start n network directory disk).steps n (past ++ .run k :: mid)).1 k r' := by
  intro htold'
  obtain ⟨more, deadline, hline⟩ := hfirst.tracks.of_told htold
  obtain ⟨more', deadline', hline'⟩ := hagain.tracks.of_told htold'
  have hleft : (((Solo.start n network).steps n k a m past).step n k a m (.run k)).line =
      .left (.told r) := by
    unfold Solo.step
    dsimp only
    rw [if_pos rfl]
    dsimp only
    rw [hline]
    rfl
  rw [Solo.steps_append] at hline'
  cases (Solo.steps_left hleft mid).symm.trans hline'

theorem Tracks.of_waiting (ht : Tracks n e k a m line) {task : Task} {t : Ticket}
    (htask : e.tasks.get? k = some task) (hticket : task.ticket = some t)
    (hinbox : e.replies.inbox t = .waiting) :
    ∃ stage attempts, line = .registered stage none ∧
      task = ⟨.call, some t, stage.program n a (n.prepare m) attempts t⟩ := by
  cases ht with
  | absent _ task => cases task.symm.trans htask
  | fresh _ task =>
    cases task.symm.trans htask
    contradiction
  | @registered stage mail u attempts _ _ task posted =>
    cases task.symm.trans htask
    cases hticket
    cases mail with
    | none => exact ⟨stage, attempts, rfl, rfl⟩
    | some r => cases hinbox.symm.trans posted.2
  | left _ _ _ spent => exact absurd hinbox (spent task t htask hticket)

/-- What a call does when the first reply has come to its ticket. None of its waits ends in another way,
and it comes to one if a window is to come and what it sends before leaves. -/
structure TellsFirst (n : Node) (e : Engine) (k : Nat) (t : Ticket) (r : Message) (stage : Stage)
    (later : List Event) : Prop where
  only : ∀ u deadline wait, ⟨.awaitReply u deadline, wait⟩ ∈ e.dialogue n k later → wait = .reply r
  told : ∀ i, stage.questionsToWait? = some i →
    i < later.countP (fun event => Touches k event) →
    (∀ target datagram, ⟨.transmit target datagram, false⟩ ∉ e.dialogue n k later) →
    ∃ deadline, (e.dialogue n k later)[i]? = some ⟨.awaitReply t deadline, .reply r⟩

section
variable {network : Network} {directory : Directory} {disk : Disk} {events past later : List Event}
  (hlegal : ∀ event ∈ events, event.OfCalls)
  (hkeys : ((events.filterMap Event.call?).map keyOfCall).Nodup)
include hlegal hkeys

theorem follows_at (hsplit : events = past ++ later) :
    Together n ((start n network directory disk).steps n past).1 (events.filterMap Event.call?) ∧
      Ahead ((start n network directory disk).steps n past).1 (events.filterMap Event.call?) later ∧
      ∀ k a m, (events.filterMap Event.call?)[k]? = some (a, m) →
        Follows n ((start n network directory disk).steps n past).1 k a m
          ((Solo.start n network).steps n k a m past) := by
  subst hsplit
  exact follows_steps hlegal hkeys

variable (hk : (events.filterMap Event.call?)[k]? = some (a, m))
include hk

theorem never_swept (t : Ticket) (deadline : Nat) :
    ⟨.awaitReply t deadline, .swept⟩ ∉ (start n network directory disk).dialogue n k events := by
  intro hmem
  obtain ⟨turn, hturn, hturnAsked⟩ := List.mem_map.mp hmem
  obtain ⟨past, later, hsplit, hengine, hasked⟩ := exists_of_mem_turns hturn
  rw [hengine, hturnAsked] at hasked
  obtain ⟨-, -, hfollows⟩ := follows_at hlegal hkeys hsplit
  exact ((hfollows k a m hk).tracks.asks hasked).ne_swept

theorem registers_once {asked : Asked}
    (hmem : asked ∈ ((start n network directory disk).dialogue n k events).tail) (key : ReplyKey) :
    asked.op ≠ .register key := by
  intro hop
  cases hlog : (start n network directory disk).dialogue n k events with
  | nil =>
    rw [hlog] at hmem
    cases hmem
  | cons first log =>
    rw [hlog] at hmem
    obtain ⟨mid, rest, hsplit⟩ := List.append_of_mem hmem
    rw [List.tail_cons] at hsplit
    rw [hsplit, ← List.cons_append] at hlog
    obtain ⟨past, later, hevents, hpast, hasked⟩ := exists_of_dialogue_eq hlog
    rw [← List.nil_append (first :: mid)] at hpast
    obtain ⟨before, after, rfl, -, hfirst⟩ := exists_of_dialogue_eq hpast
    obtain ⟨-, -, hnow⟩ := follows_at hlegal hkeys hevents
    refine ((hnow k a m hk).tracks.asks hasked).begun.1 key hop ?_
    -- It has been registered since its first turn.
    have hsplit : events = before ++ .run k :: (after ++ .run k :: later) := by
      rw [hevents, List.append_assoc]
      rfl
    obtain ⟨-, -, hthen⟩ := follows_at hlegal hkeys hsplit
    have hfollows := hthen k a m hk
    rw [Solo.steps_append]
    refine Solo.begun_steps (s := Solo.step n k a m _ (.run k)) ?_ after
    rw [Solo.line_step_run, hfollows.network]
    exact (hfollows.tracks.asks hfirst).begun.2 _

theorem received_of_told {r : Message} (hsplit : events = past ++ .run k :: later)
    (htold : Told n ((start n network directory disk).steps n past).1 k r) : Solo.Received a m r past := by
  obtain ⟨-, -, hfollows⟩ := follows_at hlegal hkeys hsplit
  obtain ⟨more, deadline, hline⟩ := (hfollows k a m hk).tracks.of_told htold
  have hreply : ((Solo.start n network).steps n k a m past).line.reply? = some r := by
    rw [hline]
    rfl
  exact (Solo.received_of_reply? hreply).resolve_left nofun

theorem told_once {mid later' : List Event} {r r' : Message}
    (hsplit : events = past ++ .run k :: later)
    (htold : Told n ((start n network directory disk).steps n past).1 k r)
    (hsplit' : events = (past ++ mid) ++ .run k :: later')
    (htold' : Told n ((start n network directory disk).steps n (past ++ mid)).1 k r') : mid = [] := by
  cases mid with
  | nil => rfl
  | cons event mid =>
    have hrest : .run k :: later = event :: mid ++ .run k :: later' := by
      rw [hsplit, List.append_assoc] at hsplit'
      exact List.append_cancel_left hsplit'
    cases List.head_eq_of_cons_eq hrest
    obtain ⟨-, -, hfirst⟩ := follows_at hlegal hkeys hsplit
    obtain ⟨-, -, hagain⟩ := follows_at hlegal hkeys hsplit'
    exact absurd htold' (not_told_again (hfirst k a m hk) htold (hagain k a m hk))

/-- Replies under one key that two turns are told are one reply in one turn. -/
theorem same_turn_of_told {j : Nat} {b : Address} {x : Message} {past' later' : List Event}
    {r r' : Message} (hj : (events.filterMap Event.call?)[j]? = some (b, x))
    (hsplit : events = past ++ .run k :: later)
    (htold : Told n ((start n network directory disk).steps n past).1 k r)
    (hsplit' : events = past' ++ .run j :: later')
    (htold' : Told n ((start n network directory disk).steps n past').1 j r')
    (hsame : (a, r.id) = (b, r'.id)) : j = k ∧ past' = past := by
  have hid := (received_of_told hlegal hkeys hk hsplit htold).1
  have hid' := (received_of_told hlegal hkeys hj hsplit' htold').1
  rw [hid, hid'] at hsame
  cases eq_of_keyOfCall hkeys hj hk hsame.symm
  apply And.intro rfl
  rcases List.append_eq_append_iff.mp (hsplit.symm.trans hsplit') with ⟨mid, rfl, -⟩ | ⟨mid, rfl, -⟩
  · rw [told_once hlegal hkeys hk hsplit htold hsplit' htold', List.append_nil]
  · rw [told_once hlegal hkeys hk hsplit' htold' hsplit htold, List.append_nil]

/-- The first reply to a call with a ticket is in its inbox until it is told. -/
theorem told_first_reply {datagram : Bytes} {r : Message} {task : Task} {t : Ticket}
    (hsplit : events = past ++ .receive a datagram :: later)
    (htask : ((start n network directory disk).steps n past).1.tasks.get? k = some task)
    (hticket : task.ticket = some t)
    (hinbox : ((start n network directory disk).steps n past).1.replies.inbox t = .waiting)
    (hr : Message.ofDatagram (datagram.take bufferSize) = .ok r) (hid : r.id = m.id) :
    ∃ stage attempts, task = ⟨.call, some t, stage.program n a (n.prepare m) attempts t⟩ ∧
      TellsFirst n ((start n network directory disk).steps n (past ++ [.receive a datagram])).1 k t r
        stage later := by
  have hsplit' : events = (past ++ [.receive a datagram]) ++ later := by
    rw [hsplit, List.append_assoc]
    rfl
  obtain ⟨hbefore, -, hwaits⟩ := follows_at hlegal hkeys hsplit
  obtain ⟨htogether, hahead, hfollows⟩ := follows_at hlegal hkeys hsplit'
  obtain ⟨stage, attempts, hline, rfl⟩ := (hwaits k a m hk).tracks.of_waiting htask hticket hinbox
  have hmail : ((Solo.start n network).steps n k a m (past ++ [.receive a datagram])).line =
      .registered stage (some r) := by
    rw [Solo.steps_append]
    change (((Solo.start n network).steps n k a m past).step n k a m (.receive a datagram)).line = _
    unfold Solo.step
    simp only [hr, hid, if_true, hline]
    rfl
  refine ⟨stage, attempts, rfl, fun u deadline wait hwait => ?_, fun i hstage hturns hsent => ?_⟩
  · obtain ⟨log, rest, hlog⟩ := List.append_of_mem hwait
    obtain ⟨mid, last, hmid, -, hasked⟩ := exists_of_dialogue_eq hlog
    have hthen : events = (past ++ [.receive a datagram] ++ mid) ++ .run k :: last := by
      rw [hsplit', hmid]
      exact (List.append_assoc ..).symm
    obtain ⟨-, -, hfollows⟩ := follows_at hlegal hkeys hthen
    have hholds : ((Solo.start n network).steps n k a m
        (past ++ [.receive a datagram] ++ mid)).line.Holds r := by
      rw [Solo.steps_append]
      exact Solo.holds_steps (by rw [hmail]; rfl) mid
    have hasks := (hfollows k a m hk).tracks.asks (by rw [steps_append]; exact hasked)
    generalize ((Solo.start n network).steps n k a m _).line = line at hholds hasks
    cases hasks with
    | reply =>
      cases hholds
      rfl
    | silence => cases hholds
    | lookup _ _ hop => exact hop.elim
  · have hother : ¬ Touches k (.receive a datagram) := not_false
    have hstill : ((start n network directory disk).steps n (past ++ [.receive a datagram])).1.tasks.get? k =
        some ⟨.call, some t, stage.program n a (n.prepare m) attempts t⟩ := by
      rw [steps_append]
      exact (task_step_of_other (hbefore.tasks k _ htask).1 hother).1.trans htask
    exact htogether.told_in_window hkeys hahead hk (hfollows k a m hk) hmail hstill hstage hturns hsent

theorem acts_eq_of_filter {events' : List Event} (hlegal' : ∀ event ∈ events', event.OfCalls)
    (hfilter : events'.filter (Solo.Concerns k (a, m.id)) =
      events.filter (Solo.Concerns k (a, m.id))) :
    (start n network directory disk).acts n k events' = (start n network directory disk).acts n k events := by
  have hcalls : events'.filterMap Event.call? = events.filterMap Event.call? := by
    rw [← Solo.filterMap_call?_filter k (a, m.id) events', hfilter, Solo.filterMap_call?_filter]
  have hstart := follows_start n network directory disk k a m
  rw [(together_start n network directory disk _).acts (hcalls ▸ hkeys)
      (ahead_start n network directory disk hlegal') (hcalls ▸ hk) hstart,
    (together_start n network directory disk _).acts hkeys
      (ahead_start n network directory disk hlegal) hk hstart,
    ← Solo.acts_filter, hfilter, Solo.acts_filter]

end

/-- Concurrent calls under different keys, in any run of them with replies, sweeps, time and a network that
changes. No call ever finds its slot gone or registers twice, and: a reply it is told came from its address
with its id; no reply under a key is told twice, by one call or two; the first reply that comes to its ticket,
wherever it stands in its loop, is what it is told in its next window, which does not end in another way; and
what it sends and is told, and when, depends only on its own steps, the replies under its key, the sweeps,
the clocks and the network. -/
theorem reply_routing (n : Node) (network : Network) (directory : Directory) (disk : Disk)
    {events : List Event} (hlegal : ∀ event ∈ events, event.OfCalls)
    (hkeys : ((events.filterMap Event.call?).map keyOfCall).Nodup) {k : Nat} {a : Address}
    {m : Message} (hk : (events.filterMap Event.call?)[k]? = some (a, m)) :
    let e := start n network directory disk
    ((∀ t deadline, ⟨.awaitReply t deadline, .swept⟩ ∉ e.dialogue n k events) ∧
      ∀ asked ∈ (e.dialogue n k events).tail, ∀ key, asked.op ≠ .register key) ∧
    (∀ past later r, events = past ++ .run k :: later → Told n (e.steps n past).1 k r →
      Solo.Received a m r past) ∧
    (∀ j b x past past' later later' r r', (events.filterMap Event.call?)[j]? = some (b, x) →
      events = past ++ .run k :: later → Told n (e.steps n past).1 k r →
      events = past' ++ .run j :: later' → Told n (e.steps n past').1 j r' →
      (a, r.id) = (b, r'.id) → j = k ∧ past' = past) ∧
    (∀ past later datagram r task t, events = past ++ .receive a datagram :: later →
      (e.steps n past).1.tasks.get? k = some task → task.ticket = some t →
      (e.steps n past).1.replies.inbox t = .waiting →
      Message.ofDatagram (datagram.take bufferSize) = .ok r → r.id = m.id →
      ∃ stage attempts, task = ⟨.call, some t, stage.program n a (n.prepare m) attempts t⟩ ∧
        TellsFirst n (e.steps n (past ++ [.receive a datagram])).1 k t r stage later) ∧
    ∀ events', (∀ event ∈ events', event.OfCalls) →
      events'.filter (Solo.Concerns k (a, m.id)) = events.filter (Solo.Concerns k (a, m.id)) →
      e.acts n k events' = e.acts n k events := by
  intro e
  refine ⟨⟨never_swept hlegal hkeys hk, fun _ => registers_once hlegal hkeys hk⟩,
    fun past later r hsplit htold => ?_, ?_, ?_, ?_⟩
  · exact received_of_told hlegal hkeys hk hsplit htold
  · intro j b x past past' later later' r r' hj hsplit htold hsplit' htold' hsame
    exact same_turn_of_told hlegal hkeys hk hj hsplit htold hsplit' htold' hsame
  · intro past later datagram r task t hsplit htask hticket hinbox hr hid
    exact told_first_reply hlegal hkeys hk hsplit htask hticket hinbox hr hid
  · intro events' hlegal' hfilter
    exact acts_eq_of_filter hlegal hkeys hk hlegal' hfilter

/-- Two calls side by side. The reply to the first comes between two windows, after the other's and before a
sweep, and is what it is told in its second. -/
theorem reply_routing_of_two_calls :
    let a : Address := .v4 ⟨#v[10, 0, 0, 1], 1000⟩
    let b : Address := .v4 ⟨#v[10, 0, 0, 2], 1000⟩
    let r := Message.empty 7 .rootReply
    let e := start .plain .ip4 PeerTable.empty.directory ⟨⟨[]⟩⟩
    let past := [.call (.send a (.empty 7 .root)), .call (.send b (.empty 9 .hello)), .run 0, .run 0,
      .run 0, .run 1, .run 1, .run 1, .pass 100 100, .run 0,
      .receive b (Message.empty 9 .helloReply).encode]
    let later := [.sweep, .run 1, .run 0, .run 0, .run 0]
    ∃ deadline, ((e.steps .plain (past ++ [.receive a r.encode])).1.dialogue .plain 0 later)[2]? =
      some ⟨.awaitReply ⟨0⟩ deadline, .reply r⟩ := by
  intro a b r e past later
  have hlegal : ∀ event ∈ past ++ .receive a r.encode :: later, event.OfCalls := by decide +kernel
  have hkeys : (((past ++ .receive a r.encode :: later).filterMap Event.call?).map
      keyOfCall).Nodup := by decide +kernel
  have hinbox : (e.steps .plain past).1.replies.inbox ⟨0⟩ = .waiting := by decide
  obtain ⟨next, htask⟩ : ∃ next, (e.steps .plain past).1.tasks.get? 0 =
      some ⟨.call, some ⟨0⟩, .ask (.transmit a (Message.empty 7 .root).encode) next⟩ := ⟨_, rfl⟩
  obtain ⟨stage, attempts, hprogram, htells⟩ :=
    (reply_routing .plain .ip4 _ _ hlegal hkeys (k := 0) (m := .empty 7 .root) rfl).2.2.2.1 past later
      r.encode r _ ⟨0⟩ rfl htask rfl hinbox (Message.ofDatagram_encode r) rfl
  have hstage : stage.questionsToWait? = some 2 :=
    Stage.questionsToWait?_of_transmit (congrArg Task.program hprogram).symm
  have hacts : ((e.steps .plain (past ++ [.receive a r.encode])).1.dialogue .plain 0 later).filterMap
      Asked.act? = [Act.sends a (Message.empty 7 .root).encode true, .validates r] := by decide +kernel
  refine htells.told 2 hstage (by decide) fun target datagram hmem => ?_
  have hact : Act.sends target datagram false ∈
      [Act.sends a (Message.empty 7 .root).encode true, .validates r] :=
    hacts ▸ List.mem_filterMap.mpr ⟨_, hmem, rfl⟩
  simp at hact

end Engine
end TreeShare
