import TreeShare.Proofs.Engine.Moves

/-! Two requests under one key. Whoever registers closes the ticket of the other, which then registers again
in its turn, and each turn uses up a time to send. Main statement: `hasty_of_same_key`. -/
namespace TreeShare.Engine

variable {n : Node} {e : Engine} {k : Nat} {a : Address} {m : Message} {attempts : Nat}

structure Instant (e e' : Engine) (k : Nat) : Prop where
  clock : e'.clock = e.clock
  network : e'.network = e.network
  tasks : ∀ j, j ≠ k → e'.tasks.get? j = e.tasks.get? j

theorem Instant.trans {e e' e'' : Engine} (h : Instant e e' k) (h' : Instant e' e'' k) :
    Instant e e'' k :=
  ⟨h'.clock.trans h.clock, h'.network.trans h.network, fun j hj => (h'.tasks j hj).trans (h.tasks j hj)⟩

theorem instant_of_answer {p : ReplyTable} {duty : Duty} {ticket : Option Ticket} {op : Op}
    {next : op.Answer → Proc Outcome} {answer : op.Answer} {records : List Record}
    (htask : e.tasks.get? k = some ⟨duty, ticket, .ask op next⟩)
    (hanswer : e.perform n op = some (answer, { e with replies := p }, records)) :
    Instant e (e.step n (.run k)).1 k ∧ (e.step n (.run k)).1.replies = p ∧
      (e.step n (.run k)).1.tasks.get? k =
        some ⟨duty, heldTicket ticket op answer, next answer⟩ := by
  rw [step_run_of_answer htask hanswer]
  refine ⟨⟨rfl, rfl, fun j hj => ?_⟩, rfl, ?_⟩
  · rw [get?_setTask, if_neg hj]
  · rw [get?_setTask, if_pos rfl]

/-- Task `k`, a request `m` to `a`, is at a stage of its loop with a ticket. -/
def At (n : Node) (e : Engine) (attempts : Nat) (a : Address) (k : Nat) (m : Message) (t : Ticket)
    (stage : Stage) : Prop :=
  e.tasks.get? k = some ⟨.call, some t, stage.program n a (n.prepare m) attempts t⟩

def Holds (n : Node) (e : Engine) (attempts : Nat) (a : Address) (k : Nat) (m : Message)
    (stage : Stage) : Prop :=
  ∃ t, At n e attempts a k m t stage ∧ e.replies.slot? (a, m.id) = some (.waiting t) ∧
    e.replies.inbox t = .waiting ∧ t.number < e.replies.issued

def Lost (n : Node) (e : Engine) (attempts : Nat) (a : Address) (k : Nat) (m : Message)
    (more : Nat) : Prop :=
  ∃ t deadline, At n e attempts a k m t (.waiting more deadline) ∧ e.replies.inbox t = .closed

/-- Task `j` has lost the slot to task `k`. -/
structure Duel (n : Node) (e : Engine) (attempts : Nat) (a : Address) (j : Nat) (m : Message)
    (more : Nat) (k : Nat) (x : Message) (stage : Stage) : Prop where
  ne : j ≠ k
  id : m.id = x.id
  lost : Lost n e attempts a j m more
  holds : Holds n e attempts a k x stage

variable {more left deadline : Nat} {stage : Stage} {j : Nat} {x : Message}

theorem Holds.sends (h : Holds n e attempts a k m (.sending (more + 1)))
    (hcarries : e.network.carries a (n.prepare m).encode = true) :
    (∃ deadline, Holds n (e.steps n [.run k, .run k]).1 attempts a k m (.waiting more deadline)) ∧
      Instant e (e.steps n [.run k, .run k]).1 k ∧
      (e.steps n [.run k, .run k]).1.replies = e.replies := by
  obtain ⟨t, hat, hslot, hinbox, hold⟩ := h
  unfold At at hat
  rw [Stage.program_sending_succ] at hat
  obtain ⟨records, hsend⟩ := perform_transmit n e a (n.prepare m).encode
  obtain ⟨hfirst, hreplies, htask⟩ := instant_of_answer hat hsend
  rw [hcarries, if_pos rfl] at htask
  have hnow : (e.step n (.run k)).1.perform n .now =
      some ((e.step n (.run k)).1.clock, (e.step n (.run k)).1, []) := rfl
  obtain ⟨hsecond, hreplies', htask'⟩ := instant_of_answer htask hnow
  have hsame := hreplies'.trans hreplies
  refine ⟨⟨_, t, htask', ?_, ?_, ?_⟩, hfirst.trans hsecond, hsame⟩
  · exact hsame ▸ hslot
  · exact hsame ▸ hinbox
  · exact hsame ▸ hold

theorem holds_of_register {held : Option Ticket} {u : Ticket}
    (htask : e.tasks.get? k = some ⟨.call, held, .ask (.register (a, m.id)) fun t =>
      (Stage.sending more).program n a (n.prepare m) attempts t⟩)
    (hslot : e.replies.slot? (a, m.id) = some (.waiting u)) (hinbox : e.replies.inbox u = .waiting)
    (hold : u.number < e.replies.issued) :
    Holds n (e.step n (.run k)).1 attempts a k m (.sending more) ∧
      Instant e (e.step n (.run k)).1 k ∧ (e.step n (.run k)).1.replies.inbox u = .closed := by
  obtain ⟨hinstant, hreplies, hnext⟩ := instant_of_answer htask (perform_register n e (a, m.id))
  obtain ⟨hslots, hinboxes⟩ := e.replies.register_waiting hslot
  have hne : u ≠ ⟨e.replies.issued⟩ := by
    rintro rfl
    exact Nat.lt_irrefl _ hold
  refine ⟨⟨⟨e.replies.issued⟩, ?_, ?_, ?_, ?_⟩, hinstant, ?_⟩
  · rw [e.replies.ticket_register] at hnext
    exact hnext
  · rw [hreplies, hslots, if_pos rfl]
  · rw [hreplies, hinboxes, if_pos rfl]
  · rw [hreplies, e.replies.issued_register]
    exact Nat.lt_succ_self _
  · rw [hreplies, hinboxes, if_neg hne, if_pos ⟨rfl, hinbox⟩]

theorem holds_of_register_free {held : Option Ticket}
    (htask : e.tasks.get? k = some ⟨.call, held, .ask (.register (a, m.id)) fun t =>
      (Stage.sending more).program n a (n.prepare m) attempts t⟩)
    (hslot : e.replies.slot? (a, m.id) = none) :
    Holds n (e.step n (.run k)).1 attempts a k m (.sending more) ∧
      Instant e (e.step n (.run k)).1 k := by
  obtain ⟨hinstant, hreplies, hnext⟩ := instant_of_answer htask (perform_register n e (a, m.id))
  obtain ⟨hslots, hinboxes⟩ := e.replies.register_free hslot
  refine ⟨⟨⟨e.replies.issued⟩, ?_, ?_, ?_, ?_⟩, hinstant⟩
  · rw [e.replies.ticket_register] at hnext
    exact hnext
  · rw [hreplies, hslots, if_pos rfl]
  · rw [hreplies, hinboxes, if_pos rfl]
  · rw [hreplies, e.replies.issued_register]
    exact Nat.lt_succ_self _

theorem duel_of_register {held : Option Ticket} (hne : k ≠ j) (hid : x.id = m.id)
    (hholds : Holds n e attempts a k x (.waiting left deadline))
    (htask : e.tasks.get? j = some ⟨.call, held, .ask (.register (a, m.id)) fun t =>
      (Stage.sending more).program n a (n.prepare m) attempts t⟩) :
    Duel n (e.step n (.run j)).1 attempts a k x left j m (.sending more) ∧
      Instant e (e.step n (.run j)).1 j := by
  obtain ⟨u, hat, hslot, hinbox, hold⟩ := hholds
  obtain ⟨htakes, hinstant, hclosed⟩ := holds_of_register htask (hid ▸ hslot) hinbox hold
  exact ⟨⟨hne, hid, ⟨u, deadline, (hinstant.tasks k hne).trans hat, hclosed⟩, htakes⟩, hinstant⟩

theorem Duel.takes (h : Duel n e attempts a j m more k x (.waiting left deadline)) :
    Duel n (e.steps n [.run j, .run j]).1 attempts a k x left j m (.sending more) ∧
      Instant e (e.steps n [.run j, .run j]).1 j := by
  obtain ⟨t, due, hat, hclosed⟩ := h.lost
  obtain ⟨hfirst, hreplies, htask⟩ := instant_of_answer hat (perform_awaitReply_closed hclosed n due)
  obtain ⟨u, hat', hslot, hinbox, hold⟩ := h.holds
  have hholds : Holds n (e.step n (.run j)).1 attempts a k x (.waiting left deadline) := by
    refine ⟨u, (hfirst.tasks k h.ne.symm).trans hat', ?_, ?_, ?_⟩ <;> rw [hreplies]
    · exact hslot
    · exact hinbox
    · exact hold
  dsimp only at htask
  rw [n.prepare_id m] at htask
  obtain ⟨hduel, hsecond⟩ := duel_of_register h.ne.symm h.id.symm hholds htask
  exact ⟨hduel, hfirst.trans hsecond⟩

theorem Duel.sends (h : Duel n e attempts a j m more k x (.sending (left + 1)))
    (hcarries : e.network.carries a (n.prepare x).encode = true) :
    ∃ deadline, Duel n (e.steps n [.run k, .run k]).1 attempts a j m more k x
      (.waiting left deadline) ∧ Instant e (e.steps n [.run k, .run k]).1 k := by
  obtain ⟨⟨deadline, hholds⟩, hinstant, hreplies⟩ := h.holds.sends hcarries
  obtain ⟨t, due, hat, hclosed⟩ := h.lost
  exact ⟨deadline, ⟨h.ne, h.id, ⟨t, due, (hinstant.tasks j h.ne).trans hat, hreplies ▸ hclosed⟩,
    hholds⟩, hinstant⟩

theorem Holds.gives_up (h : Holds n e attempts a k m (.sending 0)) :
    .ended k (.failed (.noReply a attempts)) ∈ ((e.step n (.run k)).1.step n (.run k)).2 ∧
      Instant e (e.step n (.run k)).1 k := by
  obtain ⟨t, hat, -⟩ := h
  unfold At at hat
  rw [Stage.program_sending_zero] at hat
  obtain ⟨hinstant, -, htask⟩ := instant_of_answer hat (perform_cancel n e (a, m.id))
  rw [step_run_of_done htask]
  exact ⟨List.mem_singleton.mpr rfl, hinstant⟩

/-- Steps of tasks alone, after which a call gives an address up with no time passed. -/
def Hasty (n : Node) (e : Engine) (attempts : Nat) : Prop :=
  ∃ (ks : List Nat) (k : Nat) (b : Address), .ended k (.failed (.noReply b attempts)) ∈
      ((e.steps n (ks.map Event.run)).1.step n (.run k)).2 ∧
    (e.steps n (ks.map Event.run)).1.clock = e.clock

theorem Hasty.of_steps {ks : List Nat} (h : Hasty n (e.steps n (ks.map Event.run)).1 attempts)
    (hclock : (e.steps n (ks.map Event.run)).1.clock = e.clock) : Hasty n e attempts := by
  obtain ⟨more, k, b, hended, hsame⟩ := h
  refine ⟨ks ++ more, k, b, ?_, ?_⟩
  · rw [List.map_append, steps_append]
    exact hended
  · rw [List.map_append, steps_append]
    exact hsame.trans hclock

theorem Duel.hasty (h : Duel n e attempts a j m more k x (.sending left))
    (hm : e.network.carries a (n.prepare m).encode = true)
    (hx : e.network.carries a (n.prepare x).encode = true) : Hasty n e attempts := by
  induction hrounds : more + left generalizing e j m more k x left with
  | zero =>
    obtain rfl : left = 0 := by omega
    obtain ⟨hended, hinstant⟩ := h.holds.gives_up
    exact ⟨[k], k, a, hended, hinstant.clock⟩
  | succ rounds ih =>
    cases left with
    | zero =>
      obtain ⟨hended, hinstant⟩ := h.holds.gives_up
      exact ⟨[k], k, a, hended, hinstant.clock⟩
    | succ left =>
      obtain ⟨deadline, hwaits, hsent⟩ := h.sends hx
      obtain ⟨htakes, hinstant⟩ := hwaits.takes
      have hnetwork := hinstant.network.trans hsent.network
      have hrest := ih htakes (hnetwork ▸ hx) (hnetwork ▸ hm) (by omega)
      have hsteps : ((e.steps n [.run k, .run k]).1.steps n [.run j, .run j]).1 =
          (e.steps n ([k, k, j, j].map Event.run)).1 := rfl
      rw [hsteps] at hrest hinstant
      exact hrest.of_steps (hinstant.clock.trans hsent.clock)

/-- Two calls under one key that can send. -/
theorem hasty_of_same_key (hlimit : n.settings.attempts = .ok attempts) (hne : k ≠ j)
    (hid : m.id = x.id) (hfree : e.replies = .empty)
    (hk : e.tasks.get? k = some ⟨.call, none, n.run (.send a m)⟩)
    (hj : e.tasks.get? j = some ⟨.call, none, n.run (.send a x)⟩)
    (hm : e.network.carries a (n.prepare m).encode = true)
    (hx : e.network.carries a (n.prepare x).encode = true) : Hasty n e attempts := by
  rw [n.run_send_of_attempts a _ attempts hlimit] at hk hj
  have hslot : e.replies.slot? (a, m.id) = none := by
    rw [hfree]
    rfl
  obtain ⟨hholds, hfirst⟩ := holds_of_register_free hk hslot
  cases attempts with
  | zero =>
    obtain ⟨hended, hinstant⟩ := hholds.gives_up
    exact ⟨[k, k], k, a, hended, (hfirst.trans hinstant).clock⟩
  | succ left =>
    obtain ⟨⟨deadline, hwaits⟩, hsecond, -⟩ := hholds.sends (hfirst.network ▸ hm)
    have hthird := hfirst.trans hsecond
    obtain ⟨hduel, hlast⟩ :=
      duel_of_register hne hid hwaits ((hthird.tasks j hne.symm).trans hj)
    have hnetwork := hlast.network.trans hthird.network
    have hrest := hduel.hasty (hnetwork ▸ hm) (hnetwork ▸ hx)
    have hsteps : (((e.step n (.run k)).1.steps n [.run k, .run k]).1.step n (.run j)).1 =
        (e.steps n ([k, k, k, j].map Event.run)).1 := rfl
    rw [hsteps] at hrest hlast
    exact hrest.of_steps (hlast.clock.trans hthird.clock)

end TreeShare.Engine
