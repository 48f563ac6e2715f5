import TreeShare.Proofs.Replies.History

/-! The table of pending replies as a matching of deliveries and tickets, over everything that can be done
to it by all who share it. Main statements: `matching`, and `parked_unless_deserted` on replies that nobody
takes. -/
namespace TreeShare

inductive ReplyPlace where
  | parked (key : ReplyKey)
  | held (t : Ticket)
  /-- It was yielded by the poll at this position. -/
  | yielded (i : Nat)
deriving DecidableEq

namespace ReplyTable

def Yields (ops : List ReplyOp) (i : Nat) (t : Ticket) (m : Message) : Prop :=
  ops[i]? = some (.poll t) ∧ ((after (ops.take i)).poll t).1 = .taken m

def DeliveredAt (ops : List ReplyOp) (i : Nat) (key : ReplyKey) (m : Message) : Prop :=
  m.id = key.2 ∧ ∃ now, ops[i]? = some (.deliver key.1 m now)

def Issued (ops : List ReplyOp) (t : Ticket) (key : ReplyKey) : Prop :=
  ∃ past later, ops = past ++ .register key :: later ∧ ((after past).register key).1 = t

def moved (p : ReplyTable) (i : Nat) (place : Nat → ReplyPlace) : ReplyOp → Nat → ReplyPlace
  | .register key, j => if place j = .parked key then .held (p.register key).1 else place j
  | .poll t, j => if place j = .held t then .yielded i else place j
  | .deliver source m _, j =>
    if j = i then
      match p.slot? (source, m.id) with
      | some (.waiting t) => .held t
      | _ => .parked (source, m.id)
    else place j
  | _, j => place j

/-- Every message that is parked, held or was yielded is a delivery that is in that place. No delivery is in
two places. -/
structure Placed (ops : List ReplyOp) (place : Nat → ReplyPlace) : Prop where
  parked : ∀ key m since, (after ops).slot? key = some (.parked m since) →
    ∃ j, place j = .parked key ∧ DeliveredAt ops j key m
  held : ∀ t m, (after ops).inbox t = .holding m →
    ∃ j key, place j = .held t ∧ DeliveredAt ops j key m ∧ Issued ops t key
  yielded : ∀ i t m, Yields ops i t m →
    ∃ j key, place j = .yielded i ∧ j < i ∧ DeliveredAt ops j key m ∧ Issued (ops.take i) t key

variable {ops more : List ReplyOp} {op : ReplyOp} {key : ReplyKey} {t : Ticket} {m : Message} {p : ReplyTable}
  {place : Nat → ReplyPlace} {i j : Nat}

theorem DeliveredAt.lt_length (h : DeliveredAt ops i key m) : i < ops.length := by
  obtain ⟨-, _, hat⟩ := h
  exact (List.getElem?_eq_some_iff.mp hat).1

theorem DeliveredAt.later (h : DeliveredAt ops i key m) (more : List ReplyOp) :
    DeliveredAt (ops ++ more) i key m := by
  have hi := h.lt_length
  unfold DeliveredAt at *
  rwa [List.getElem?_append_left hi]

theorem Issued.later (h : Issued ops t key) (op : ReplyOp) : Issued (ops ++ [op]) t key := by
  obtain ⟨past, later, rfl, hticket⟩ := h
  exact ⟨past, later ++ [op], by simp, hticket⟩

theorem issued_iff : Issued ops t key ↔ (issuedFor ops)[t.number]? = some key := by
  induction ops using List.reverseRecOn with
  | nil => simp [Issued, issuedFor]
  | append_singleton ops op ih =>
    have hlength := (filed_after ops).issued
    constructor
    · rintro ⟨past, later, hsplit, hticket⟩
      rw [issuedFor_concat]
      obtain ⟨rfl, rfl, rfl⟩ | ⟨mid, rfl, rfl⟩ := concat_eq_split.mp hsplit
      · rw [← hticket, ticket_register, hlength]
        exact List.getElem?_concat_length
      · exact getElem?_append_of_some (ih.mp ⟨past, mid, rfl, hticket⟩)
    · intro h
      rw [issuedFor_concat, List.getElem?_append] at h
      split at h
      · exact (ih.mpr h).later op
      · rename_i hge
        cases op with
        | register key' =>
          rw [ReplyOp.registered?, Option.toList_some, List.getElem?_singleton] at h
          split at h
          · rename_i hlast
            obtain rfl : key' = key := Option.some.inj h
            refine ⟨ops, [], rfl, ?_⟩
            rw [ticket_register, hlength]
            exact congrArg Ticket.mk (by omega)
          · cases h
        | _ => cases h

theorem yields_concat : Yields (ops ++ [op]) i t m ↔
    Yields ops i t m ∨ i = ops.length ∧ op = .poll t ∧ (after ops).inbox t = .holding m := by
  unfold Yields
  rw [List.getElem?_append, ← poll_eq_taken]
  by_cases hi : i < ops.length
  · rw [if_pos hi, List.take_append_of_le_length (Nat.le_of_lt hi)]
    simp [Nat.ne_of_lt hi]
  · rw [if_neg hi, List.getElem?_eq_none (Nat.le_of_not_lt hi)]
    by_cases hlast : i = ops.length
    · subst hlast
      simp
    · have hpast : [op][i - ops.length]? = none := List.getElem?_eq_none (by simp; omega)
      simp [hpast, hlast]

/-! An inbox is changed by its own caller, or where it waits. -/

theorem inbox_apply (ht : t.number < p.issued) (hinbox : p.inbox t ≠ .waiting) (hpoll : op ≠ .poll t)
    (hdrop : op ≠ .drop t) : (p.apply op).inbox t = p.inbox t := by
  have hnew : t ≠ ⟨p.issued⟩ := by
    rintro rfl
    exact Nat.lt_irrefl _ ht
  cases op with
  | register key =>
    change (p.register key).2.inbox t = _
    cases hslot : p.slot? key with
    | none => rw [(p.register_free hslot).2, if_neg hnew]
    | some s =>
      cases s with
      | parked r since => rw [(p.register_parked hslot).2, if_neg hnew]
      | waiting earlier =>
        rw [(p.register_waiting hslot).2, if_neg hnew, if_neg]
        rintro ⟨rfl, hw⟩
        exact hinbox hw
  | deliver source m now =>
    change (p.deliver source m now).2.inbox t = _
    by_cases hwaits : ∃ u, p.slot? (source, m.id) = some (.waiting u)
    · obtain ⟨u, hu⟩ := hwaits
      rw [(p.deliver_waiting source m hu now).2, if_neg]
      rintro ⟨rfl, hw⟩
      exact hinbox hw
    · exact (p.deliver_free source m (fun u hu => hwaits ⟨u, hu⟩) now).2 t
  | cancel key =>
    change (p.cancel key).inbox t = _
    unfold cancel
    dsimp only
    split
    · rw [inbox_close, if_neg]
      · rfl
      · rintro ⟨rfl, hw⟩
        exact hinbox hw
    · rfl
  | reap window now => rfl
  | poll u => exact inbox_poll_of_ne p fun hu => hpoll (congrArg _ hu.symm)
  | drop u => exact (p.inbox_abandon t u).trans (if_neg fun hu => hdrop (congrArg _ hu.symm))

theorem issued_apply (p : ReplyTable) (op : ReplyOp) : p.issued ≤ (p.apply op).issued := by
  cases op with
  | register key => exact (p.issued_register key).symm ▸ Nat.le_succ _
  | deliver source m now => exact Nat.le_of_eq (p.issued_deliver source m now).symm
  | cancel key => exact Nat.le_of_eq (p.issued_cancel key).symm
  | poll t => exact Nat.le_of_eq (p.issued_poll t).symm
  | _ => exact Nat.le_refl _

theorem holding_apply (h : (p.apply op).inbox t = .holding m) :
    (p.inbox t = .holding m ∧ op ≠ .poll t) ∨
      (∃ key since, op = .register key ∧ t = (p.register key).1 ∧ p.slot? key = some (.parked m since)) ∨
      ∃ source now, op = .deliver source m now ∧ p.slot? (source, m.id) = some (.waiting t) := by
  cases op with
  | register key =>
    change (p.register key).2.inbox t = _ at h
    cases hslot : p.slot? key with
    | none =>
      rw [(p.register_free hslot).2] at h
      split at h
      · cases h
      · exact .inl ⟨h, nofun⟩
    | some s =>
      cases s with
      | parked r since =>
        rw [(p.register_parked hslot).2] at h
        split at h
        · rename_i ht
          cases h
          exact .inr (.inl ⟨key, since, rfl, ht.trans (p.ticket_register key).symm, hslot⟩)
        · exact .inl ⟨h, nofun⟩
      | waiting earlier =>
        rw [(p.register_waiting hslot).2] at h
        split at h
        · cases h
        · split at h
          · cases h
          · exact .inl ⟨h, nofun⟩
  | deliver source r now =>
    change (p.deliver source r now).2.inbox t = _ at h
    by_cases hwaits : ∃ u, p.slot? (source, r.id) = some (.waiting u)
    · obtain ⟨u, hu⟩ := hwaits
      rw [(p.deliver_waiting source r hu now).2] at h
      split at h
      · rename_i ht
        cases h
        exact .inr (.inr ⟨source, now, rfl, ht.1 ▸ hu⟩)
      · exact .inl ⟨h, nofun⟩
    · rw [(p.deliver_free source r (fun u hu => hwaits ⟨u, hu⟩) now).2] at h
      exact .inl ⟨h, nofun⟩
  | cancel key =>
    change (p.cancel key).inbox t = _ at h
    unfold cancel at h
    dsimp only at h
    split at h
    · rw [inbox_close] at h
      split at h
      · cases h
      · exact .inl ⟨h, nofun⟩
    · exact .inl ⟨h, nofun⟩
  | reap window now => exact .inl ⟨h, nofun⟩
  | poll u =>
    change (p.poll u).2.inbox t = _ at h
    by_cases ht : t = u
    · exact absurd (ht ▸ h) (p.inbox_poll_ne_holding u m)
    · rw [inbox_poll_of_ne p ht] at h
      exact .inl ⟨h, fun hop => ht (ReplyOp.poll.inj hop).symm⟩
  | drop u =>
    rw [show (p.apply (.drop u)).inbox t = _ from p.inbox_abandon t u] at h
    split at h
    · cases h
    · exact .inl ⟨h, nofun⟩

/-! Each operation moves the deliveries along. -/

theorem moved_parked (hop : op.key? ≠ some key) (hj : j < i) (hplace : place j = .parked key) :
    moved p i place op j = .parked key := by
  cases op with
  | register key' =>
    have hne : key ≠ key' := fun hkey => hop (congrArg some hkey.symm)
    simp [moved, hplace, hne]
  | deliver source m now => simp [moved, hplace, Nat.ne_of_lt hj]
  | poll t => simp [moved, hplace]
  | _ => exact hplace

theorem moved_held (hop : op ≠ .poll t) (hj : j < i) (hplace : place j = .held t) :
    moved p i place op j = .held t := by
  cases op with
  | register key => simp [moved, hplace]
  | deliver source m now => simp [moved, hplace, Nat.ne_of_lt hj]
  | poll u =>
    have hne : t ≠ u := fun ht => hop (congrArg _ ht.symm)
    simp [moved, hplace, hne]
  | _ => exact hplace

theorem moved_yielded {k : Nat} (hj : j < i) (hplace : place j = .yielded k) :
    moved p i place op j = .yielded k := by
  cases op with
  | register key => simp [moved, hplace]
  | deliver source m now => simp [moved, hplace, Nat.ne_of_lt hj]
  | poll u => simp [moved, hplace]
  | _ => exact hplace

theorem Placed.step (h : Placed ops place) (op : ReplyOp) :
    Placed (ops ++ [op]) (moved (after ops) ops.length place op) where
  parked key m since hslot := by
    rw [after_concat] at hslot
    by_cases hop : op.key? = some key
    · obtain ⟨rfl, hid, hfree⟩ := parked_apply_of_eq hop hslot
      refine ⟨ops.length, ?_, hid, since, by simp⟩
      -- The slot holds no waiter, by `hfree`.
      simp only [moved, if_true, hid]
    · obtain ⟨j, hplace, hj⟩ := h.parked key m since (parked_apply_of_ne (filed_after ops).distinct hop hslot)
      exact ⟨j, moved_parked hop hj.lt_length hplace, hj.later [op]⟩
  held t m hinbox := by
    rw [after_concat] at hinbox
    obtain ⟨hbefore, hop⟩ | ⟨key, since, rfl, rfl, hslot⟩ | ⟨source, now, rfl, hslot⟩ :=
      holding_apply hinbox
    · obtain ⟨j, key, hplace, hj, hissued⟩ := h.held t m hbefore
      exact ⟨j, key, moved_held hop hj.lt_length hplace, hj.later [op], hissued.later op⟩
    · obtain ⟨j, hplace, hj⟩ := h.parked key m since hslot
      refine ⟨j, key, if_pos hplace, hj.later _, ?_⟩
      exact ⟨ops, [], rfl, rfl⟩
    · refine ⟨ops.length, (source, m.id), ?_, ⟨rfl, now, by simp⟩, ?_⟩
      · simp only [moved, if_true, hslot]
      · exact (issued_iff.mpr ((filed_after ops).slots _ _ hslot)).later _
  yielded i t m hyields := by
    obtain hbefore | ⟨rfl, rfl, hinbox⟩ := yields_concat.mp hyields
    · obtain ⟨j, key, hplace, hji, hj, hissued⟩ := h.yielded i t m hbefore
      have hi : i < ops.length := (List.getElem?_eq_some_iff.mp hbefore.1).1
      refine ⟨j, key, moved_yielded hj.lt_length hplace, hji, hj.later [op], ?_⟩
      rwa [List.take_append_of_le_length (Nat.le_of_lt hi)]
    · obtain ⟨j, key, hplace, hj, hissued⟩ := h.held t m hinbox
      refine ⟨j, key, if_pos hplace, hj.lt_length, hj.later _, ?_⟩
      rwa [List.take_left']
      rfl

theorem placed_after (ops : List ReplyOp) : ∃ place, Placed ops place := by
  induction ops using List.reverseRecOn with
  | nil => exact ⟨fun _ => .yielded 0, nofun, nofun, nofun⟩
  | append_singleton ops op ih => exact ih.imp' _ fun _ h => h.step op

/-! A ticket yields once. -/

def Spent (p : ReplyTable) (t : Ticket) : Prop :=
  t.number < p.issued ∧ (p.inbox t = .closed ∨ p.inbox t = .abandoned)

theorem Spent.apply (h : Spent p t) (op : ReplyOp) : Spent (p.apply op) t := by
  obtain ⟨hissued, hinbox⟩ := h
  refine ⟨Nat.lt_of_lt_of_le hissued (issued_apply p op), ?_⟩
  by_cases hdrop : op = .drop t
  · subst hdrop
    exact .inr ((p.inbox_abandon t t).trans (if_pos rfl))
  · by_cases hpoll : op = .poll t
    · subst hpoll
      have hkept : (p.poll t).2 = p := p.poll_of_empty fun m hm => by
        obtain hi | hi := hinbox <;> cases hi.symm.trans hm
      change (p.poll t).2.inbox t = _ ∨ (p.poll t).2.inbox t = _
      rwa [hkept]
    · have hwaits : p.inbox t ≠ .waiting := fun hw => by
        obtain hi | hi := hinbox <;> cases hi.symm.trans hw
      rwa [inbox_apply hissued hwaits hpoll hdrop]

theorem Spent.steps (h : Spent (after ops) t) (more : List ReplyOp) : Spent (after (ops ++ more)) t := by
  induction more using List.reverseRecOn with
  | nil => rwa [List.append_nil]
  | append_singleton more op ih =>
    rw [← List.append_assoc, after_concat]
    exact ih.apply op

theorem Issued.lt (h : Issued ops t key) : t.number < (after ops).issued := by
  rw [(filed_after ops).issued]
  exact (List.getElem?_eq_some_iff.mp (issued_iff.mp h)).1

theorem Yields.spent (h : Yields ops i t m) (hij : i < j) : Spent (after (ops.take j)) t := by
  obtain ⟨place, hplaced⟩ := placed_after ops
  obtain ⟨-, key, -, -, -, hissued⟩ := hplaced.yielded i t m h
  obtain ⟨hat, hpoll⟩ := h
  have hspent : Spent ((after (ops.take i)).apply (.poll t)) t := by
    refine ⟨Nat.lt_of_lt_of_le hissued.lt (issued_apply _ _), .inl ?_⟩
    change ((after (ops.take i)).poll t).2.inbox t = _
    unfold poll
    rw [(poll_eq_taken _).mp hpoll]
    simp
  have hnext : ops.take (i + 1) = ops.take i ++ [.poll t] := by
    rw [List.take_add_one, hat, Option.toList_some]
  rw [← after_concat, ← hnext] at hspent
  rw [← List.take_append_drop (i + 1) (ops.take j), List.take_take, Nat.min_eq_left hij]
  exact hspent.steps _

theorem Yields.unique {u : Ticket} {m' : Message} (h : Yields ops i t m) (h' : Yields ops i u m') :
    t = u ∧ m = m' := by
  obtain ⟨hat, hpoll⟩ := h
  obtain ⟨hat', hpoll'⟩ := h'
  obtain rfl : t = u := ReplyOp.poll.inj (Option.some.inj (hat.symm.trans hat'))
  exact ⟨rfl, Poll.taken.inj (hpoll.symm.trans hpoll')⟩

theorem Yields.once {m' : Message} (h : Yields ops i t m) (h' : Yields ops j t m') : ¬ i < j := by
  intro hij
  have hholds := (poll_eq_taken _).mp h'.2
  obtain hi | hi := (h.spent hij).2 <;> cases hi.symm.trans hholds

/-! A waiter that is given a message keeps it until its caller takes it or goes away. -/

def Resolves (p : ReplyTable) (key : ReplyKey) (m : Message) : Prop :=
  ((p.register key).2.poll (p.register key).1).1 = .taken m

theorem resolves_iff : Resolves p key m ↔ ∃ since, p.slot? key = some (.parked m since) := by
  unfold Resolves
  rw [poll_eq_taken, ticket_register]
  cases hslot : p.slot? key with
  | none => rw [(p.register_free hslot).2, if_pos rfl]; simp
  | some s =>
    cases s with
    | waiting earlier => rw [(p.register_waiting hslot).2, if_pos rfl]; simp
    | parked r since => rw [(p.register_parked hslot).2, if_pos rfl]; simp

/-- A reply that nobody takes is parked, where the next to register finds it, unless it came to a waiter whose
caller went away and has not been swept. -/
theorem parked_unless_deserted (ops : List ReplyOp) {source : Address} {m : Message} {now : Nat}
    (huntaken : ((after ops).deliver source m now).1 = false) :
    (after (ops ++ [.deliver source m now])).slot? (source, m.id) = some (.parked m now) ∧
        Resolves (after (ops ++ [.deliver source m now])) (source, m.id) m ↔
      ¬ ∃ t, Deserted ops (source, m.id) t := by
  rw [after_concat, resolves_iff]
  change ((after ops).deliver source m now).2.slot? _ = _ ∧
    (∃ _, ((after ops).deliver source m now).2.slot? _ = _) ↔ _
  by_cases hwaits : ∃ t, (after ops).slot? (source, m.id) = some (.waiting t)
  · obtain ⟨t, ht⟩ := hwaits
    have hdeserted : Deserted ops (source, m.id) t := by
      refine (waiter_of_slot ht).resolve_left fun hawaits => ?_
      have htaken : ((after ops).deliver source m now).1 = true :=
        deliver_eq_true_iff.mpr ⟨t, awaits_iff.mp hawaits⟩
      cases huntaken.symm.trans htaken
    rw [((after ops).deliver_waiting source m ht now).1, if_pos rfl]
    exact ⟨fun h => (nomatch h.1), fun h => absurd ⟨t, hdeserted⟩ h⟩
  · rw [((after ops).deliver_free source m (fun t ht => hwaits ⟨t, ht⟩) now).1, if_pos rfl]
    exact ⟨fun _ ⟨t, hdeserted⟩ => hwaits ⟨t, (deserted_iff.mp hdeserted).1⟩, fun _ => ⟨rfl, now, rfl⟩⟩

/-- A reply takes the place of one that was parked before it. -/
theorem parked_of_duplicate :
    let source : Address := .v4 ⟨#v[10, 0, 0, 1], 1000⟩
    let ops : List ReplyOp := [.deliver source (.empty 7 .helloReply) 0]
    let m : Message := .empty 7 .root
    ((after ops).deliver source m 1).1 = false ∧
      Resolves (after (ops ++ [.deliver source m 1])) (source, 7) m := by
  intro source ops m
  have huntaken : ((after ops).deliver source m 1).1 = false := by decide +kernel
  refine ⟨huntaken, ((parked_unless_deserted ops huntaken).mpr ?_).2⟩
  rintro ⟨t, hdeserted⟩
  have hslot : (after ops).slot? (source, 7) = some (.parked (.empty 7 .helloReply) 0) := by decide +kernel
  cases hslot.symm.trans (deserted_iff.mp hdeserted).1

/-- A reply to a caller that has gone away is lost: the next to register for it has to wait. -/
theorem not_parked_after_drop :
    ¬ ∀ (ops : List ReplyOp) (source : Address) (m : Message) (now : Nat),
      ((after ops).deliver source m now).1 = false →
        (after (ops ++ [.deliver source m now])).slot? (source, m.id) = some (.parked m now) ∧
          Resolves (after (ops ++ [.deliver source m now])) (source, m.id) m := by
  intro hparked
  let source : Address := .v4 ⟨#v[10, 0, 0, 1], 1000⟩
  have hslot := (hparked [.register (source, 7), .drop ⟨0⟩] source (.empty 7 .helloReply) 0
    (by decide +kernel)).1
  revert hslot
  decide +kernel

end ReplyTable
end TreeShare
