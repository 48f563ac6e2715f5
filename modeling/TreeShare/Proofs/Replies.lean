import TreeShare.Replies

/-! What each operation on the table of pending replies does to a slot and to an inbox. -/
namespace TreeShare

namespace Table

variable {κ α : Type} [DecidableEq κ]

def Distinct (t : Table κ α) : Prop := t.keys.Nodup

theorem mem_keys_setRows {k l : κ} {v : α} {rows : List (κ × α)} :
    l ∈ (setRows k v rows).map Prod.fst ↔ l = k ∨ l ∈ rows.map Prod.fst := by
  induction rows with
  | nil => simp [setRows]
  | cons r rows ih =>
    unfold setRows
    split
    · rename_i hr
      simp [hr]
    · rw [List.map_cons, List.mem_cons, ih, List.map_cons, List.mem_cons, or_left_comm]

theorem nodup_setRows {k : κ} {v : α} {rows : List (κ × α)} (h : (rows.map Prod.fst).Nodup) :
    ((setRows k v rows).map Prod.fst).Nodup := by
  induction rows with
  | nil => simp [setRows]
  | cons r rows ih =>
    rw [List.map_cons, List.nodup_cons] at h
    unfold setRows
    split
    · rename_i hr
      rw [List.map_cons, List.nodup_cons, ← hr]
      exact h
    · rename_i hr
      rw [List.map_cons, List.nodup_cons, mem_keys_setRows]
      exact ⟨not_or.mpr ⟨hr, h.1⟩, ih h.2⟩

theorem lookup_filter {p : α → Bool} {k : κ} {rows : List (κ × α)}
    (h : (rows.map Prod.fst).Nodup) :
    (rows.filter fun r => p r.2).lookup k = (rows.lookup k).filter p := by
  induction rows with
  | nil => rfl
  | cons r rows ih =>
    obtain ⟨l, v⟩ := r
    rw [List.map_cons, List.nodup_cons] at h
    rw [List.filter_cons, lookup_cons]
    by_cases hk : k = l
    · subst hk
      have habsent : rows.lookup k = none := by
        rw [List.lookup_eq_none_iff]
        intro x hx
        have hne : k ≠ x.1 := fun hkx => h.1 (List.mem_map.mpr ⟨x, hx, hkx.symm⟩)
        simpa using hne
      rw [if_pos rfl, Option.filter_some]
      split
      · rw [lookup_cons, if_pos rfl]
      · rw [ih h.2, habsent, Option.filter_none]
    · rw [if_neg hk, ← ih h.2]
      split
      · rw [lookup_cons, if_neg hk]
      · rfl

theorem Distinct.set {t : Table κ α} (h : t.Distinct) (k : κ) (v : α) : (t.set k v).Distinct :=
  nodup_setRows h

omit [DecidableEq κ] in
theorem Distinct.filter {t : Table κ α} (h : t.Distinct) (p : κ × α → Bool) :
    Distinct ⟨t.rows.filter p⟩ :=
  h.sublist (List.filter_sublist.map Prod.fst)

theorem Distinct.erase {t : Table κ α} (h : t.Distinct) (k : κ) : (t.erase k).Distinct :=
  h.filter _

theorem Distinct.get?_filter {t : Table κ α} (h : t.Distinct) (p : α → Bool) (k : κ) :
    (⟨t.rows.filter fun r => p r.2⟩ : Table κ α).get? k = (t.get? k).filter p :=
  lookup_filter h

end Table

namespace ReplyTable

variable (p : ReplyTable)

def slot? (key : ReplyKey) : Option ReplySlot := p.slots.get? key

@[simp] theorem inbox_setInbox (t u : Ticket) (i : Inbox) :
    (p.setInbox t i).inbox u = if u = t then i else p.inbox u := by
  unfold inbox setInbox
  rw [Table.get?_set]
  split <;> rfl

@[simp] theorem slots_setInbox (t : Ticket) (i : Inbox) : (p.setInbox t i).slots = p.slots := rfl

@[simp] theorem slots_close (t : Ticket) : (p.close t).slots = p.slots := by
  unfold close
  split <;> rfl

@[simp] theorem inbox_close (t u : Ticket) :
    (p.close t).inbox u = if u = t ∧ p.inbox t = .waiting then .closed else p.inbox u := by
  unfold close
  split <;> rename_i h <;> simp [h]

/-! A registration takes what is parked under its key, or waits in the slot. -/

@[simp] theorem issued_register (key : ReplyKey) : (p.register key).2.issued = p.issued + 1 := by
  unfold register
  dsimp only
  split
  · rfl
  · unfold close
    split <;> rfl
  · rfl

theorem ticket_register (key : ReplyKey) : (p.register key).1 = ⟨p.issued⟩ := by
  unfold register
  dsimp only
  split <;> rfl

theorem register_parked {key : ReplyKey} {m : Message} {since : Nat}
    (h : p.slot? key = some (.parked m since)) :
    (∀ k, (p.register key).2.slot? k = if k = key then none else p.slot? k) ∧
      ∀ t, (p.register key).2.inbox t = if t = ⟨p.issued⟩ then .holding m else p.inbox t := by
  unfold slot? at *
  unfold register
  dsimp only
  rw [h]
  exact ⟨fun k => Table.get?_erase .., fun t => inbox_setInbox ..⟩

theorem register_free {key : ReplyKey} (h : p.slot? key = none) :
    (∀ k, (p.register key).2.slot? k =
        if k = key then some (.waiting ⟨p.issued⟩) else p.slot? k) ∧
      ∀ t, (p.register key).2.inbox t = if t = ⟨p.issued⟩ then .waiting else p.inbox t := by
  unfold slot? at *
  unfold register
  dsimp only
  rw [h]
  exact ⟨fun k => Table.get?_set .., fun t => inbox_setInbox ..⟩

theorem register_waiting {key : ReplyKey} {earlier : Ticket}
    (h : p.slot? key = some (.waiting earlier)) :
    (∀ k, (p.register key).2.slot? k =
        if k = key then some (.waiting ⟨p.issued⟩) else p.slot? k) ∧
      ∀ t, (p.register key).2.inbox t =
        if t = ⟨p.issued⟩ then .waiting
        else if t = earlier ∧ p.inbox earlier = .waiting then .closed else p.inbox t := by
  unfold slot? at *
  unfold register
  dsimp only
  rw [h]
  refine ⟨fun k => ?_, fun t => ?_⟩
  · simp only [slots_setInbox, slots_close]
    exact Table.get?_set ..
  · simp only [inbox_setInbox, inbox_close]
    rfl

/-! A delivery fills the inbox of its waiter, or is parked. -/

theorem deliver_waiting (source : Address) (m : Message) {t : Ticket}
    (h : p.slot? (source, m.id) = some (.waiting t)) (now : Nat) :
    (∀ k, (p.deliver source m now).2.slot? k = if k = (source, m.id) then none else p.slot? k) ∧
      ∀ u, (p.deliver source m now).2.inbox u =
        if u = t ∧ p.inbox t = .waiting then .holding m else p.inbox u := by
  unfold slot? at *
  unfold deliver
  dsimp only
  rw [h]
  dsimp only
  have herase : ({ p with slots := p.slots.erase (source, m.id) } : ReplyTable).inbox = p.inbox := rfl
  rw [herase]
  split
  · rename_i hw
    refine ⟨fun k => Table.get?_erase .., fun u => ?_⟩
    simp only [inbox_setInbox, hw, and_true]
    rfl
  · rename_i hw
    exact ⟨fun k => Table.get?_erase .., fun u => by simp only [hw, and_false, if_false]; rfl⟩

theorem deliver_free (source : Address) (m : Message)
    (h : ∀ t, p.slot? (source, m.id) ≠ some (.waiting t)) (now : Nat) :
    (∀ k, (p.deliver source m now).2.slot? k =
        if k = (source, m.id) then some (.parked m now) else p.slot? k) ∧
      ∀ u, (p.deliver source m now).2.inbox u = p.inbox u := by
  unfold slot? at *
  unfold deliver
  dsimp only
  split
  · rename_i t ht
    exact absurd ht (h t)
  · exact ⟨fun k => Table.get?_set .., fun u => rfl⟩

@[simp] theorem issued_deliver (source : Address) (m : Message) (now : Nat) :
    (p.deliver source m now).2.issued = p.issued := by
  unfold deliver
  dsimp only
  split
  · split <;> rfl
  · rfl

/-! A cancelled slot is gone; its waiter gets nothing. -/

@[simp] theorem slot?_cancel (key k : ReplyKey) :
    (p.cancel key).slot? k = if k = key then none else p.slot? k := by
  unfold slot? cancel
  dsimp only
  split
  · rw [slots_close]
    exact Table.get?_erase ..
  · exact Table.get?_erase ..

theorem inbox_cancel_of_ne {key : ReplyKey} {t : Ticket} (h : p.slot? key ≠ some (.waiting t)) :
    (p.cancel key).inbox t = p.inbox t := by
  unfold slot? at h
  unfold cancel
  dsimp only
  split
  · rename_i u hu
    rw [inbox_close, if_neg]
    · rfl
    · rintro ⟨rfl, -⟩
      exact h hu
  · rfl

@[simp] theorem issued_cancel (key : ReplyKey) : (p.cancel key).issued = p.issued := by
  unfold cancel close
  dsimp only
  split
  · split <;> rfl
  · rfl

/-! A poll takes the message of its own ticket; an abandoned ticket gets none. -/

@[simp] theorem slot?_poll (t : Ticket) (k : ReplyKey) : (p.poll t).2.slot? k = p.slot? k := by
  unfold poll
  split <;> rfl

theorem poll_eq_waiting {t : Ticket} : (p.poll t).1 = .waiting ↔ p.inbox t = .waiting := by
  unfold poll
  cases p.inbox t <;> simp

theorem poll_eq_taken {t : Ticket} {m : Message} : (p.poll t).1 = .taken m ↔ p.inbox t = .holding m := by
  unfold poll
  cases p.inbox t <;> simp

theorem poll_of_empty {t : Ticket} (h : ∀ m, p.inbox t ≠ .holding m) : (p.poll t).2 = p := by
  unfold poll
  split
  · rfl
  · rename_i m hm
    exact absurd hm (h m)
  · rfl
  · rfl

theorem inbox_poll_ne_holding (t : Ticket) (m : Message) : (p.poll t).2.inbox t ≠ .holding m := by
  unfold poll
  cases hinbox : p.inbox t <;> simp [hinbox]

theorem inbox_poll_of_ne {t u : Ticket} (h : u ≠ t) : (p.poll t).2.inbox u = p.inbox u := by
  unfold poll
  split
  · rfl
  · rw [inbox_setInbox, if_neg h]
  · rfl
  · rfl

@[simp] theorem issued_poll (t : Ticket) : (p.poll t).2.issued = p.issued := by
  unfold poll
  split <;> rfl

/-! A sweep drops parked replies that are too old and the slots of waiters that are gone. -/

theorem slot?_reap (h : p.slots.Distinct) (window now : Nat) (k : ReplyKey) :
    (p.reap window now).2.slot? k = (p.slot? k).filter (p.survives window now) :=
  h.get?_filter _ k

/-! Every key has one slot. -/

theorem distinct_register (h : p.slots.Distinct) (key : ReplyKey) :
    (p.register key).2.slots.Distinct := by
  unfold register
  dsimp only
  split
  · exact h.erase key
  · rw [slots_setInbox, slots_close]
    exact h.set key _
  · exact h.set key _

theorem distinct_deliver (h : p.slots.Distinct) (source : Address) (m : Message) (now : Nat) :
    (p.deliver source m now).2.slots.Distinct := by
  unfold deliver
  dsimp only
  split
  · split <;> exact h.erase _
  · exact h.set _ _

theorem distinct_cancel (h : p.slots.Distinct) (key : ReplyKey) : (p.cancel key).slots.Distinct := by
  unfold cancel
  dsimp only
  split
  · rw [slots_close]
    exact h.erase key
  · exact h.erase key

theorem distinct_poll (h : p.slots.Distinct) (t : Ticket) : (p.poll t).2.slots.Distinct := by
  unfold poll
  split <;> exact h

theorem distinct_reap (h : p.slots.Distinct) (window now : Nat) :
    (p.reap window now).2.slots.Distinct :=
  h.filter _

end ReplyTable
end TreeShare
