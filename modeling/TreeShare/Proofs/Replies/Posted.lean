import TreeShare.Proofs.Replies.Origin

/-! How a ticket stands with its key, and that what is done under other keys leaves it there. -/
namespace TreeShare

/-- How a ticket stands with its key: it waits in the slot, or holds a reply and has no slot. -/
def ReplyTable.Posted (p : ReplyTable) (key : ReplyKey) (t : Ticket) : Option Message → Prop
  | none => p.slot? key = some (.waiting t) ∧ p.inbox t = .waiting
  | some r => (∀ u, p.slot? key ≠ some (.waiting u)) ∧ p.inbox t = .holding r

/-! A slot is changed only under its own key. -/

namespace ReplyTable

variable {heard : Address → Message → Prop} {keys : List ReplyKey} {p : ReplyTable} {key key' : ReplyKey}
  {t u : Ticket} {mail : Option Message}

theorem slot?_register_of_ne (hne : key ≠ key') : (p.register key').2.slot? key = p.slot? key := by
  cases hslot : p.slot? key' with
  | none => rw [(p.register_free hslot).1, if_neg hne]
  | some s =>
    cases s with
    | parked r since => rw [(p.register_parked hslot).1, if_neg hne]
    | waiting earlier => rw [(p.register_waiting hslot).1, if_neg hne]

theorem slot?_deliver_of_ne {source : Address} {m : Message} (hne : key ≠ (source, m.id)) (now : Nat) :
    (p.deliver source m now).2.slot? key = p.slot? key := by
  by_cases hwaits : ∃ u, p.slot? (source, m.id) = some (.waiting u)
  · obtain ⟨u, hu⟩ := hwaits
    rw [(p.deliver_waiting source m hu now).1, if_neg hne]
  · rw [(p.deliver_free source m (fun u hu => hwaits ⟨u, hu⟩) now).1, if_neg hne]

/-! A ticket is over when its slot is given up or its reply was taken. -/

theorem Posted.over_of_cancel (h : p.Posted key t mail) : (p.cancel key).inbox t ≠ .waiting := by
  cases mail with
  | none =>
    have hslot : p.slots.get? key = some (.waiting t) := h.1
    unfold cancel
    dsimp only
    rw [hslot]
    dsimp only
    rw [inbox_close, if_pos ⟨rfl, h.2⟩]
    simp
  | some r =>
    rw [p.inbox_cancel_of_ne (h.1 t), h.2]
    simp

theorem over_of_poll {r : Message} (h : p.inbox t = .holding r) : (p.poll t).2.inbox t ≠ .waiting := by
  unfold poll
  rw [h]
  simp

/-! An inbox is changed by its own caller, or under the key that its ticket was issued for. -/

theorem Posted.ne_of_keys (ht : keys[t.number]? = some key) (hu : keys[u.number]? = some key')
    (hne : key' ≠ key) : t ≠ u := by
  rintro rfl
  exact hne (Option.some.inj (hu.symm.trans ht))

namespace Filed

theorem ne_issued (h : p.Filed heard keys) (ht : keys[t.number]? = some key) : t ≠ ⟨p.issued⟩ := by
  rintro rfl
  rw [h.issued, List.getElem?_eq_none (Nat.le_refl _)] at ht
  contradiction

theorem inbox_register_of_ne (h : p.Filed heard keys) (ht : keys[t.number]? = some key)
    (hne : key' ≠ key) : (p.register key').2.inbox t = p.inbox t := by
  have hnew := h.ne_issued ht
  cases hslot : p.slot? key' with
  | none => rw [(p.register_free hslot).2, if_neg hnew]
  | some s =>
    cases s with
    | parked r since => rw [(p.register_parked hslot).2, if_neg hnew]
    | waiting earlier =>
      have hearlier : t ≠ earlier := Posted.ne_of_keys ht (h.slots _ _ hslot) hne
      rw [(p.register_waiting hslot).2, if_neg hnew, if_neg fun hsame => hearlier hsame.1]

theorem inbox_deliver_of_ne (h : p.Filed heard keys) (ht : keys[t.number]? = some key)
    {source : Address} {m : Message} (hne : (source, m.id) ≠ key) (now : Nat) :
    (p.deliver source m now).2.inbox t = p.inbox t := by
  by_cases hwaits : ∃ u, p.slot? (source, m.id) = some (.waiting u)
  · obtain ⟨u, hu⟩ := hwaits
    have htu : t ≠ u := Posted.ne_of_keys ht (h.slots _ _ hu) hne
    rw [(p.deliver_waiting source m hu now).2, if_neg fun hsame => htu hsame.1]
  · exact (p.deliver_free source m (fun u hu => hwaits ⟨u, hu⟩) now).2 t

theorem inbox_cancel_of_ne (h : p.Filed heard keys) (ht : keys[t.number]? = some key)
    (hne : key' ≠ key) : (p.cancel key').inbox t = p.inbox t :=
  p.inbox_cancel_of_ne fun hslot => Posted.ne_of_keys ht (h.slots _ _ hslot) hne rfl

end Filed

theorem inbox_abandon (p : ReplyTable) (t u : Ticket) :
    (p.abandon u).inbox t = if t = u then .abandoned else p.inbox t :=
  inbox_setInbox ..

/-! So a ticket stays at its post. -/

namespace Posted

theorem congr {q : ReplyTable} (h : p.Posted key t mail) (hslot : q.slot? key = p.slot? key)
    (hinbox : q.inbox t = p.inbox t) : q.Posted key t mail := by
  cases mail with
  | none => exact ⟨hslot.trans h.1, hinbox.trans h.2⟩
  | some r => exact ⟨fun v hv => h.1 v (hslot ▸ hv), hinbox.trans h.2⟩

theorem register_other (h : p.Posted key t mail) (hfiled : p.Filed heard keys)
    (ht : keys[t.number]? = some key) (hne : key' ≠ key) :
    (p.register key').2.Posted key t mail :=
  h.congr (slot?_register_of_ne hne.symm) (hfiled.inbox_register_of_ne ht hne)

theorem cancel_other (h : p.Posted key t mail) (hfiled : p.Filed heard keys)
    (ht : keys[t.number]? = some key) (hne : key' ≠ key) : (p.cancel key').Posted key t mail :=
  h.congr (by rw [slot?_cancel, if_neg hne.symm]) (hfiled.inbox_cancel_of_ne ht hne)

theorem poll_other (h : p.Posted key t mail) (hne : t ≠ u) : (p.poll u).2.Posted key t mail :=
  h.congr (slot?_poll ..) (inbox_poll_of_ne p hne)

theorem abandon_other (h : p.Posted key t mail) (hne : t ≠ u) : (p.abandon u).Posted key t mail :=
  h.congr rfl (by rw [inbox_abandon, if_neg hne])

theorem deliver (h : p.Posted key t mail) (hfiled : p.Filed heard keys)
    (ht : keys[t.number]? = some key) (source : Address) (m : Message) (now : Nat) :
    (p.deliver source m now).2.Posted key t
      (mail.or (if key = (source, m.id) then some m else none)) := by
  by_cases hkey : key = (source, m.id)
  · rw [if_pos hkey]
    cases mail with
    | none =>
      obtain ⟨hslots, hinboxes⟩ := p.deliver_waiting source m (hkey ▸ h.1) now
      refine ⟨fun v hv => ?_, by rw [hinboxes, if_pos ⟨rfl, h.2⟩]⟩
      rw [hslots, if_pos hkey] at hv
      contradiction
    | some r =>
      obtain ⟨hslots, hinboxes⟩ := p.deliver_free source m (hkey ▸ h.1) now
      refine ⟨fun v hv => ?_, (hinboxes t).trans h.2⟩
      rw [hslots, if_pos hkey] at hv
      cases hv
  · rw [if_neg hkey, Option.or_none]
    exact h.congr (slot?_deliver_of_ne hkey now) (hfiled.inbox_deliver_of_ne ht (Ne.symm hkey) now)

theorem reap (h : p.Posted key t mail) (hfiled : p.Filed heard keys) (window now : Nat) :
    (p.reap window now).2.Posted key t mail := by
  have hslots := p.slot?_reap hfiled.distinct window now key
  cases mail with
  | none =>
    refine ⟨?_, h.2⟩
    rw [hslots, h.1]
    simp [survives, h.2]
  | some r =>
    refine ⟨fun u hu => ?_, h.2⟩
    rw [hslots] at hu
    exact h.1 u (Option.filter_eq_some_iff.mp hu).1

end Posted

def parked? (p : ReplyTable) (key : ReplyKey) : Option Message :=
  match p.slot? key with
  | some (.parked m _) => some m
  | _ => none

theorem posted_register (p : ReplyTable) (key : ReplyKey) :
    (p.register key).2.Posted key (p.register key).1 (p.parked? key) := by
  rw [p.ticket_register key]
  unfold parked?
  cases hslot : p.slot? key with
  | none =>
    obtain ⟨hslots, hinboxes⟩ := p.register_free hslot
    exact ⟨by rw [hslots, if_pos rfl], by rw [hinboxes, if_pos rfl]⟩
  | some s =>
    cases s with
    | parked r since =>
      obtain ⟨hslots, hinboxes⟩ := p.register_parked hslot
      refine ⟨fun u hu => ?_, by rw [hinboxes, if_pos rfl]⟩
      rw [hslots, if_pos rfl] at hu
      contradiction
    | waiting earlier =>
      obtain ⟨hslots, hinboxes⟩ := p.register_waiting hslot
      exact ⟨by rw [hslots, if_pos rfl], by rw [hinboxes, if_pos rfl]⟩

end ReplyTable
end TreeShare
