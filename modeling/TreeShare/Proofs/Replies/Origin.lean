import TreeShare.Proofs.Replies

/-! Where the replies in the table came from: whatever is done to it, what it holds under a key or for a
ticket came from the address of that key. -/
namespace TreeShare

section

variable (heard : Address → Message → Prop) (keys : List ReplyKey)

def ReplySlot.Fits (key : ReplyKey) : ReplySlot → Prop
  | waiting t => keys[t.number]? = some key
  | parked m _ => heard key.1 m

def Inbox.Fits (t : Ticket) : Inbox → Prop
  | holding m => ∃ key, keys[t.number]? = some key ∧ heard key.1 m
  | _ => True

/-- Every reply in the table came from where it is filed. -/
structure ReplyTable.Filed (p : ReplyTable) : Prop where
  issued : p.issued = keys.length
  distinct : p.slots.Distinct
  slots : ∀ key s, p.slot? key = some s → s.Fits heard keys key
  inboxes : ∀ t, (p.inbox t).Fits heard keys t

end

variable {heard heard' : Address → Message → Prop} {keys more : List ReplyKey}

theorem getElem?_append_of_some {i : Nat} {key : ReplyKey} (h : keys[i]? = some key) :
    (keys ++ more)[i]? = some key := by
  rw [List.getElem?_append_left (List.getElem?_eq_some_iff.mp h).1]
  exact h

theorem ReplySlot.Fits.imp (himp : ∀ a m, heard a m → heard' a m) {key : ReplyKey} {s : ReplySlot}
    (h : s.Fits heard keys key) : s.Fits heard' keys key := by
  cases s with
  | waiting t => exact h
  | parked m since => exact himp _ _ h

theorem ReplySlot.Fits.append {key : ReplyKey} {s : ReplySlot} (h : s.Fits heard keys key) :
    s.Fits heard (keys ++ more) key := by
  cases s with
  | waiting t => exact getElem?_append_of_some h
  | parked m since => exact h

theorem Inbox.Fits.imp (himp : ∀ a m, heard a m → heard' a m) {t : Ticket} {i : Inbox}
    (h : i.Fits heard keys t) : i.Fits heard' keys t := by
  cases i with
  | holding m => exact Exists.imp (fun _ hkey => ⟨hkey.1, himp _ _ hkey.2⟩) h
  | _ => exact trivial

theorem Inbox.Fits.append {t : Ticket} {i : Inbox} (h : i.Fits heard keys t) :
    i.Fits heard (keys ++ more) t := by
  cases i with
  | holding m => exact Exists.imp (fun _ hkey => ⟨getElem?_append_of_some hkey.1, hkey.2⟩) h
  | _ => exact trivial

namespace ReplyTable.Filed

variable {p q : ReplyTable}

theorem start : Filed heard [] empty :=
  ⟨rfl, List.nodup_nil, fun _ _ h => (nomatch h), fun _ => trivial⟩

theorem imp (h : Filed heard keys p) (himp : ∀ a m, heard a m → heard' a m) :
    Filed heard' keys p :=
  ⟨h.issued, h.distinct, fun key s hs => (h.slots key s hs).imp himp, fun t => (h.inboxes t).imp himp⟩

theorem cancel (h : Filed heard keys p) (key : ReplyKey) : Filed heard keys (p.cancel key) where
  issued := (p.issued_cancel key).trans h.issued
  distinct := p.distinct_cancel h.distinct key
  slots k s hs := by
    rw [slot?_cancel] at hs
    split at hs
    · contradiction
    · exact h.slots k s hs
  inboxes t := by
    unfold ReplyTable.cancel
    dsimp only
    split
    · rw [inbox_close]
      split
      · exact trivial
      · exact h.inboxes t
    · exact h.inboxes t

theorem abandon (h : Filed heard keys p) (t : Ticket) : Filed heard keys (p.abandon t) where
  issued := h.issued
  distinct := h.distinct
  slots := h.slots
  inboxes u := by
    unfold ReplyTable.abandon
    rw [inbox_setInbox]
    split
    · exact trivial
    · exact h.inboxes u

theorem poll (h : Filed heard keys p) (t : Ticket) : Filed heard keys (p.poll t).2 := by
  unfold ReplyTable.poll
  split
  · exact h
  · refine ⟨h.issued, h.distinct, h.slots, fun u => ?_⟩
    rw [inbox_setInbox]
    split
    · exact trivial
    · exact h.inboxes u
  · exact h
  · exact h

theorem reap (h : Filed heard keys p) (window now : Nat) :
    Filed heard keys (p.reap window now).2 where
  issued := h.issued
  distinct := p.distinct_reap h.distinct window now
  slots k s hs := by
    rw [slot?_reap p h.distinct] at hs
    exact h.slots k s (Option.filter_eq_some_iff.mp hs).1
  inboxes := h.inboxes

theorem slots_of_changed {key : ReplyKey} {changed : Option ReplySlot}
    (hq : ∀ k, q.slot? k = if k = key then changed else p.slot? k)
    (hp : ∀ k s, p.slot? k = some s → s.Fits heard keys k)
    (hchanged : ∀ s, changed = some s → s.Fits heard keys key) (k : ReplyKey) (s : ReplySlot)
    (hs : q.slot? k = some s) : s.Fits heard keys k := by
  rw [hq] at hs
  split at hs
  · rename_i hk
    exact hk ▸ hchanged s hs
  · exact hp k s hs

theorem register (h : Filed heard keys p) (key : ReplyKey) :
    Filed heard (keys ++ [key]) (p.register key).2 := by
  have hissued : (p.register key).2.issued = (keys ++ [key]).length := by
    rw [issued_register, h.issued, List.length_append, List.length_singleton]
  have hdistinct := p.distinct_register h.distinct key
  have hnew : (keys ++ [key])[p.issued]? = some key := by
    rw [h.issued, List.getElem?_concat_length]
  have hslots (k : ReplyKey) (s : ReplySlot) (hs : p.slot? k = some s) :
      s.Fits heard (keys ++ [key]) k := (h.slots k s hs).append
  have hinboxes (t : Ticket) : (p.inbox t).Fits heard (keys ++ [key]) t := (h.inboxes t).append
  have hwaiting (s : ReplySlot) (hs : some (.waiting ⟨p.issued⟩) = some s) :
      s.Fits heard (keys ++ [key]) key := by
    cases hs
    exact hnew
  cases hslot : p.slot? key with
  | none =>
    obtain ⟨hslots', hinboxes'⟩ := p.register_free hslot
    refine ⟨hissued, hdistinct, slots_of_changed hslots' hslots hwaiting, fun t => ?_⟩
    rw [hinboxes']
    split
    · exact trivial
    · exact hinboxes t
  | some s =>
    cases s with
    | waiting earlier =>
      obtain ⟨hslots', hinboxes'⟩ := p.register_waiting hslot
      refine ⟨hissued, hdistinct, slots_of_changed hslots' hslots hwaiting, fun t => ?_⟩
      rw [hinboxes']
      split
      · exact trivial
      · split
        · exact trivial
        · exact hinboxes t
    | parked r since =>
      obtain ⟨hslots', hinboxes'⟩ := p.register_parked hslot
      refine ⟨hissued, hdistinct, slots_of_changed hslots' hslots nofun, fun t => ?_⟩
      rw [hinboxes']
      split
      · rename_i ht
        exact ⟨key, ht ▸ hnew, h.slots key _ hslot⟩
      · exact hinboxes t

theorem deliver (h : Filed heard keys p) {source : Address} {m : Message} (hm : heard source m)
    (now : Nat) : Filed heard keys (p.deliver source m now).2 := by
  have hissued := (p.issued_deliver source m now).trans h.issued
  have hdistinct := p.distinct_deliver h.distinct source m now
  by_cases hwaits : ∃ t, p.slot? (source, m.id) = some (.waiting t)
  · obtain ⟨t, ht⟩ := hwaits
    obtain ⟨hslots, hinboxes⟩ := p.deliver_waiting source m ht now
    refine ⟨hissued, hdistinct, slots_of_changed hslots h.slots nofun, fun u => ?_⟩
    rw [hinboxes]
    split
    · rename_i hu
      exact ⟨(source, m.id), hu.1 ▸ h.slots _ _ ht, hm⟩
    · exact h.inboxes u
  · obtain ⟨hslots, hinboxes⟩ := p.deliver_free source m (fun t ht => hwaits ⟨t, ht⟩) now
    have hparked (s : ReplySlot) (hs : some (.parked m now) = some s) :
        s.Fits heard keys (source, m.id) := by
      cases hs
      exact hm
    refine ⟨hissued, hdistinct, slots_of_changed hslots h.slots hparked, fun u => ?_⟩
    rw [hinboxes]
    exact h.inboxes u

end ReplyTable.Filed
end TreeShare
