import Mathlib.Data.List.Induction
import TreeShare.Proofs.Replies.Posted

/-! What a table of pending replies holds, told from what was done to it. Whoever shares the table does these
things in some order, and that order is all that counts. Main statements: `awaits_iff`, `deserted_iff` and
`lastParked_of_slot`, the three states that a slot can be in. -/
namespace TreeShare

inductive ReplyOp where
  | register (key : ReplyKey)
  | deliver (source : Address) (m : Message) (now : Nat)
  | cancel (key : ReplyKey)
  | reap (window now : Nat)
  | poll (t : Ticket)
  /-- The caller with this ticket goes away. -/
  | drop (t : Ticket)
deriving DecidableEq

namespace ReplyOp

def key? : ReplyOp → Option ReplyKey
  | register key | cancel key => some key
  | deliver source m _ => some (source, m.id)
  | _ => none

def registered? : ReplyOp → Option ReplyKey
  | register key => some key
  | _ => none

def isReap : ReplyOp → Bool
  | reap .. => true
  | _ => false

end ReplyOp

namespace ReplyTable

def apply (p : ReplyTable) : ReplyOp → ReplyTable
  | .register key => (p.register key).2
  | .deliver source m now => (p.deliver source m now).2
  | .cancel key => p.cancel key
  | .reap window now => (p.reap window now).2
  | .poll t => (p.poll t).2
  | .drop t => p.abandon t

def after (ops : List ReplyOp) : ReplyTable := ops.foldl apply empty

def issuedFor (ops : List ReplyOp) : List ReplyKey := ops.filterMap ReplyOp.registered?

def Delivered (ops : List ReplyOp) (source : Address) (m : Message) : Prop :=
  ∃ now, .deliver source m now ∈ ops

/-- The ticket was issued for a key under which nothing was parked, after `past`, and nobody has touched the
key in what was done `later`. -/
structure Pending (past later : List ReplyOp) (key : ReplyKey) (t : Ticket) : Prop where
  ticket : ((after past).register key).1 = t
  empty : (((after past).register key).2.poll t).1 = .waiting
  untouched : ∀ op ∈ later, op.key? ≠ some key

/-- The current waiter of a key, whose caller is still there. -/
def Awaits (ops : List ReplyOp) (key : ReplyKey) (t : Ticket) : Prop :=
  ∃ past later, ops = past ++ .register key :: later ∧ Pending past later key t ∧ .drop t ∉ later

/-- The current waiter of a key, whose caller went away after the last sweep. -/
def Deserted (ops : List ReplyOp) (key : ReplyKey) (t : Ticket) : Prop :=
  ∃ past later last, ops = past ++ .register key :: later ++ .drop t :: last ∧
    Pending past (later ++ .drop t :: last) key t ∧ .drop t ∉ later ∧ ∀ op ∈ last, op.isReap = false

variable {ops : List ReplyOp} {op : ReplyOp} {key : ReplyKey} {t : Ticket}

theorem after_append (ops more : List ReplyOp) : after (ops ++ more) = more.foldl apply (after ops) :=
  List.foldl_append

theorem after_concat (ops : List ReplyOp) (op : ReplyOp) :
    after (ops ++ [op]) = (after ops).apply op :=
  after_append ops [op]

theorem issuedFor_concat (ops : List ReplyOp) (op : ReplyOp) :
    issuedFor (ops ++ [op]) = issuedFor ops ++ op.registered?.toList := by
  unfold issuedFor
  rw [List.filterMap_append]
  cases hop : op.registered? <;> simp [hop]

theorem Delivered.later {source : Address} {m : Message} (h : Delivered ops source m)
    (more : List ReplyOp) : Delivered (ops ++ more) source m :=
  h.imp fun _ hmem => List.mem_append_left _ hmem

theorem filed_after (ops : List ReplyOp) : (after ops).Filed (Delivered ops) (issuedFor ops) := by
  induction ops using List.reverseRecOn with
  | nil => exact .start
  | append_singleton ops op ih =>
    have h := ih.imp fun _ _ hm => hm.later [op]
    rw [after_concat, issuedFor_concat]
    cases op with
    | register key => exact h.register key
    | deliver source m now =>
      have hm : Delivered (ops ++ [.deliver source m now]) source m := ⟨now, by simp⟩
      simp only [ReplyOp.registered?, Option.toList_none, List.append_nil]
      exact h.deliver hm now
    | cancel key =>
      simp only [ReplyOp.registered?, Option.toList_none, List.append_nil]
      exact h.cancel key
    | reap window now =>
      simp only [ReplyOp.registered?, Option.toList_none, List.append_nil]
      exact h.reap window now
    | poll t =>
      simp only [ReplyOp.registered?, Option.toList_none, List.append_nil]
      exact h.poll t
    | drop t =>
      simp only [ReplyOp.registered?, Option.toList_none, List.append_nil]
      exact h.abandon t

/-! A slot is changed under its key alone, except that a sweep may empty it. -/

theorem slot?_apply_of_ne {p : ReplyTable} (hdistinct : p.slots.Distinct) (hop : op.key? ≠ some key) :
    (p.apply op).slot? key = p.slot? key ∨
      op.isReap ∧ ∃ window now, (p.apply op).slot? key = (p.slot? key).filter (p.survives window now) := by
  cases op with
  | register key' => exact .inl (slot?_register_of_ne fun hkey => hop (congrArg some hkey.symm))
  | deliver source m now => exact .inl (slot?_deliver_of_ne (fun hkey => hop (congrArg some hkey.symm)) now)
  | cancel key' =>
    refine .inl ((p.slot?_cancel key' key).trans (if_neg fun hkey => hop (congrArg some hkey.symm)))
  | reap window now => exact .inr ⟨rfl, window, now, p.slot?_reap hdistinct window now key⟩
  | poll t => exact .inl (p.slot?_poll t key)
  | drop t => exact .inl rfl

theorem waiting_apply_iff {p : ReplyTable} (hdistinct : p.slots.Distinct) (hop : op.key? ≠ some key) :
    (p.apply op).slot? key = some (.waiting t) ↔
      p.slot? key = some (.waiting t) ∧ (op.isReap → p.inbox t = .waiting) := by
  cases op with
  | reap window now =>
    rw [show (p.apply (.reap window now)).slot? key = _ from p.slot?_reap hdistinct window now key,
      Option.filter_eq_some_iff]
    simp [survives, ReplyOp.isReap]
  | _ =>
    obtain hslot | ⟨hreap, -⟩ := slot?_apply_of_ne hdistinct hop
    · rw [hslot]
      simp [ReplyOp.isReap]
    · cases hreap

theorem inbox_apply_of_waiting {heard : Address → Message → Prop} {keys : List ReplyKey} {p : ReplyTable}
    (hfiled : p.Filed heard keys) (hslot : p.slot? key = some (.waiting t))
    (hempty : ∀ m, p.inbox t ≠ .holding m) (hop : op.key? ≠ some key) :
    (p.apply op).inbox t = if op = .drop t then .abandoned else p.inbox t := by
  have ht : keys[t.number]? = some key := hfiled.slots key _ hslot
  cases op with
  | register key' => exact hfiled.inbox_register_of_ne ht fun hkey => hop (congrArg some hkey)
  | deliver source m now => exact hfiled.inbox_deliver_of_ne ht (fun hkey => hop (congrArg some hkey)) now
  | cancel key' => exact hfiled.inbox_cancel_of_ne ht fun hkey => hop (congrArg some hkey)
  | reap window now => rfl
  | poll u =>
    by_cases hu : t = u
    · subst hu
      exact congrArg (inbox · t) (p.poll_of_empty hempty)
    · exact inbox_poll_of_ne p hu
  | drop u =>
    refine (p.inbox_abandon t u).trans ?_
    simp only [ReplyOp.drop.injEq, eq_comm]

/-! Who waits under a key is who registered last and found nothing, if nobody came to the key since. -/

theorem concat_eq_split {α : Type} {xs past later : List α} {x y : α} :
    xs ++ [x] = past ++ y :: later ↔
      (later = [] ∧ xs = past ∧ x = y) ∨ ∃ mid, later = mid ++ [x] ∧ xs = past ++ y :: mid := by
  obtain rfl | ⟨mid, z, rfl⟩ := List.eq_nil_or_concat later
  · simp
  · rw [List.concat_eq_append, ← List.cons_append, ← List.append_assoc, List.append_singleton_inj]
    constructor
    · rintro ⟨rfl, rfl⟩
      exact .inr ⟨mid, rfl, rfl⟩
    · rintro (⟨hnil, -⟩ | ⟨mid', hmid, rfl⟩)
      · simp at hnil
      · obtain ⟨rfl, rfl⟩ := List.append_singleton_inj.mp hmid
        exact ⟨rfl, rfl⟩

theorem pending_concat {past later : List ReplyOp} :
    Pending past (later ++ [op]) key t ↔ Pending past later key t ∧ op.key? ≠ some key := by
  constructor
  · intro h
    exact ⟨⟨h.ticket, h.empty, fun o ho => h.untouched o (List.mem_append_left _ ho)⟩,
      h.untouched op (by simp)⟩
  · rintro ⟨h, hop⟩
    refine ⟨h.ticket, h.empty, fun o ho => ?_⟩
    obtain ho | ho := List.mem_append.mp ho
    · exact h.untouched o ho
    · exact List.mem_singleton.mp ho ▸ hop

theorem awaits_concat_of_eq (hop : op.key? = some key) :
    Awaits (ops ++ [op]) key t ↔ op = .register key ∧ Pending ops [] key t := by
  constructor
  · rintro ⟨past, later, hsplit, hpending, -⟩
    obtain ⟨rfl, rfl, rfl⟩ | ⟨mid, rfl, rfl⟩ := concat_eq_split.mp hsplit
    · exact ⟨rfl, hpending⟩
    · exact absurd hop (pending_concat.mp hpending).2
  · rintro ⟨rfl, hpending⟩
    exact ⟨ops, [], rfl, hpending, List.not_mem_nil⟩

theorem awaits_concat_of_ne (hop : op.key? ≠ some key) :
    Awaits (ops ++ [op]) key t ↔ Awaits ops key t ∧ op ≠ .drop t := by
  constructor
  · rintro ⟨past, later, hsplit, hpending, hdrop⟩
    obtain ⟨rfl, rfl, rfl⟩ | ⟨mid, rfl, rfl⟩ := concat_eq_split.mp hsplit
    · exact absurd rfl hop
    · rw [List.mem_append, List.mem_singleton, not_or] at hdrop
      exact ⟨⟨past, mid, rfl, (pending_concat.mp hpending).1, hdrop.1⟩, Ne.symm hdrop.2⟩
  · rintro ⟨⟨past, later, rfl, hpending, hdrop⟩, hne⟩
    refine ⟨past, later ++ [op], by simp, pending_concat.mpr ⟨hpending, hop⟩, ?_⟩
    rw [List.mem_append, List.mem_singleton, not_or]
    exact ⟨hdrop, Ne.symm hne⟩

theorem deserted_concat :
    Deserted (ops ++ [op]) key t ↔ op.key? ≠ some key ∧
      (Awaits ops key t ∧ op = .drop t ∨ Deserted ops key t ∧ op.isReap = false) := by
  constructor
  · rintro ⟨past, later, last, hsplit, hpending, hdrop, hlast⟩
    obtain ⟨rfl, rfl, rfl⟩ | ⟨mid, rfl, rfl⟩ := concat_eq_split.mp hsplit
    · obtain ⟨hpending, hop⟩ := pending_concat.mp hpending
      exact ⟨hop, .inl ⟨⟨past, later, rfl, hpending, hdrop⟩, rfl⟩⟩
    · rw [← List.cons_append, ← List.append_assoc] at hpending
      obtain ⟨hpending, hop⟩ := pending_concat.mp hpending
      have hmid : ∀ o ∈ mid, o.isReap = false := fun o ho => hlast o (List.mem_append_left _ ho)
      exact ⟨hop, .inr ⟨⟨past, later, mid, rfl, hpending, hdrop, hmid⟩, hlast op (by simp)⟩⟩
  · rintro ⟨hop, ⟨⟨past, later, rfl, hpending, hdrop⟩, rfl⟩ |
      ⟨⟨past, later, last, rfl, hpending, hdrop, hlast⟩, hreap⟩⟩
    · exact ⟨past, later, [], by simp, pending_concat.mpr ⟨hpending, hop⟩, hdrop, by simp⟩
    · refine ⟨past, later, last ++ [op], by simp, ?_, hdrop, fun o ho => ?_⟩
      · rw [← List.cons_append, ← List.append_assoc]
        exact pending_concat.mpr ⟨hpending, hop⟩
      · obtain ho | ho := List.mem_append.mp ho
        · exact hlast o ho
        · exact List.mem_singleton.mp ho ▸ hreap

theorem waiting_register_iff {p : ReplyTable} :
    (p.register key).2.slot? key = some (.waiting t) ↔
      (p.register key).1 = t ∧ ((p.register key).2.poll t).1 = .waiting := by
  rw [p.ticket_register key, poll_eq_waiting]
  have hposted := p.posted_register key
  rw [p.ticket_register key] at hposted
  cases hmail : p.parked? key with
  | none =>
    rw [hmail] at hposted
    rw [hposted.1, Option.some.injEq, ReplySlot.waiting.injEq]
    constructor
    · rintro rfl
      exact ⟨rfl, hposted.2⟩
    · exact fun h => h.1
  | some r =>
    rw [hmail] at hposted
    constructor
    · exact fun h => absurd h (hposted.1 t)
    · rintro ⟨rfl, hwaits⟩
      cases hposted.2.symm.trans hwaits

theorem waiting_apply_of_eq {p : ReplyTable} (hop : op.key? = some key) :
    (p.apply op).slot? key = some (.waiting t) ↔
      op = .register key ∧ (p.register key).1 = t ∧ ((p.register key).2.poll t).1 = .waiting := by
  cases op with
  | register key' =>
    obtain rfl : key' = key := Option.some.inj hop
    simp only [true_and]
    exact waiting_register_iff
  | deliver source m now =>
    obtain rfl : (source, m.id) = key := Option.some.inj hop
    simp only [reduceCtorEq, false_and, iff_false]
    change (p.deliver source m now).2.slot? (source, m.id) ≠ _
    by_cases hwaits : ∃ u, p.slot? (source, m.id) = some (.waiting u)
    · obtain ⟨u, hu⟩ := hwaits
      rw [(p.deliver_waiting source m hu now).1, if_pos rfl]
      simp
    · rw [(p.deliver_free source m (fun u hu => hwaits ⟨u, hu⟩) now).1, if_pos rfl]
      simp
  | cancel key' =>
    obtain rfl : key' = key := Option.some.inj hop
    simp [apply]
  | reap window now => cases hop
  | poll u => cases hop
  | drop u => cases hop

theorem waiting_slot_iff (ops : List ReplyOp) (key : ReplyKey) (t : Ticket) :
    (Awaits ops key t ↔ (after ops).slot? key = some (.waiting t) ∧ (after ops).inbox t = .waiting) ∧
      (Deserted ops key t ↔
        (after ops).slot? key = some (.waiting t) ∧ (after ops).inbox t = .abandoned) ∧
      ((after ops).slot? key = some (.waiting t) →
        (after ops).inbox t = .waiting ∨ (after ops).inbox t = .abandoned) := by
  induction ops using List.reverseRecOn with
  | nil => simp [Awaits, Deserted, after, empty, slot?]
  | append_singleton ops op ih =>
    obtain ⟨hawaits, hdeserted, hinbox⟩ := ih
    have hfiled := filed_after ops
    rw [after_concat]
    by_cases hop : op.key? = some key
    · rw [awaits_concat_of_eq hop, deserted_concat, waiting_apply_of_eq hop]
      have hfresh : op = .register key ∧ ((after ops).register key).1 = t ∧
          (((after ops).register key).2.poll t).1 = .waiting → ((after ops).apply op).inbox t = .waiting := by
        rintro ⟨rfl, -, hpoll⟩
        exact (poll_eq_waiting _).mp hpoll
      refine ⟨⟨?_, ?_⟩, ⟨?_, ?_⟩, fun h => .inl (hfresh h)⟩
      · rintro ⟨rfl, hpending⟩
        exact ⟨⟨rfl, hpending.ticket, hpending.empty⟩, hfresh ⟨rfl, hpending.ticket, hpending.empty⟩⟩
      · rintro ⟨⟨rfl, hticket, hempty⟩, -⟩
        exact ⟨rfl, hticket, hempty, by simp⟩
      · exact fun h => absurd hop h.1
      · rintro ⟨h, hgone⟩
        cases (hfresh h).symm.trans hgone
    · rw [awaits_concat_of_ne hop, deserted_concat, waiting_apply_iff hfiled.distinct hop]
      have hkept (hslot : (after ops).slot? key = some (.waiting t)) :
          ((after ops).apply op).inbox t = if op = .drop t then .abandoned else (after ops).inbox t := by
        refine inbox_apply_of_waiting hfiled hslot (fun m hm => ?_) hop
        obtain hi | hi := hinbox hslot <;> cases hi.symm.trans hm
      rw [hawaits, hdeserted]
      by_cases hslot : (after ops).slot? key = some (.waiting t)
      · rw [hkept hslot]
        by_cases hdrop : op = .drop t
        · subst hdrop
          simp [hslot, hop, hinbox hslot, ReplyOp.isReap]
        · obtain hi | hi := hinbox hslot <;> simp [hslot, hop, hdrop, hi]
      · simp [hslot]

theorem awaits_iff :
    Awaits ops key t ↔ (after ops).slot? key = some (.waiting t) ∧ (after ops).inbox t = .waiting :=
  (waiting_slot_iff ops key t).1

theorem deserted_iff :
    Deserted ops key t ↔ (after ops).slot? key = some (.waiting t) ∧ (after ops).inbox t = .abandoned :=
  (waiting_slot_iff ops key t).2.1

theorem waiter_of_slot (h : (after ops).slot? key = some (.waiting t)) :
    Awaits ops key t ∨ Deserted ops key t := by
  obtain hinbox | hinbox := (waiting_slot_iff ops key t).2.2 h
  · exact .inl (awaits_iff.mpr ⟨h, hinbox⟩)
  · exact .inr (deserted_iff.mpr ⟨h, hinbox⟩)

/-! What is parked under a key came last, and found nobody. -/

theorem deliver_eq_true_iff {p : ReplyTable} {source : Address} {m : Message} {now : Nat} :
    (p.deliver source m now).1 = true ↔
      ∃ t, p.slot? (source, m.id) = some (.waiting t) ∧ p.inbox t = .waiting := by
  unfold deliver slot?
  dsimp only
  split
  · rename_i t ht
    have hinbox : ({ p with slots := p.slots.erase (source, m.id) } : ReplyTable).inbox = p.inbox := rfl
    rw [hinbox, ht]
    split <;> rename_i hw <;> simp [hw]
  · rename_i hfree
    simp only [Bool.false_eq_true, false_iff, not_exists, not_and]
    exact fun t ht => absurd ht (hfree t)

theorem parked_apply_of_eq {p : ReplyTable} (hop : op.key? = some key) {m : Message} {since : Nat}
    (h : (p.apply op).slot? key = some (.parked m since)) :
    op = .deliver key.1 m since ∧ m.id = key.2 ∧ ∀ t, p.slot? key ≠ some (.waiting t) := by
  cases op with
  | register key' =>
    obtain rfl : key' = key := Option.some.inj hop
    change (p.register key').2.slot? key' = _ at h
    cases hslot : p.slot? key' with
    | none =>
      rw [(p.register_free hslot).1, if_pos rfl] at h
      cases h
    | some s =>
      cases s with
      | parked r since =>
        rw [(p.register_parked hslot).1, if_pos rfl] at h
        cases h
      | waiting earlier =>
        rw [(p.register_waiting hslot).1, if_pos rfl] at h
        cases h
  | deliver source r now =>
    obtain rfl : (source, r.id) = key := Option.some.inj hop
    change (p.deliver source r now).2.slot? (source, r.id) = _ at h
    by_cases hwaits : ∃ u, p.slot? (source, r.id) = some (.waiting u)
    · obtain ⟨u, hu⟩ := hwaits
      rw [(p.deliver_waiting source r hu now).1, if_pos rfl] at h
      cases h
    · rw [(p.deliver_free source r (fun u hu => hwaits ⟨u, hu⟩) now).1, if_pos rfl] at h
      cases h
      exact ⟨rfl, rfl, fun t ht => hwaits ⟨t, ht⟩⟩
  | cancel key' =>
    obtain rfl : key' = key := Option.some.inj hop
    change (p.cancel key').slot? key' = _ at h
    rw [slot?_cancel, if_pos rfl] at h
    cases h
  | reap window now => cases hop
  | poll u => cases hop
  | drop u => cases hop

theorem parked_apply_of_ne {p : ReplyTable} (hdistinct : p.slots.Distinct) (hop : op.key? ≠ some key)
    {m : Message} {since : Nat} (h : (p.apply op).slot? key = some (.parked m since)) :
    p.slot? key = some (.parked m since) := by
  obtain hslot | ⟨-, window, now, hslot⟩ := slot?_apply_of_ne hdistinct hop
  · exact hslot.symm.trans h
  · rw [hslot] at h
    exact (Option.filter_eq_some_iff.mp h).1

end ReplyTable
end TreeShare
