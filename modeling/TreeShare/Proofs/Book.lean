import Mathlib.Data.List.Induction
import TreeShare.Book

/-! What the address book lists, told from what was done to it. A book is shared: whoever has a handle can
clone it, and all handles lead to the one book. Main statement: `lists_history`. -/
namespace TreeShare

inductive BookOp where
  | register (peer : String) (a : Address)
  | evict (peer : String) (a : Address)
deriving DecidableEq

def BookOp.peer : BookOp → String
  | register peer _ | evict peer _ => peer

def BookOp.isAbout (peer : String) (a : Address) (op : BookOp) : Bool :=
  op = register peer a || op = evict peer a

namespace PeerBook

def perform (b : PeerBook) : BookOp → Bool × PeerBook
  | .register peer a => b.register peer a
  | .evict peer a => b.evict peer a

def after (ops : List BookOp) : PeerBook := ops.foldl (fun b op => (b.perform op).2) empty

/-- The last operation on an address of a peer, if any, was its registration. -/
def LastRegistered (ops : List BookOp) (peer : String) (a : Address) : Prop :=
  (ops.filter (BookOp.isAbout peer a)).getLast? = some (.register peer a)

/-- Operation `i` is the first registration of an address since its last eviction. -/
def RegisteredAt (ops : List BookOp) (peer : String) (a : Address) (i : Nat) : Prop :=
  ∃ past later, ops = past ++ .register peer a :: later ∧ past.length = i ∧
    ¬ LastRegistered past peer a ∧ .evict peer a ∉ later

/-- The list of a peer: each address whose last operation was its registration, once, in the order of their
first registrations since then. -/
structure Listed (ops : List BookOp) (peer : String) (addresses : List Address) : Prop where
  nodup : addresses.Nodup
  mem_iff : ∀ a, a ∈ addresses ↔ LastRegistered ops peer a
  order : ∃ since : Address → Nat, (∀ a ∈ addresses, ∀ i, RegisteredAt ops peer a i ↔ i = since a) ∧
    addresses.Pairwise fun a b => since a < since b

variable {ops : List BookOp} {op : BookOp} {peer : String} {a : Address} {i j : Nat}

theorem after_concat (ops : List BookOp) (op : BookOp) :
    after (ops ++ [op]) = ((after ops).perform op).2 :=
  List.foldl_append

theorem lastRegistered_concat : LastRegistered (ops ++ [op]) peer a ↔
    op = .register peer a ∨ LastRegistered ops peer a ∧ op ≠ .evict peer a := by
  unfold LastRegistered
  rw [List.filter_append]
  by_cases hregister : op = .register peer a
  · simp [BookOp.isAbout, hregister]
  by_cases hevict : op = .evict peer a
  · simp [BookOp.isAbout, hevict]
  · simp [BookOp.isAbout, hregister, hevict]

/-! The time of a registration. -/

theorem RegisteredAt.concat (h : RegisteredAt ops peer a i) (hop : op ≠ .evict peer a) :
    RegisteredAt (ops ++ [op]) peer a i := by
  obtain ⟨past, later, rfl, hi, hpast, hlater⟩ := h
  refine ⟨past, later ++ [op], by simp, hi, hpast, ?_⟩
  rw [List.mem_append, List.mem_singleton, not_or]
  exact ⟨hlater, hop.symm⟩

theorem registeredAt_concat (h : ¬ LastRegistered ops peer a) :
    RegisteredAt (ops ++ [.register peer a]) peer a ops.length :=
  ⟨ops, [], rfl, rfl, h, List.not_mem_nil⟩

theorem lastRegistered_of_later {past later : List BookOp} (h : .evict peer a ∉ later) :
    LastRegistered (past ++ .register peer a :: later) peer a := by
  induction later using List.reverseRecOn with
  | nil => exact lastRegistered_concat.mpr (.inl rfl)
  | append_singleton later op ih =>
    rw [List.mem_append, List.mem_singleton, not_or] at h
    rw [← List.cons_append, ← List.append_assoc]
    exact lastRegistered_concat.mpr (.inr ⟨ih h.1, Ne.symm h.2⟩)

theorem RegisteredAt.unique (h : RegisteredAt ops peer a i) (h' : RegisteredAt ops peer a j) : i = j := by
  have hle {i j : Nat} (h : RegisteredAt ops peer a i) (h' : RegisteredAt ops peer a j) : ¬ i < j := by
    intro hij
    obtain ⟨past, later, rfl, rfl, -, hlater⟩ := h
    obtain ⟨past', later', hops, rfl, hpast', -⟩ := h'
    obtain ⟨mid, rfl⟩ : past ++ [.register peer a] <+: past' := by
      refine List.prefix_of_prefix_length_le ?_ ⟨.register peer a :: later', hops.symm⟩ ?_
      · exact ⟨later, by simp⟩
      · rwa [List.length_append, List.length_singleton]
    have hmid : later = mid ++ .register peer a :: later' := by simpa using hops
    refine hpast' ?_
    rw [List.append_assoc]
    exact lastRegistered_of_later fun hevict => hlater (hmid ▸ List.mem_append_left _ hevict)
  exact Nat.le_antisymm (Nat.le_of_not_lt (hle h' h)) (Nat.le_of_not_lt (hle h h'))

theorem RegisteredAt.iff_eq (h : RegisteredAt ops peer a i) : RegisteredAt ops peer a j ↔ j = i :=
  ⟨fun h' => h'.unique h, fun hj => hj ▸ h⟩

/-! What one operation does to the list of a peer. -/

theorem listed_nil (peer : String) : Listed [] peer [] where
  nodup := .nil
  mem_iff a := by simp [LastRegistered]
  order := ⟨fun _ => 0, by simp, .nil⟩

theorem Listed.keep {l : List Address} (h : Listed ops peer l) (hregister : ∀ a, op = .register peer a → a ∈ l)
    (hevict : ∀ a, op = .evict peer a → a ∉ l) : Listed (ops ++ [op]) peer l where
  nodup := h.nodup
  mem_iff a := by
    rw [lastRegistered_concat, ← h.mem_iff]
    constructor
    · exact fun ha => .inr ⟨ha, fun hop => hevict a hop ha⟩
    · rintro (hop | ⟨ha, -⟩)
      · exact hregister a hop
      · exact ha
  order := by
    obtain ⟨since, hsince, hlt⟩ := h.order
    exact ⟨since, fun a ha i => (((hsince a ha _).mpr rfl).concat fun hop => hevict a hop ha).iff_eq, hlt⟩

theorem Listed.register {l : List Address} (h : Listed ops peer l) (ha : a ∉ l) :
    Listed (ops ++ [.register peer a]) peer (l ++ [a]) where
  nodup := List.nodup_append.mpr ⟨h.nodup, by simp, by
    rintro x hx y hy rfl
    exact ha (List.mem_singleton.mp hy ▸ hx)⟩
  mem_iff x := by
    rw [List.mem_append, List.mem_singleton, lastRegistered_concat, ← h.mem_iff]
    simp [or_comm, eq_comm]
  order := by
    obtain ⟨since, hsince, hlt⟩ := h.order
    have hnew : RegisteredAt (ops ++ [.register peer a]) peer a ops.length :=
      registeredAt_concat (mt (h.mem_iff a).mpr ha)
    have hne : ∀ x ∈ l, x ≠ a := fun x hx hxa => ha (hxa ▸ hx)
    refine ⟨fun x => if x = a then ops.length else since x, fun x hx i => ?_, ?_⟩
    · rcases List.mem_append.mp hx with hx | hx
      · have hop : BookOp.register peer a ≠ .evict peer x := nofun
        simp only [if_neg (hne x hx)]
        exact (((hsince x hx _).mpr rfl).concat hop).iff_eq
      · obtain rfl := List.mem_singleton.mp hx
        simp only [if_pos]
        exact hnew.iff_eq
    · refine List.pairwise_append.mpr ⟨hlt.imp_of_mem fun hx hy hxy => ?_, by simp, fun x hx y hy => ?_⟩
      · simpa only [if_neg (hne _ hx), if_neg (hne _ hy)] using hxy
      · obtain rfl := List.mem_singleton.mp hy
        simp only [if_neg (hne x hx), if_pos]
        obtain ⟨past, later, rfl, hlength, -⟩ := (hsince x hx _).mpr rfl
        rw [← hlength]
        simp

theorem Listed.evict {l : List Address} (h : Listed ops peer l) (a : Address) :
    Listed (ops ++ [.evict peer a]) peer (l.filter (· ≠ a)) where
  nodup := h.nodup.filter _
  mem_iff x := by
    rw [List.mem_filter, lastRegistered_concat, ← h.mem_iff]
    simp [@eq_comm _ a]
  order := by
    obtain ⟨since, hsince, hlt⟩ := h.order
    refine ⟨since, fun x hx i => ?_, hlt.filter _⟩
    obtain ⟨hx, hxa⟩ := List.mem_filter.mp hx
    have hop : BookOp.evict peer a ≠ .evict peer x := fun hop => by simp [(BookOp.evict.inj hop).2] at hxa
    exact (((hsince x hx _).mpr rfl).concat hop).iff_eq

/-! What a book lists after some operations. -/

theorem listed_after (ops : List BookOp) (peer : String) : Listed ops peer ((after ops).known peer) := by
  induction ops using List.reverseRecOn with
  | nil => exact listed_nil peer
  | append_singleton ops op ih =>
    rw [after_concat]
    cases op with
    | register p a =>
      change Listed _ peer (((after ops).register p a).2.known peer)
      rw [known_register]
      split
      · rename_i h
        obtain ⟨rfl, ha⟩ := h
        exact ih.register ha
      · rename_i h
        refine ih.keep (fun x hx => ?_) nofun
        obtain ⟨rfl, rfl⟩ := BookOp.register.inj hx
        simpa using h
    | evict p a =>
      change Listed _ peer (((after ops).evict p a).2.known peer)
      rw [known_evict]
      split
      · rename_i h
        obtain ⟨rfl, -⟩ := h
        exact ih.evict a
      · rename_i h
        refine ih.keep nofun fun x hx => ?_
        obtain ⟨rfl, rfl⟩ := BookOp.evict.inj hx
        simpa using h

theorem addresses?_ne_none {b : PeerBook} (h : a ∈ b.known peer) : b.addresses? peer ≠ none := by
  intro hnone
  unfold known at h
  rw [hnone] at h
  cases h

theorem addresses?_after_eq_none_iff :
    (after ops).addresses? peer = none ↔ ∀ a, .register peer a ∉ ops := by
  induction ops using List.reverseRecOn with
  | nil => simp [after, empty, addresses?]
  | append_singleton ops op ih =>
    rw [after_concat]
    cases op with
    | register p a =>
      change ((after ops).register p a).2.addresses? peer = none ↔ _
      rw [addresses?_register]
      by_cases hp : peer = p
      · subst hp
        have hnew : ¬ ∀ x, .register peer x ∉ ops ++ [.register peer a] := fun h => h a (by simp)
        rw [iff_false_right hnew]
        split
        · exact Option.some_ne_none _
        · rename_i h
          exact addresses?_ne_none (by simpa using h)
      · simp [hp, ih]
    | evict p a =>
      change ((after ops).evict p a).2.addresses? peer = none ↔ _
      rw [addresses?_evict]
      split
      · rename_i h
        obtain ⟨rfl, ha⟩ := h
        simpa using mt ih.mpr (addresses?_ne_none ha)
      · simp [ih]

theorem perform_fst (ops : List BookOp) (peer : String) (a : Address) :
    (((after ops).perform (.register peer a)).1 = true ↔ ¬ LastRegistered ops peer a) ∧
      (((after ops).perform (.evict peer a)).1 = true ↔ LastRegistered ops peer a) := by
  rw [← (listed_after ops peer).mem_iff]
  change (((after ops).register peer a).1 = true ↔ _) ∧ (((after ops).evict peer a).1 = true ↔ _)
  unfold register evict contains
  by_cases ha : a ∈ (after ops).known peer <;> simp [ha]

theorem addresses?_perform_of_ne (b : PeerBook) (h : peer ≠ op.peer) :
    (b.perform op).2.addresses? peer = b.addresses? peer := by
  cases op with
  | register p a => exact (b.addresses?_register p peer a).trans (if_neg fun hp => h hp.1)
  | evict p a => exact (b.addresses?_evict p peer a).trans (if_neg fun hp => h hp.1)

end PeerBook

/-! Handles. -/

/-- Books, and the handles to them as the numbers of their books. -/
structure BookShelf where
  books : List PeerBook
  handles : List Nat
deriving DecidableEq

namespace BookShelf

def one : BookShelf := ⟨[.empty], [0]⟩

def clone (s : BookShelf) (i : Fin s.handles.length) : BookShelf :=
  { s with handles := s.handles ++ [s.handles.get i] }

def book (s : BookShelf) (i : Fin s.handles.length) : PeerBook :=
  (s.books[s.handles.get i]?).getD .empty

def call (s : BookShelf) (i : Fin s.handles.length) (op : BookOp) : Bool × BookShelf :=
  let r := (s.book i).perform op
  (r.1, { s with books := s.books.set (s.handles.get i) r.2 })

/-- What can come of one book when handles are cloned and operations called through any of them, in turn. -/
inductive Shared : List BookOp → BookShelf → Prop
  | one : Shared [] one
  | clone {ops : List BookOp} {s : BookShelf} (h : Shared ops s) (i : Fin s.handles.length) :
      Shared ops (s.clone i)
  | call {ops : List BookOp} {s : BookShelf} (h : Shared ops s) (i : Fin s.handles.length) (op : BookOp) :
      Shared (ops ++ [op]) (s.call i op).2

variable {ops : List BookOp} {s : BookShelf}

theorem book_eq {b : PeerBook} (hbooks : s.books = [b]) (hhandles : ∀ n ∈ s.handles, n = 0)
    (i : Fin s.handles.length) : s.book i = b := by
  unfold book
  rw [hhandles _ (List.get_mem _ i), hbooks]
  rfl

theorem Shared.spec (h : Shared ops s) : s.books = [.after ops] ∧ ∀ n ∈ s.handles, n = 0 := by
  induction h with
  | one => exact ⟨rfl, by simp [BookShelf.one]⟩
  | clone _ i ih =>
    refine ⟨ih.1, fun n hn => ?_⟩
    rcases List.mem_append.mp hn with hn | hn
    · exact ih.2 n hn
    · exact List.mem_singleton.mp hn ▸ ih.2 _ (List.get_mem _ i)
  | @call ops s _ i op ih =>
    refine ⟨?_, ih.2⟩
    change s.books.set (s.handles.get i) ((s.book i).perform op).2 = _
    rw [book_eq ih.1 ih.2, ih.2 _ (List.get_mem _ i), ih.1, PeerBook.after_concat]
    rfl

theorem Shared.book_eq (h : Shared ops s) (i : Fin s.handles.length) : s.book i = .after ops :=
  BookShelf.book_eq h.spec.1 h.spec.2 i

/-- Whichever handles the operations are called through, each of them tells of the same lists: a peer has
one from its first registration on, with the addresses that were registered last, in the order of their first
registrations since they were last evicted. A registration tells that the address was absent and an eviction
that it was present, and both leave the lists of other peers. -/
theorem lists_history (h : Shared ops s) (i : Fin s.handles.length) :
    (∀ peer, (s.book i).addresses? peer = none ↔ ∀ a, .register peer a ∉ ops) ∧
    (∀ peer addresses, (s.book i).addresses? peer = some addresses →
      PeerBook.Listed ops peer addresses) ∧
    (∀ peer a, ((s.call i (.register peer a)).1 = true ↔ ¬ PeerBook.LastRegistered ops peer a) ∧
      ((s.call i (.evict peer a)).1 = true ↔ PeerBook.LastRegistered ops peer a)) ∧
    ∀ op (j : Fin (s.call i op).2.handles.length) peer, peer ≠ op.peer →
      ((s.call i op).2.book j).addresses? peer = (s.book i).addresses? peer := by
  refine ⟨fun peer => ?_, fun peer addresses hlist => ?_, fun peer a => ?_, fun op j peer hpeer => ?_⟩
  · rw [h.book_eq]
    exact PeerBook.addresses?_after_eq_none_iff
  · have hlisted := PeerBook.listed_after ops peer
    unfold PeerBook.known at hlisted
    rwa [← h.book_eq i, hlist] at hlisted
  · change (((s.book i).perform _).1 = true ↔ _) ∧ (((s.book i).perform _).1 = true ↔ _)
    rw [h.book_eq]
    exact PeerBook.perform_fst ops peer a
  · rw [(h.call i op).book_eq, h.book_eq, PeerBook.after_concat]
    exact PeerBook.addresses?_perform_of_ne _ hpeer

/-- Through two handles in turn: an address that is registered again after its eviction comes last. -/
theorem lists_history_of_return :
    let home : Address := .v4 ⟨#v[10, 0, 0, 1], 1000⟩
    let away : Address := .v4 ⟨#v[10, 0, 0, 2], 1000⟩
    let ops : List BookOp :=
      [.register "ann" home, .register "ann" away, .evict "ann" home, .register "ann" home]
    let s : BookShelf := ⟨[⟨⟨[("ann", [away, home])]⟩⟩], [0, 0]⟩
    Shared ops s ∧ (s.book (1 : Fin 2)).addresses? "ann" = some [away, home] ∧
      PeerBook.Listed ops "ann" [away, home] ∧ (s.book (1 : Fin 2)).addresses? "bob" = none ∧
      (∀ a, .register "bob" a ∉ ops) ∧ (s.call (1 : Fin 2) (.evict "ann" home)).1 = true ∧
      PeerBook.LastRegistered ops "ann" home ∧
      ((s.call (1 : Fin 2) (.evict "ann" home)).2.book (0 : Fin 2)).addresses? "bob" =
        (s.book (1 : Fin 2)).addresses? "bob" := by
  intro home away ops s
  let shelf (addresses : List Address) : BookShelf := ⟨[⟨⟨[("ann", addresses)]⟩⟩], [0, 0]⟩
  have hone : Shared [] ⟨[.empty], [0, 0]⟩ := Shared.one.clone (0 : Fin 1)
  have hhome : Shared _ (shelf [home]) := hone.call (0 : Fin 2) (.register "ann" home)
  have haway : Shared _ (shelf [home, away]) := hhome.call (1 : Fin 2) (.register "ann" away)
  have hevicted : Shared _ (shelf [away]) := haway.call (0 : Fin 2) (.evict "ann" home)
  have h : Shared ops s := hevicted.call (1 : Fin 2) (.register "ann" home)
  have hlist : (s.book (1 : Fin 2)).addresses? "ann" = some [away, home] := by decide +kernel
  have hnone : (s.book (1 : Fin 2)).addresses? "bob" = none := by decide +kernel
  have htold : (s.call (1 : Fin 2) (.evict "ann" home)).1 = true := by decide +kernel
  obtain ⟨hknown, hlisted, htells, hother⟩ := lists_history h (1 : Fin 2)
  exact ⟨h, hlist, hlisted "ann" _ hlist, hnone, (hknown "bob").mp hnone, htold,
    (htells "ann" home).2.mp htold, hother (.evict "ann" home) (0 : Fin 2) "bob" (by decide)⟩

end BookShelf
end TreeShare
