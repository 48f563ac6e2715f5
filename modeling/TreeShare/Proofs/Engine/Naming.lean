import TreeShare.Proofs.Engine.Agreement
import TreeShare.Proofs.Engine.Evictions

/-! Which names an address goes by, and when it goes by one only. Main statement: `one_name_per_address`. -/
namespace TreeShare

theorem Table.get?_eq_some_iff {κ α : Type} [DecidableEq κ] {t : Table κ α} (h : t.Distinct) {k : κ}
    {v : α} : t.get? k = some v ↔ (k, v) ∈ t.rows := by
  obtain ⟨rows⟩ := t
  simp only [Table.get?, Table.Distinct, Table.keys] at h ⊢
  induction rows with
  | nil => simp
  | cons r rows ih =>
    obtain ⟨l, w⟩ := r
    obtain ⟨hl, hrest⟩ := List.nodup_cons.mp h
    rw [Table.lookup_cons, List.mem_cons]
    by_cases hk : k = l
    · subst hk
      have hnot : (k, v) ∉ rows := fun hmem => hl (List.mem_map.mpr ⟨_, hmem, rfl⟩)
      simp [hnot, eq_comm]
    · simp [hk, ih hrest]

namespace PeerBook

variable {b b' : PeerBook} {peer : String} {a : Address}

theorem distinct_register (h : b.peers.Distinct) (peer : String) (a : Address) :
    (b.register peer a).2.peers.Distinct := by
  unfold register
  split
  · exact h
  · exact h.set _ _

theorem distinct_evict (h : b.peers.Distinct) (peer : String) (a : Address) :
    (b.evict peer a).2.peers.Distinct := by
  unfold evict
  split
  · exact h.set _ _
  · exact h

theorem contains_iff (h : b.peers.Distinct) :
    b.contains peer a ↔ ∃ addresses, (peer, addresses) ∈ b.peers.rows ∧ a ∈ addresses := by
  simp only [← Table.get?_eq_some_iff h]
  unfold contains known addresses?
  cases b.peers.get? peer <;> simp

theorem contains_of_peerAt? (h : b.peers.Distinct) (hpeer : b.peerAt? a = some peer) :
    b.contains peer a := by
  obtain ⟨⟨p, addresses⟩, hfound, rfl⟩ := Option.map_eq_some_iff.mp hpeer
  have ha : a ∈ addresses := by simpa using List.find?_some hfound
  exact (contains_iff h).mpr ⟨addresses, List.mem_of_find?_eq_some hfound, ha⟩

theorem isSome_peerAt?_iff : (b.peerAt? a).isSome ↔ ∃ r ∈ b.peers.rows, a ∈ r.2 := by
  unfold peerAt?
  rw [Option.isSome_map, List.find?_isSome]
  simp

theorem peerAt?_of_perm (h : b.peers.Distinct) (hperm : b'.peers.rows.Perm b.peers.rows)
    (hone : ∀ p q, b.contains p a → b.contains q a → p = q) : b'.peerAt? a = b.peerAt? a := by
  have h' : b'.peers.Distinct := (hperm.map Prod.fst).nodup_iff.mpr h
  have hsome : (b'.peerAt? a).isSome ↔ (b.peerAt? a).isSome := by
    simp only [isSome_peerAt?_iff, hperm.mem_iff]
  have hsame (p : String) : b'.contains p a ↔ b.contains p a := by
    simp only [contains_iff h, contains_iff h', hperm.mem_iff]
  cases hfirst : b'.peerAt? a with
  | none => simp_all
  | some p =>
    obtain ⟨q, hq⟩ := Option.isSome_iff_exists.mp (hsome.mp (by rw [hfirst]; rfl))
    have hp : b.contains p a := (hsame p).mp (contains_of_peerAt? h' hfirst)
    rw [hq, hone p q hp (contains_of_peerAt? h hq)]

def reversed (b : PeerBook) : PeerBook := ⟨⟨b.peers.rows.reverse⟩⟩

theorem perm_reversed (b : PeerBook) : b.reversed.peers.rows.Perm b.peers.rows :=
  List.reverse_perm _

end PeerBook

namespace Engine

/-- An address goes by a name: it sent a Hello or a HelloReply that claims the name and that a task admitted,
or a task was told that the directory lists it there. -/
inductive Named (n : Node) (e : Engine) (events : List Event) (peer : String) (a : Address) : Prop
  | announced {k : Nat} {m : Message} {check : List Asked} (heard : Heard events a m)
      (claims : m.claimedName? = some peer) (told : check ⊆ e.dialogue n k events)
      (admitted : (n.checkSender a m).After check (.done (.ok ())))
  | listed {k : Nat} {found : List Address}
      (told : ⟨.findAddresses peer, .ok found⟩ ∈ e.dialogue n k events) (mem : a ∈ found)

def OneName (n : Node) (e : Engine) (events : List Event) (a : Address) : Prop :=
  ∀ p q, Named n e events p a → Named n e events q a → p = q

/-- All that a run has put into the book, and all that the book has said to its tasks, is named so. -/
structure Names (n : Node) (e : Engine) (events : List Event) : Prop where
  book : ∀ peer, ∀ a ∈ (e.steps n events).1.book.known peer, Named n e events peer a
  known : ∀ k peer known, ⟨.knownAddresses peer, known⟩ ∈ e.dialogue n k events →
    ∀ a ∈ known, Named n e events peer a
  inBook : ∀ k peer a, ⟨.inBook peer a, true⟩ ∈ e.dialogue n k events → Named n e events peer a

variable {n : Node} {e : Engine} {events : List Event} {k : Nat} {peer : String} {a : Address}

theorem Named.later (h : Named n e events peer a) (more : List Event) :
    Named n e (events ++ more) peer a := by
  have hsub (k : Nat) : e.dialogue n k events ⊆ e.dialogue n k (events ++ more) := by
    rw [dialogue_append]
    exact List.subset_append_left _ _
  cases h with
  | announced heard claims told admitted =>
    exact .announced heard.later claims (List.Subset.trans told (hsub _)) admitted
  | listed told mem => exact .listed (hsub _ told) mem

theorem Names.of_grounded (h : Names n e events) (hfresh : Fresh e) {errand : Errand}
    (hstarted : Started n e events k errand)
    (hgrounded : (Op.registerPeer peer a).Grounded n errand.served (e.dialogue n k events)) :
    Named n e events peer a := by
  rcases hgrounded with hfound | ⟨m, check, hcame, hclaims, htold, hadmitted⟩
  · cases hfound with
    | listed told mem => exact .listed told mem
    | known told mem => exact h.known k peer _ told a mem
    | inBook told => exact h.inBook k peer a told
  · refine .announced ?_ hclaims htold hadmitted
    cases hcame with
    | served hserved =>
      cases errand <;> cases hserved
      exact heard_of_started hstarted
    | reply id t deadline hregistered hreply =>
      obtain ⟨keys, hcustody⟩ := custody_steps hfresh n events
      exact hcustody.heard hregistered hreply

theorem Names.step (h : Names n e events) (hfresh : Fresh e) {event : Event}
    (hown : ∀ peer a, event ≠ .register peer a) : Names n e (events ++ [event]) where
  book peer a ha := by
    rw [steps_concat] at ha
    have hchange := bookChange_step n (e.steps n events).1 event
    generalize ((e.steps n events).1.step n event).1.book = b at hchange ha
    cases hchange with
    | keep => exact (h.book peer a ha).later _
    | register outside => exact absurd outside (hown _ _)
    | registerPeer run asked =>
      rcases PeerBook.mem_known_register.mp ha with hold | ⟨rfl, rfl⟩
      · exact (h.book peer a hold).later _
      · obtain ⟨errand, hstarted, hgrounded⟩ := obeys_at (grounded_of_runs n) hfresh.idle asked
        exact (h.of_grounded hfresh hstarted hgrounded).later _
    | evict | evictPeer => exact (h.book peer a (PeerBook.mem_known_evict.mp ha).1).later _
  known k peer known hmem a ha := by
    rcases mem_dialogue_concat hmem with hold | ⟨rfl, hasked⟩
    · exact (h.known k peer known hold a ha).later _
    · obtain ⟨-, -, -, -, e', records, hanswer⟩ := asked?_eq_some_iff.mp hasked
      cases hanswer
      exact (h.book peer a ha).later _
  inBook k peer a hmem := by
    rcases mem_dialogue_concat hmem with hold | ⟨rfl, hasked⟩
    · exact (h.inBook k peer a hold).later _
    · obtain ⟨-, -, -, -, e', records, hanswer⟩ := asked?_eq_some_iff.mp hasked
      have hcontains : (e.steps n events).1.book.contains peer a = true :=
        (Prod.mk.inj (Option.some.inj hanswer)).1
      exact (h.book peer a (of_decide_eq_true hcontains)).later _

theorem names_steps (n : Node) (network : Network) (directory : Directory) (disk : Disk)
    (hown : ∀ peer a, .register peer a ∉ events) : Names n (start n network directory disk) events := by
  induction events using List.reverseRecOn with
  | nil => exact ⟨nofun, nofun, nofun⟩
  | append_singleton events event ih =>
    apply (ih fun peer a h => hown peer a (by simp [h])).step (fresh_start n network directory disk)
    exact fun peer a h => hown peer a (by simp [h])

theorem distinct_book_steps (h : e.book.peers.Distinct) (events : List Event) :
    (e.steps n events).1.book.peers.Distinct := by
  have hstep (e : Engine) (event : Event) (_ : True) (he : e.book.peers.Distinct) :
      (e.step n event).1.book.peers.Distinct := by
    have hchange := bookChange_step n e event
    generalize (e.step n event).1.book = b at hchange ⊢
    cases hchange with
    | keep => exact he
    | register | registerPeer => exact PeerBook.distinct_register he _ _
    | evict | evictPeer => exact PeerBook.distinct_evict he _ _
  exact steps_invariant hstep h fun _ _ => trivial

def withBook (e : Engine) (b : PeerBook) : Engine := { e with book := b }

def verdict? (n : Node) (e : Engine) (source : Address) (m : Message) :
    Option (Except SignatureError Unit) :=
  (e.alone n (n.checkSender source m)).map Prod.fst

theorem verdict?_eq (n : Node) (e : Engine) (source : Address) (m : Message) :
    e.verdict? n source m = some (match m.claimedName?.or (e.book.peerAt? source) with
      | none => .ok ()
      | some peer => n.judge m (e.keyCache.keyOf e.directory peer).1) := by
  have hname := alone_senderName n e source m
  unfold verdict?
  rw [Node.checkSender_eq]
  cases hsender : m.claimedName?.or (e.book.peerAt? source) with
  | none =>
    rw [hsender] at hname
    rw [alone_bind hname rfl]
    rfl
  | some peer =>
    rw [hsender] at hname
    obtain ⟨e', hkey⟩ := exists_alone_keyOf n e peer
    rw [alone_bind hname (alone_bind hkey rfl)]
    rfl

/-- In a run in which nobody but the engine's own tasks adds to the book, every address in the book goes by the
name that it has there. One that goes by one name has one there; then who is found at it and the policy for what
it sends are the same in whatever order the book has its rows. For what claims a name they always are. -/
theorem one_name_per_address (n : Node) (network : Network) (directory : Directory) (disk : Disk)
    (hown : ∀ peer a, .register peer a ∉ events) :
    let e := start n network directory disk
    let reached := (e.steps n events).1
    (∀ peer a, reached.book.contains peer a → Named n e events peer a) ∧
    ∀ a,
      (OneName n e events a → ∀ p q, reached.book.contains p a → reached.book.contains q a → p = q) ∧
      ∀ b : PeerBook, b.peers.rows.Perm reached.book.peers.rows →
        (OneName n e events a → b.peerAt? a = reached.book.peerAt? a) ∧
        ∀ m, OneName n e events a ∨ m.claimedName?.isSome →
          (reached.withBook b).verdict? n a m = reached.verdict? n a m := by
  intro e reached
  have hnames (peer : String) (a : Address) (h : reached.book.contains peer a) :
      Named n e events peer a :=
    (names_steps n network directory disk hown).book peer a (of_decide_eq_true h)
  refine ⟨hnames, fun a => ⟨fun hone p q hp hq => ?_, fun b hperm => ?_⟩⟩
  · exact hone p q (hnames p a hp) (hnames q a hq)
  · have hdistinct : reached.book.peers.Distinct :=
      distinct_book_steps (e := e) List.nodup_nil events
    have hsame (hone : OneName n e events a) : b.peerAt? a = reached.book.peerAt? a :=
      PeerBook.peerAt?_of_perm hdistinct hperm fun p q hp hq =>
        hone p q (hnames p a hp) (hnames q a hq)
    refine ⟨hsame, fun m hm => ?_⟩
    rw [verdict?_eq, verdict?_eq]
    rcases hm with hone | hclaims
    · have hbook : (reached.withBook b).book.peerAt? a = reached.book.peerAt? a := hsame hone
      rw [hbook]
      rfl
    · obtain ⟨name, hname⟩ := Option.isSome_iff_exists.mp hclaims
      rw [hname]
      rfl

/-- Two Hellos come from one address under two names, neither of which has a key yet, and both names are
registered there. Then the directory publishes a key for one of them: whether a request from the address needs a
signature now depends on the order of the rows. -/
theorem two_names_at_one_address :
    let a : Address := .v4 ⟨#v[10, 0, 0, 1], 1000⟩
    let alice : Message := ⟨7, .hello, Hello.toBody ⟨0, "alice"⟩, none, by decide⟩
    let bob : Message := ⟨8, .hello, Hello.toBody ⟨0, "bob"⟩, none, by decide⟩
    let keyed := (PeerTable.empty.setKey "bob" (some (Vector.replicate 64 1))).directory
    let events : List Event := .receive a alice.encode :: List.replicate 5 (.run 0) ++
      .receive a bob.encode :: List.replicate 5 (.run 1) ++ [.directory keyed]
    let reached := ((start .plain .ip4 PeerTable.empty.directory ⟨⟨[]⟩⟩).steps .plain events).1
    let b := reached.book.reversed
    let m := Message.empty 9 .root
    (∀ peer x, .register peer x ∉ events) ∧
      reached.book.contains "alice" a ∧ reached.book.contains "bob" a ∧
      b.peers.rows.Perm reached.book.peers.rows ∧
      reached.book.peerAt? a = some "alice" ∧ b.peerAt? a = some "bob" ∧
      reached.verdict? .plain a m = some (.ok ()) ∧
      (reached.withBook b).verdict? .plain a m = some (.error .missing) := by
  intro a alice bob keyed events reached b m
  have hown : ∀ peer x, .register peer x ∉ events := by simp [events]
  have halice : reached.book.contains "alice" a := by decide +kernel
  have hbob : reached.book.contains "bob" a := by decide +kernel
  have hfirst : reached.book.peerAt? a = some "alice" := by decide +kernel
  have hlast : b.peerAt? a = some "bob" := by decide +kernel
  have hfree : reached.verdict? .plain a m = some (.ok ()) := by decide +kernel
  have hheld : (reached.withBook b).verdict? .plain a m = some (.error .missing) := by
    decide +kernel
  exact ⟨hown, halice, hbob, reached.book.perm_reversed, hfirst, hlast, hfree, hheld⟩

/-- One Hello comes, and what it claims is all that the address goes by. -/
theorem one_name_per_address_of_hello :
    let a : Address := .v4 ⟨#v[10, 0, 0, 1], 1000⟩
    let alice : Message := ⟨7, .hello, Hello.toBody ⟨0, "alice"⟩, none, by decide⟩
    let events : List Event := .receive a alice.encode :: List.replicate 5 (.run 0)
    let e := start .plain .ip4 PeerTable.empty.directory ⟨⟨[]⟩⟩
    let reached := (e.steps .plain events).1
    (∀ peer x, .register peer x ∉ events) ∧ OneName .plain e events a ∧
      reached.book.contains "alice" a ∧ (∀ peer, reached.book.contains peer a → peer = "alice") ∧
      ∀ b : PeerBook, b.peers.rows.Perm reached.book.peers.rows →
        b.peerAt? a = reached.book.peerAt? a ∧
        ∀ m, (reached.withBook b).verdict? .plain a m = reached.verdict? .plain a m := by
  intro a alice events e reached
  have hown : ∀ peer x, .register peer x ∉ events := by simp [events]
  have hlisted (k : Nat) (peer : String) (found : List Address) :
      ⟨.findAddresses peer, .ok found⟩ ∉ e.dialogue .plain k events := by
    intro h
    have hidle : Idle e := idle_start .plain _ _ _
    have hone : (e.steps .plain events).1.nextTask = 1 := by decide +kernel
    have hnone : (e.dialogue .plain 0 events).all fun asked => match asked.op with
        | .findAddresses _ => false
        | _ => true := by
      decide +kernel
    clear_value events e
    have hk := lt_nextTask_of_mem_dialogue hidle h
    rw [hone] at hk
    obtain rfl := Nat.lt_one_iff.mp hk
    exact Bool.false_ne_true (List.all_eq_true.mp hnone _ h)
  have hname (p : String) (h : Named .plain e events p a) : p = "alice" := by
    cases h with
    | announced heard claims =>
      obtain ⟨datagram, hreceived, hm⟩ := heard
      have hdatagram : datagram = alice.encode := by simpa [events] using hreceived
      have hheard : heard? alice.encode = some alice := by decide +kernel
      have halice : alice.claimedName? = some "alice" := by decide +kernel
      obtain rfl := Option.some.inj (hheard.symm.trans (hdatagram ▸ hm))
      exact (Option.some.inj (halice.symm.trans claims)).symm
    | listed told => exact absurd told (hlisted _ _ _)
  have hone : OneName .plain e events a := fun p q hp hq => (hname p hp).trans (hname q hq).symm
  have halice : reached.book.contains "alice" a := by decide +kernel
  -- With its events as a value the run would be evaluated.
  clear_value events
  obtain ⟨-, h⟩ := one_name_per_address .plain .ip4 PeerTable.empty.directory ⟨⟨[]⟩⟩ hown
  obtain ⟨hunique, hsame⟩ := h a
  refine ⟨hown, hone, halice, fun peer hpeer => hunique hone peer "alice" hpeer halice, fun b hperm => ?_⟩
  obtain ⟨hpeerAt, hverdict⟩ := hsame b hperm
  exact ⟨hpeerAt hone, fun m => hverdict m (.inl hone)⟩

end Engine
end TreeShare
