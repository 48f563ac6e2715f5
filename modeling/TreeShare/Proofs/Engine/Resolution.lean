import TreeShare.Proofs.Engine.Evictions
import TreeShare.Proofs.Engine.Itineraries

/-! The book that a search for a peer leaves, when nothing else touches the book meanwhile. Main statement:
`peer_resolution`. -/
namespace TreeShare

open Proc

namespace PeerBook

def heed (b : PeerBook) : Op → PeerBook
  | .registerPeer peer a => (b.register peer a).2
  | .evictPeer peer a => (b.evict peer a).2
  | _ => b

def replay (b : PeerBook) (log : List Asked) : PeerBook := log.foldl (fun b asked => b.heed asked.op) b

variable {b : PeerBook} {peer : String} {a : Address}

@[simp] theorem replay_nil (b : PeerBook) : b.replay [] = b := rfl

@[simp] theorem replay_cons (b : PeerBook) (asked : Asked) (log : List Asked) :
    b.replay (asked :: log) = (b.heed asked.op).replay log := rfl

@[simp] theorem replay_append (b : PeerBook) (log more : List Asked) :
    b.replay (log ++ more) = (b.replay log).replay more := List.foldl_append

theorem nodup_known_register (h : ∀ peer, (b.known peer).Nodup) (p : String) (a : Address) (q : String) :
    ((b.register p a).2.known q).Nodup := by
  rw [known_register]
  split
  · rename_i hnew
    refine List.nodup_append.mpr ⟨h p, by simp, fun x hx y hy heq => ?_⟩
    exact hnew.2 (List.mem_singleton.mp hy ▸ heq ▸ hx)
  · exact h q

theorem nodup_known_evict (h : ∀ peer, (b.known peer).Nodup) (p : String) (a : Address) (q : String) :
    ((b.evict p a).2.known q).Nodup := by
  rw [known_evict]
  split
  · exact (h p).filter _
  · exact h q

end PeerBook

def Op.KeepsBook : Op → Prop
  | registerPeer .. | evictPeer .. => False
  | _ => True

/-- Nothing happens to the book, but that an address may be entered at the end of what succeeds. -/
inductive EntersLast (a : Address) : List Asked → (success : Bool) → Prop
  | keeps {log : List Asked} {success : Bool} (keeps : ∀ asked ∈ log, asked.op.KeepsBook) :
      EntersLast a log success
  | enters {log : List Asked} {name : String} (keeps : ∀ asked ∈ log, asked.op.KeepsBook) :
      EntersLast a (log ++ [⟨.registerPeer name a, ()⟩]) true

def Attempt.EntersLast {α : Type} (a : Address) (x : Attempt α) : Prop :=
  ∀ log r, x.run.After log (.done r) → TreeShare.EntersLast a log r.isOk

section

variable {n : Node} {peer : String} {m r : Message} {a : Address} {known tried found : List Address}
  {legs : Itinerary} {headway : Headway} {log earlier : List Asked} {b : PeerBook} {success : Bool}
  {α β : Type}

theorem replay_of_keeps (h : ∀ asked ∈ log, asked.op.KeepsBook) (b : PeerBook) : b.replay log = b := by
  induction log with
  | nil => rfl
  | cons asked log ih =>
    obtain ⟨hasked, hlog⟩ := List.forall_mem_cons.mp h
    have hheed : b.heed asked.op = b := by
      obtain ⟨op, answer⟩ := asked
      cases op <;> first | rfl | exact hasked.elim
    rw [PeerBook.replay_cons, hheed, ih hlog]

theorem keeps_of_obeys {p q : Proc α} (h : p.Obeys (fun _ op => op.KeepsBook) [])
    (hq : p.After log q) : ∀ asked ∈ log, asked.op.KeepsBook := by
  intro asked hasked
  obtain ⟨past, later, rfl⟩ := List.append_of_mem hasked
  exact h.asked hq

theorem keeps_of_free (_ : List Asked) (op : Op) (h : op.IsFree) : op.KeepsBook := by
  cases op <;> first | exact trivial | exact h.elim

theorem exchange_keeps (n : Node) (a : Address) (m : Message) :
    (n.exchange a m).run.Obeys (fun _ op => op.KeepsBook) [] := by
  refine (Node.exchange_plain n a m).imp fun log op hop => ?_
  cases op <;> first | exact trivial | exact hop.elim

namespace EntersLast

theorem later (h : EntersLast a log success) (hearlier : ∀ asked ∈ earlier, asked.op.KeepsBook) :
    EntersLast a (earlier ++ log) success := by
  cases h with
  | keeps keeps => exact .keeps (List.forall_mem_append.mpr ⟨hearlier, keeps⟩)
  | enters keeps =>
    rw [← List.append_assoc]
    exact .enters (List.forall_mem_append.mpr ⟨hearlier, keeps⟩)

theorem cons (h : EntersLast a log success) {asked : Asked} (hasked : asked.op.KeepsBook) :
    EntersLast a (asked :: log) success :=
  h.later (List.forall_mem_singleton.mpr hasked)

theorem keeps_of_failure (h : EntersLast a log false) : ∀ asked ∈ log, asked.op.KeepsBook := by
  cases h with
  | keeps keeps => exact keeps

theorem mem_known (h : EntersLast a log success) (hempty : b.known peer = []) {x : Address}
    (hx : x ∈ (b.replay log).known peer) : x = a := by
  cases h with
  | keeps keeps =>
    rw [replay_of_keeps keeps, hempty] at hx
    exact absurd hx List.not_mem_nil
  | enters keeps =>
    rw [PeerBook.replay_append, replay_of_keeps keeps] at hx
    rcases PeerBook.mem_known_register.mp hx with hx | ⟨-, rfl⟩
    · rw [hempty] at hx
      exact absurd hx List.not_mem_nil
    · rfl

end EntersLast

/-! What a Hello and a traversal enter. -/

namespace Attempt

theorem entersLast_lift {p : Proc α} (hp : p.Obeys (fun _ op => op.KeepsBook) [])
    {k : α → Attempt β} (hk : ∀ b, (k b).EntersLast a) : ((liftM p : Attempt α) >>= k).EntersLast a := by
  intro log r h
  rw [run_liftM_bind] at h
  obtain ⟨first, b, second, rfl, hfirst, hsecond⟩ := after_bind_done_iff.mp h
  exact (hk b second r hsecond).later (keeps_of_obeys hp hfirst)

theorem entersLast_bind {x : Attempt α} (hx : x.run.Obeys (fun _ op => op.KeepsBook) [])
    {f : α → Attempt β} (hf : ∀ b, (f b).EntersLast a) : (x >>= f).EntersLast a := by
  intro log r h
  obtain ⟨first, result, second, rfl, hfirst, hsecond⟩ := after_bind_done_iff.mp h
  refine EntersLast.later ?_ (keeps_of_obeys hx hfirst)
  cases result with
  | ok b => exact hf b second r hsecond
  | error cause =>
    obtain ⟨rfl, -⟩ := after_done_iff.mp hsecond
    exact .keeps (List.forall_mem_nil _)

end Attempt

open Attempt

theorem greet_entersLast (n : Node) (a : Address) : (n.greet a).EntersLast a := by
  apply entersLast_lift (p := perform .drawId) (obeys_perform trivial)
  intro id
  apply entersLast_bind (obeys_ofExcept _)
  intro m
  apply entersLast_bind (exchange_keeps n a m)
  intro reply
  apply entersLast_bind (obeys_ofExcept _)
  intro hello log r h
  obtain ⟨⟨⟩, rest, rfl, hdone⟩ := after_ask_done_iff.mp h
  obtain ⟨rfl, hr⟩ := after_done_iff.mp hdone
  cases hr
  have henters : EntersLast a ([] ++ [⟨.registerPeer hello.peer a, ()⟩]) true :=
    .enters (List.forall_mem_nil _)
  exact henters

theorem traverseRounds_entersLast {request : Message} (rounds : Nat) :
    (n.traverseRounds peer a request rounds).EntersLast a := by
  induction rounds with
  | zero =>
    intro log r h
    obtain ⟨rfl, -⟩ := after_done_iff.mp h
    exact .keeps (List.forall_mem_nil _)
  | succ rounds ih =>
    apply entersLast_lift (Node.serverAddresses_obeys keeps_of_free n [])
    intro servers
    apply entersLast_lift (Node.sendToAll_obeys (fun _ _ => trivial) servers [])
    intro _ log r h
    rw [run_outcome_bind] at h
    obtain ⟨first, greeted, second, rfl, hgreet, h⟩ := after_bind_done_iff.mp h
    have henters := greet_entersLast n a _ _ hgreet
    cases greeted with
    | ok name =>
      obtain ⟨rfl, hr⟩ := after_done_iff.mp h
      cases hr
      rwa [List.append_nil]
    | error cause =>
      refine EntersLast.later ?_ henters.keeps_of_failure
      dsimp only at h
      split at h
      · obtain ⟨rfl, -⟩ := after_done_iff.mp h
        exact .keeps (List.forall_mem_nil _)
      · obtain ⟨known, rest, rfl, hrest⟩ := after_ask_done_iff.mp h
        refine EntersLast.cons ?_ trivial
        cases known with
        | true =>
          obtain ⟨rfl, -⟩ := after_done_iff.mp hrest
          exact .keeps (List.forall_mem_nil _)
        | false => exact ih _ _ hrest

theorem traverse_entersLast (n : Node) (peer : String) (a : Address) :
    (n.traverse peer a).EntersLast a := by
  cases a with
  | v4 e =>
    exact entersLast_lift (p := perform .drawId) (obeys_perform trivial) fun id =>
      traverseRounds_entersLast _
  | v6 =>
    intro log r h
    obtain ⟨rfl, -⟩ := after_done_iff.mp h
    exact .keeps (List.forall_mem_nil _)

theorem Reaching.entersLast {reached : Bool} (h : Reaching n peer a legs (some (.ok reached))) :
    EntersLast a legs.log reached := by
  generalize hresult : some (Except.ok reached) = result at h
  cases h with
  | greeting | soft | traversing => cases hresult
  | @greeted log name path =>
    cases hresult
    have hgreet : EntersLast a log true := greet_entersLast n a _ _ path
    simpa [Leg.log] using hgreet
  | traversed path _ last =>
    cases hresult
    have hgreet := (greet_entersLast n a _ _ path).keeps_of_failure
    simpa [Leg.log] using (traverse_entersLast n peer a _ _ last).later hgreet

/-! What the parts of a search leave. -/

theorem Itinerary.replay_append (b : PeerBook) (legs more : Itinerary) :
    b.replay (legs ++ more).log = (b.replay legs.log).replay more.log := by
  rw [log_append, PeerBook.replay_append]

/-- After earlier visits the last one sends the request to an address that replies. -/
def Itinerary.Answered (n : Node) (m r : Message) (a : Address) (earlier : List Visit)
    (legs : Itinerary) : Prop :=
  ∃ log, legs.visits = earlier ++ [⟨.send, a, log, some none⟩] ∧
    (n.exchange a m).run.After log (.done (.ok r))

/-- The last visit brings the reply, and the book has its address, but none that the request went to before
and no other that was visited. -/
structure Resolved (n : Node) (peer : String) (m r : Message) (legs : Itinerary) (after : PeerBook)
    (a : Address) (earlier : List Visit) : Prop where
  answered : legs.Answered n m r a earlier
  present : a ∈ after.known peer
  others : ∀ v ∈ earlier, v.approach = .send ∨ v.target ≠ a → v.target ∉ after.known peer

theorem Itinerary.Answered.later {more : Itinerary} {visits : List Visit} (h : more.Answered n m r a visits)
    (legs : Itinerary) : (legs ++ more).Answered n m r a (legs.visits ++ visits) := by
  obtain ⟨log, hlast, path⟩ := h
  exact ⟨log, by rw [visits_append, hlast, List.append_assoc], path⟩

theorem Itinerary.Answered.ne_of_send {visits : List Visit} (h : legs.Answered n m r a visits)
    (hnodup : (legs.targets .send).Nodup) {v : Visit} (hv : v ∈ visits) (hsend : v.approach = .send) :
    v.target ≠ a := by
  obtain ⟨log, hlast, -⟩ := h
  unfold targets at hnodup
  rw [hlast, List.filter_append, List.map_append, List.nodup_append] at hnodup
  have hmem : v.target ∈ (visits.filter (·.approach = .send)).map Visit.target :=
    List.mem_map_of_mem (List.mem_filter.mpr ⟨hv, decide_eq_true hsend⟩)
  exact hnodup.2.2 v.target hmem a List.mem_cons_self

theorem Sending.keeps (h : Sending n peer m a legs headway) (hstays : headway ≠ .through) :
    ∀ asked ∈ legs.log, asked.op.KeepsBook := by
  cases h with
  | going reach =>
    cases reach with
    | going path => simpa [Leg.log] using keeps_of_obeys (exchange_keeps n a m) path
  | replied path | soft path | dead path =>
    simpa [Leg.log] using keeps_of_obeys (exchange_keeps n a m) path
  | evicted => exact absurd rfl hstays

theorem Sending.replay (h : Sending n peer m a legs .through) (b : PeerBook) :
    b.replay legs.log = (b.evict peer a).2 := by
  cases h with
  | evicted path =>
    have hkeeps := keeps_of_obeys (exchange_keeps n a m) path
    simp [Leg.log, replay_of_keeps hkeeps, PeerBook.heed]

theorem InBook.mem_known (h : InBook n peer m known legs .through) {x : Address} :
    x ∈ (b.replay legs.log).known peer ↔ x ∈ b.known peer ∧ x ∉ known := by
  generalize hthrough : Headway.through = headway at h
  induction h generalizing b with
  | nil => simp
  | here _ stays => exact absurd hthrough.symm stays
  | next sending _ ih =>
    rw [Itinerary.replay_append, sending.replay, ih hthrough, PeerBook.mem_known_evict]
    simp only [true_and, List.mem_cons, not_or, and_assoc]

theorem InBook.known_eq_nil (h : InBook n peer m (b.known peer) legs .through) :
    (b.replay legs.log).known peer = [] :=
  List.eq_nil_iff_forall_not_mem.mpr fun _ hx => (h.mem_known.mp hx).2 (h.mem_known.mp hx).1

theorem InBook.known_subset (h : InBook n peer m known legs headway) :
    (b.replay legs.log).known peer ⊆ b.known peer := by
  induction h generalizing b with
  | nil => exact List.Subset.refl _
  | here sending stays =>
    rw [replay_of_keeps (sending.keeps stays)]
    exact List.Subset.refl _
  | next sending _ ih =>
    rw [Itinerary.replay_append, sending.replay]
    exact fun x hx => (PeerBook.mem_known_evict.mp (ih hx)).1

theorem InBook.resolved (h : InBook n peer m known legs (.settled (.ok r))) (hnodup : known.Nodup)
    (hsub : known ⊆ b.known peer) :
    ∃ a earlier, Resolved n peer m r legs (b.replay legs.log) a earlier := by
  generalize hheadway : Headway.settled (.ok r) = headway at h
  induction h generalizing b with
  | nil => cases hheadway
  | @here a rest _ _ sending stays =>
    have hkeeps := sending.keeps stays
    subst hheadway
    cases sending with
    | replied path =>
      refine ⟨a, [], ⟨⟨_, rfl, path⟩, ?_, List.forall_mem_nil _⟩⟩
      rw [replay_of_keeps hkeeps]
      exact hsub List.mem_cons_self
  | @next first rest _ more _ sending later ih =>
    obtain ⟨hfirst, hrest⟩ := List.nodup_cons.mp hnodup
    have hsub' : rest ⊆ (b.evict peer first).2.known peer := by
      intro x hx
      refine PeerBook.mem_known_evict.mpr ⟨hsub (List.mem_cons_of_mem _ hx), fun h => ?_⟩
      exact hfirst (h.2 ▸ hx)
    obtain ⟨a, earlier, hanswered, hpresent, hothers⟩ := ih hrest hsub' hheadway
    obtain ⟨log, outcome, hvisits⟩ := sending.visits
    rw [Itinerary.replay_append, sending.replay]
    refine ⟨a, _, hanswered.later _, hpresent, ?_⟩
    rw [hvisits]
    refine List.forall_mem_cons.mpr ⟨fun _ hmem => ?_, hothers⟩
    -- What was evicted is not entered again.
    exact (PeerBook.mem_known_evict.mp (later.known_subset hmem)).2 ⟨rfl, rfl⟩

theorem Trying.known_eq_nil (h : Trying n peer m a legs .through) (hempty : b.known peer = []) :
    (b.replay legs.log).known peer = [] := by
  cases h with
  | blocked reach => rw [replay_of_keeps reach.entersLast.keeps_of_failure, hempty]
  | sent reach sending =>
    rw [Itinerary.replay_append, sending.replay]
    refine List.eq_nil_iff_forall_not_mem.mpr fun x hx => ?_
    obtain ⟨hmem, hne⟩ := PeerBook.mem_known_evict.mp hx
    exact hne ⟨rfl, reach.entersLast.mem_known hempty hmem⟩

theorem Trying.resolved (h : Trying n peer m a legs (.settled (.ok r))) (hempty : b.known peer = []) :
    (∃ earlier, legs.Answered n m r a earlier) ∧ ∀ x, x ∈ (b.replay legs.log).known peer ↔ x = a := by
  generalize hheadway : Headway.settled (.ok r) = headway at h
  cases h with
  | reaching | soft | blocked | replied => cases hheadway
  | sent reach sending failed => exact absurd hheadway.symm (failed r)
  | @registered legs _ _ reach sending =>
    cases hheadway
    have hkeeps := sending.keeps nofun
    cases sending with
    | @replied log _ path =>
      have hanswered : Itinerary.Answered n m r a []
        [.visit ⟨.send, a, log, some none⟩, .own ⟨.registerPeer peer a, ()⟩] := ⟨log, rfl, path⟩
      refine ⟨⟨_, hanswered.later legs⟩, fun x => ?_⟩
      rw [Itinerary.replay_append, Itinerary.replay_append, replay_of_keeps hkeeps]
      refine PeerBook.mem_known_register.trans ⟨fun hx => ?_, fun hx => .inr ⟨rfl, hx⟩⟩
      exact hx.elim (reach.entersLast.mem_known hempty) And.right

theorem InDirectory.known_eq_nil (h : InDirectory n peer m tried found legs .through)
    (hempty : b.known peer = []) : (b.replay legs.log).known peer = [] := by
  generalize hthrough : Headway.through = headway at h
  induction h generalizing b with
  | nil => exact hempty
  | skip _ _ ih => exact ih hempty hthrough
  | here _ _ stays => exact absurd hthrough.symm stays
  | next _ trying _ ih =>
    rw [Itinerary.replay_append]
    exact ih (trying.known_eq_nil hempty) hthrough

theorem InDirectory.resolved (h : InDirectory n peer m tried found legs (.settled (.ok r)))
    (hempty : b.known peer = []) :
    ∃ a, (∃ earlier, legs.Answered n m r a earlier) ∧
      ∀ x, x ∈ (b.replay legs.log).known peer ↔ x = a := by
  generalize hheadway : Headway.settled (.ok r) = headway at h
  induction h generalizing b with
  | nil => cases hheadway
  | skip _ _ ih => exact ih hempty hheadway
  | @here _ _ a _ _ _ trying =>
    subst hheadway
    exact ⟨a, trying.resolved hempty⟩
  | next _ trying _ ih =>
    rw [Itinerary.replay_append]
    obtain ⟨a, ⟨earlier, hanswered⟩, honly⟩ := ih (trying.known_eq_nil hempty) hheadway
    exact ⟨a, ⟨_, hanswered.later _⟩, honly⟩

theorem Searching.resolved (h : Searching n peer m (b.known peer) legs (some (.ok r)))
    (hnodup : (b.known peer).Nodup) :
    ∃ a earlier, Resolved n peer m r legs (b.replay legs.log) a earlier := by
  have hsends := h.orderly.nodup hnodup
  generalize hresult : some (Except.ok r) = result at h
  cases h with
  | inBook | through | unlisted => cases hresult
  | settled first =>
    cases hresult
    exact first.resolved hnodup (List.Subset.refl _)
  | @listed legs more found headway first second =>
    cases headway with
    | going | through => cases hresult
    | settled =>
      cases hresult
      obtain ⟨a, ⟨earlier, hmore⟩, honly⟩ := second.resolved first.known_eq_nil
      have hmore : Itinerary.Answered n m r a earlier
        (.own ⟨.findAddresses peer, .ok found⟩ :: more) := hmore
      have hanswered := hmore.later legs
      rw [Itinerary.replay_append]
      refine ⟨a, _, hanswered, (honly a).mpr rfl, fun v hv hother hmem => ?_⟩
      have hne : v.target ≠ a := hother.elim (hanswered.ne_of_send hsends hv) id
      exact hne ((honly _).mp hmem)

/-! What a search fails with. -/

theorem Sending.soft_of_error {cause : RequestError}
    (h : Sending n peer m a legs (.settled (.error cause))) : cause.isHard = false := by
  cases h with
  | soft path soft => exact soft

theorem InBook.soft_of_error {cause : RequestError}
    (h : InBook n peer m known legs (.settled (.error cause))) : cause.isHard = false := by
  generalize hheadway : Headway.settled (.error cause) = headway at h
  induction h with
  | nil => cases hheadway
  | here sending => exact (hheadway ▸ sending).soft_of_error
  | next _ _ ih => exact ih hheadway

theorem Trying.soft_of_error {cause : RequestError}
    (h : Trying n peer m a legs (.settled (.error cause))) : cause.isHard = false := by
  cases h with
  | soft reach =>
    cases reach with
    | soft path soft => exact soft
  | sent _ sending => exact sending.soft_of_error

theorem InDirectory.soft_of_error {cause : RequestError}
    (h : InDirectory n peer m tried found legs (.settled (.error cause))) : cause.isHard = false := by
  generalize hheadway : Headway.settled (.error cause) = headway at h
  induction h with
  | nil => cases hheadway
  | skip _ _ ih => exact ih hheadway
  | here _ trying => exact (hheadway ▸ trying).soft_of_error
  | next _ _ _ ih => exact ih hheadway

theorem Searching.unreachable {p : String}
    (h : Searching n peer m (b.known peer) legs (some (.error (.unreachable p)))) :
    p = peer ∧ (b.replay legs.log).known peer = [] := by
  generalize hresult : some (Except.error (RequestError.unreachable p)) = result at h
  cases h with
  | inBook | through | unlisted => cases hresult
  | settled first =>
    cases hresult
    cases first.soft_of_error
  | @listed legs more found headway first second =>
    cases headway with
    | going => cases hresult
    | settled =>
      cases hresult
      cases second.soft_of_error
    | through =>
      cases hresult
      refine ⟨rfl, ?_⟩
      rw [Itinerary.replay_append]
      exact second.known_eq_nil first.known_eq_nil

end

theorem Proc.after_map {α β : Type} {p : Proc α} {f : α → β} {log : List Asked} {q : Proc β}
    (h : (p.bind fun a => .done (f a)).After log q) :
    ∃ p', p.After log p' ∧ q = p'.bind fun a => .done (f a) := by
  rcases after_bind h with ⟨op, next, hp, rfl⟩ | ⟨first, a, second, rfl, hp, hq⟩
  · exact ⟨_, hp, rfl⟩
  · obtain ⟨rfl, rfl⟩ := after_done_iff.mp hq
    rw [List.append_nil]
    exact ⟨_, hp, rfl⟩

namespace Engine

variable {n : Node} {e : Engine} {k : Nat} {peer : String} {events more : List Event}

/-- Nothing but the steps of a task changes the book. -/
def OwnsBook (n : Node) (k : Nat) (e : Engine) : List Event → Prop
  | [] => True
  | event :: events =>
    (Touches k event ∨ (e.step n event).1.book = e.book) ∧ OwnsBook n k (e.step n event).1 events

instance decidableOwnsBook (n : Node) (k : Nat) : ∀ e events, Decidable (OwnsBook n k e events)
  | _, [] => isTrue trivial
  | e, event :: events =>
    have := decidableOwnsBook n k (e.step n event).1 events
    inferInstanceAs (Decidable ((Touches k event ∨ (e.step n event).1.book = e.book) ∧ _))

theorem OwnsBook.earlier (h : e.OwnsBook n k (events ++ more)) : e.OwnsBook n k events := by
  induction events generalizing e with
  | nil => exact trivial
  | cons event events ih => exact ⟨h.1, ih h.2⟩

theorem book_perform {e' : Engine} {op : Op} {answer : op.Answer} {records : List Record}
    (h : e.perform n op = some (answer, e', records)) : e'.book = e.book.heed op := by
  obtain rfl := eq_afterOp_of_perform h
  cases op with
  | beginPunch a => exact book_beginPunch n e a
  | _ => rfl

theorem book_step_run (n : Node) (e : Engine) (k : Nat) :
    (e.step n (.run k)).1.book =
      e.book.replay ((e.turnOf n k (.run k)).map Turn.asked).toList := by
  cases htask : e.tasks.get? k with
  | none =>
    rw [step_run_of_none htask, turnOf_of_none htask]
    rfl
  | some task =>
    obtain ⟨duty, ticket, program⟩ := task
    cases program with
    | done o =>
      rw [step_run_of_done htask, turnOf_of_done htask, book_finish]
      rfl
    | ask op next =>
      cases hanswer : e.perform n op with
      | none =>
        rw [step_run_of_waits htask hanswer, turnOf_of_waits htask hanswer]
        rfl
      | some answer =>
        obtain ⟨answer, e', records⟩ := answer
        rw [step_run_of_answer htask hanswer, turnOf_of_answer htask hanswer]
        have hbook : e'.book = e.book.heed op := book_perform hanswer
        exact hbook

theorem book_abort (e : Engine) (k : Nat) : (e.abort k).book = e.book := by
  unfold abort
  split
  · rfl
  · split <;> rfl

theorem book_steps_of_ownsBook (h : e.OwnsBook n k events) :
    (e.steps n events).1.book = e.book.replay (e.dialogue n k events) := by
  induction events generalizing e with
  | nil => rfl
  | cons event events ih =>
    obtain ⟨hevent, hlater⟩ := h
    rw [dialogue_cons, steps_cons, PeerBook.replay_append]
    have hstep : (e.step n event).1.book =
        e.book.replay ((e.turnOf n k event).map Turn.asked).toList := by
      by_cases htouches : Touches k event
      · rcases eq_of_touches htouches with rfl | rfl
        · exact book_step_run n e k
        · exact book_abort e k
      · rw [turnOf_of_other htouches]
        exact hevent.resolve_left htouches
    rw [← hstep]
    exact ih hlater

theorem nodup_known_steps (h : ∀ peer, (e.book.known peer).Nodup) (events : List Event) :
    ∀ peer, ((e.steps n events).1.book.known peer).Nodup := by
  have hstep (e : Engine) (event : Event) (_ : True) (he : ∀ peer, (e.book.known peer).Nodup) :
      ∀ peer, ((e.step n event).1.book.known peer).Nodup := by
    have hchange := bookChange_step n e event
    generalize (e.step n event).1.book = b at hchange ⊢
    cases hchange with
    | keep => exact he
    | register | registerPeer => exact PeerBook.nodup_known_register he _ _
    | evict | evictPeer => exact PeerBook.nodup_known_evict he _ _
  exact steps_invariant hstep h fun _ _ => trivial

theorem known_of_first {known : List Address} {rest : List Asked} (h : e.OwnsBook n k events)
    (hlog : e.dialogue n k events = ⟨.knownAddresses peer, known⟩ :: rest) : known = e.book.known peer := by
  have hlog : e.dialogue n k events = [] ++ ⟨.knownAddresses peer, known⟩ :: rest := hlog
  obtain ⟨past, later, rfl, hpast, hasked⟩ := exists_of_dialogue_eq hlog
  obtain ⟨_, _, _, -, _, _, hanswer⟩ := asked?_eq_some_iff.mp hasked
  have hknown : (e.steps n past).1.book.known peer = known :=
    Option.some.inj (congrArg (Option.map Prod.fst) hanswer)
  rw [← hknown, book_steps_of_ownsBook h.earlier, hpast]
  rfl

/-- A search for a peer, up to any moment, while nothing else touches the book. It has an itinerary that is
orderly, and sends the request to no address twice. If it comes to a reply, the book has the address that
replied, and no other address that it has visited. If it reaches nobody, the book has no address of the peer. -/
theorem peer_resolution (n : Node) (network : Network) (directory : Directory) (disk : Disk)
    (before after : List Event) (peer : String) (m : Message) :
    let e := ((start n network directory disk).steps n before).1
    let k := e.nextTask
    let events := .call (.request peer m) :: after
    let last := e.steps n events
    e.OwnsBook n k events →
      ∃ legs : Itinerary, legs.log = e.dialogue n k events ∧ (∀ leg ∈ legs, leg.Made n peer m) ∧
        Orderly peer (e.book.known peer) legs ∧ (legs.targets .send).Nodup ∧
        (∀ r, .ended k (.reply r) ∈ last.2 →
          ∃ a earlier, Resolved n peer m r legs last.1.book a earlier) ∧
        ∀ p, .ended k (.failed (.unreachable p)) ∈ last.2 → p = peer ∧ last.1.book.known peer = [] := by
  intro e k events last howns
  have hnodup : (e.book.known peer).Nodup := 
    nodup_known_steps (e := start n network directory disk) (fun _ => List.nodup_nil) before peer
  have hbook : last.1.book = e.book.replay (e.dialogue n k events) := book_steps_of_ownsBook howns
  obtain ⟨q, hpath, hended, -⟩ := call_fate n e (.request peer m) after
  obtain ⟨search, hsearch, rfl⟩ := after_map hpath
  rcases itinerary_of_request hsearch with ⟨hlog, hgoes⟩ | ⟨known, legs, hlog, hsearching⟩
  · have hunended (o : Outcome) : .ended k o ∉ last.2 := by
      intro ho
      have hdone := hended o ho
      cases search with
      | ask op next => cases hdone
      | done r => cases hgoes
    refine ⟨[], hlog.symm, List.forall_mem_nil _, ?_, List.nodup_nil, ?_, ?_⟩
    · exact .book ⟨List.forall_mem_nil _, List.nil_prefix, Itinerary.asksDirectory_nil⟩
    · exact fun r hr => absurd hr (hunended _)
    · exact fun p hp => absurd hp (hunended _)
  · obtain rfl := known_of_first howns hlog
    have horderly : Orderly peer (e.book.known peer)
        (.own ⟨.knownAddresses peer, e.book.known peer⟩ :: legs) := hsearching.orderly.aside nofun
    have hbook : last.1.book = e.book.replay legs.log := by
      rw [hbook, hlog]
      rfl
    rw [hbook]
    refine ⟨.own ⟨.knownAddresses peer, e.book.known peer⟩ :: legs, hlog.symm,
      List.forall_mem_cons.mpr ⟨rfl, hsearching.made⟩, horderly, horderly.nodup hnodup,
      fun r hr => ?_, fun p hp => ?_⟩
    · have hdone := hended _ hr
      rcases search with (cause | reply) | ⟨op, next⟩ <;> cases hdone
      obtain ⟨a, earlier, hresolved⟩ := hsearching.resolved hnodup
      exact ⟨a, earlier, hresolved.answered, hresolved.present, hresolved.others⟩
    · have hdone := hended _ hp
      rcases search with (cause | reply) | ⟨op, next⟩ <;> cases hdone
      exact hsearching.unreachable

/-- The book has an old address of Bob, which is silent. The directory lists it once more, an IPv6 address, and
twice the address that Bob answers from. -/
theorem peer_resolution_of_stale_address :
    let old : Address := .v4 ⟨#v[10, 0, 0, 1], 1000⟩
    let new : Address := .v4 ⟨#v[10, 0, 0, 2], 1000⟩
    let six : Address := .v6 (Vector.replicate 8 0) 1000 0
    let hello : Message := ⟨Node.plain.ids 0, .helloReply, Hello.toBody ⟨0, "bob"⟩, none, by decide⟩
    let reply : Message := ⟨7, .rootReply, List.replicate 32 1, none, by decide⟩
    let m : Message := .empty 7 .root
    let directory := (PeerTable.empty.setAddresses "bob" [old, six, new, new]).directory
    let e := ((start .plain .ip4 directory ⟨⟨[]⟩⟩).steps .plain [.register "bob" old]).1
    let runs : List Event := List.replicate 12 (.run 0)
    let silence : List Event := .pass 100 100 :: runs
    let after := runs ++ silence ++ silence ++ .receive new hello.encode :: runs ++
      .receive new reply.encode :: runs
    let events := .call (.request "bob" m) :: after
    (e.OwnsBook .plain 0 events ∧ .ended 0 (.reply reply) ∈ (e.steps .plain events).2) ∧
      ∃ legs : Itinerary, legs.log = e.dialogue .plain 0 events ∧ Orderly "bob" [old] legs ∧
        (legs.targets .send).Nodup ∧
        ∃ a earlier, Resolved .plain "bob" m reply legs (e.steps .plain events).1.book a earlier := by
  intro old new six hello reply m directory e runs silence after events
  have howns : e.OwnsBook .plain 0 events := by decide +kernel
  have hended : .ended 0 (.reply reply) ∈ (e.steps .plain events).2 := by decide +kernel
  clear_value after
  obtain ⟨legs, hlog, -, horderly, hnodup, hresolved, -⟩ :=
    peer_resolution .plain .ip4 directory ⟨⟨[]⟩⟩ [.register "bob" old] after "bob" m howns
  exact ⟨⟨howns, hended⟩, legs, hlog, horderly, hnodup, hresolved reply hended⟩

end Engine
end TreeShare
