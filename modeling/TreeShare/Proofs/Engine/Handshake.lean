import TreeShare.Proofs.Engine.Agreement
import TreeShare.Proofs.Engine.Custody
import TreeShare.Proofs.Engine.Exchanges
import TreeShare.Proofs.Message.Hello

/-! Two engines that greet each other over a network that loses, repeats, delays and reorders datagrams. Main
statement: `hello_is_mutual`. -/
namespace TreeShare

open Proc

/-! What a node sends in its own name. -/

theorem Hello.peer_of_parse_toBody {h h' : Hello} (hparse : Hello.parse h.toBody = .ok h') :
    h'.peer = h.peer := by
  rw [Hello.parse_toBody] at hparse
  split at hparse <;> cases hparse
  rfl

theorem hello_body {id : UInt32} {t : MessageType} {name : String} {m : Message}
    (h : Message.hello id t name = .ok m) : m.body = Hello.toBody ⟨0, name⟩ :=
  (Message.hello_eq_ok_iff.mp h).2.2.2.1

/-- A message that a node may send to an address while it serves what came: a Hello in its own name; a
HelloReply in its own name, to who has just been registered for the Hello that is served; or no Hello at all. -/
inductive Candid (n : Node) (served : Option (Address × Message)) (log : List Asked) (target : Address)
    (m : Message) : Prop
  | greets (type : m.type = .hello) (body : m.body = Hello.toBody ⟨0, n.settings.peerName⟩)
  | answers {asked : Message} {h : Hello} (type : m.type = .helloReply)
      (body : m.body = Hello.toBody ⟨0, n.settings.peerName⟩) (source : served = some (target, asked))
      (request : Request.ofMessage? asked = some (.hello h))
      (registered : ⟨.registerPeer h.peer target, ()⟩ ∈ log)
  | other (type : m.type.isHello = false)

/-- Every datagram is a message that may be sent, if what the node has published is what it says it is. -/
def Op.Candid (n : Node) (served : Option (Address × Message)) (log : List Asked) : Op → Prop
  | transmit target datagram => Node.ServesHonestly log →
      ∃ m, datagram = m.encode ∧ TreeShare.Candid n served log target m
  | _ => True

variable {n : Node} {served : Option (Address × Message)} {log : List Asked} {target : Address}
  {m : Message}

theorem Candid.congr {m' : Message} (h : Candid n served log target m) (ht : m'.type = m.type)
    (hb : m'.body = m.body) : Candid n served log target m' := by
  cases h with
  | greets type body => exact .greets (ht.trans type) (hb.trans body)
  | answers type body source request registered =>
    exact .answers (ht.trans type) (hb.trans body) source request registered
  | other type => exact .other (ht ▸ type)

namespace Node

theorem candid_prepare (h : Candid n served log target m) : Candid n served log target (n.prepare m) :=
  h.congr (n.prepare_type m) (n.prepare_body m)

theorem candid_of_free (log : List Asked) (op : Op) (h : op.IsFree) : op.Candid n served log := by
  cases op <;> first | exact trivial | exact h.elim

theorem candid_of_lookup (log : List Asked) (op : Op) (h : op.IsLookup) :
    op.Candid n served log := by
  cases op <;> first | exact trivial | exact h.elim

theorem sendUpTo_candid (hm : ∀ log, Candid n served log target m) (attempts left : Nat) (t : Ticket)
    (log : List Asked) :
    (n.sendUpTo target m attempts left t).run.Obeys (Op.Candid n served) log := by
  induction left generalizing t log with
  | zero => exact ⟨trivial, fun _ => trivial⟩
  | succ left ih =>
    refine ⟨fun _ => ⟨m, rfl, hm log⟩, fun sent => ?_⟩
    cases sent with
    | false => exact ⟨trivial, fun _ => trivial⟩
    | true =>
      refine ⟨trivial, fun start => ⟨trivial, fun wait => ?_⟩⟩
      cases wait with
      | reply r => exact (validate_within n target m r).obeys candid_of_lookup
      | swept => exact ⟨trivial, fun u => ih u _⟩
      | silence => exact ih t _

theorem exchange_candid (hm : ∀ log, Candid n served log target m) (log : List Asked) :
    (n.exchange target m).run.Obeys (Op.Candid n served) log := by
  unfold exchange
  dsimp only
  cases n.settings.attempts with
  | error cause => exact ⟨trivial, fun answer => answer.elim⟩
  | ok attempts =>
    exact ⟨trivial, fun t =>
      sendUpTo_candid (fun log => candid_prepare (hm log)) attempts attempts t _⟩

theorem greet_candid (target : Address) (log : List Asked) :
    (n.greet target).run.Obeys (Op.Candid n served) log := by
  refine ⟨trivial, fun id => ?_⟩
  apply Attempt.obeys_bind (Attempt.obeys_ofExcept _)
  intro m _ hmade
  have hm := Except.mapError_eq_ok_iff.mp (Proc.done.inj (after_done_iff.mp hmade).2).symm
  apply Attempt.obeys_bind (exchange_candid (fun _ => .greets (hello_type hm) (hello_body hm)) _)
  intro reply _ _
  exact Attempt.obeys_bind (Attempt.obeys_ofExcept _) fun _ _ _ => ⟨trivial, fun _ => trivial⟩

theorem greetServers_candid (servers : List Address) (log : List Asked) :
    (n.greetServers servers).Obeys (Op.Candid n served) log := by
  induction servers generalizing log with
  | nil => exact trivial
  | cons a rest ih =>
    apply (greet_candid a log).bind
    intro r _ _
    cases r with
    | ok name => exact ⟨trivial, fun _ => ih _⟩
    | error cause =>
      dsimp only
      split
      · exact ⟨trivial, fun _ => ih _⟩
      · exact ih _

theorem keepAliveRound_candid (due : Nat) (log : List Asked) :
    (n.keepAliveRound due).Obeys (Op.Candid n served) log := by
  refine ⟨trivial, fun _ => ?_⟩
  exact (serverAddresses_obeys candid_of_free n _).bind fun servers _ _ => greetServers_candid servers _

theorem post_candid (hm : ServesHonestly log → Candid n served log target m) :
    (n.post target m).Obeys (Op.Candid n served) log :=
  ⟨fun hhonest => ⟨_, rfl, candid_prepare (hm hhonest)⟩, fun _ => trivial⟩

theorem relayTo_candid (initiator : Address) (target : Endpoint) :
    (n.relayTo initiator target).Obeys (Op.Candid n served) log := by
  cases initiator with
  | v4 e =>
    unfold relayTo
    dsimp only
    split
    · exact ⟨trivial, fun id => ⟨fun _ => ⟨_, rfl, .other rfl⟩, fun _ => trivial⟩⟩
    · exact trivial
  | v6 => exact trivial

theorem answer_candid {source : Address} {r : Request} (hr : Request.ofMessage? m = some r) :
    (n.answer source m.id r).Obeys (Op.Candid n (some (source, m))) log := by
  cases r with
  | noOp | error => exact trivial
  | hello h =>
    refine ⟨trivial, fun _ => ?_⟩
    dsimp only [Proc.bind]
    split
    · rename_i reply hreply
      exact post_candid fun _ => .answers (hello_type hreply) (hello_body hreply) rfl hr (by simp)
    · exact trivial
  | publicKey =>
    refine post_candid fun _ => .other ?_
    unfold keyReply
    split <;> rfl
  | root => exact ⟨trivial, fun _ => post_candid fun _ => .other rfl⟩
  | datum hash =>
    refine ⟨trivial, fun found => ?_⟩
    rcases found with _ | _ | reply
    · exact post_candid fun _ => .other rfl
    · exact post_candid fun _ => .other rfl
    · refine post_candid fun hhonest => .other ?_
      have hcarries := (hhonest hash m.id reply (by simp)).1
      rw [hcarries.type]
      rfl
  | relay target => exact relayTo_candid source target
  | punch initiator =>
    apply (isServer_obeys candid_of_free n source _).bind
    intro known _ _
    cases known with
    | true => exact obeys_perform trivial
    | false => exact trivial

theorem serve_candid (source : Address) (m : Message) (log : List Asked) :
    (n.serve source m).Obeys (Op.Candid n (some (source, m))) log := by
  unfold serve
  cases hr : Request.ofMessage? m with
  | none => exact trivial
  | some r =>
    apply ((checkSender_within n source m).obeys candid_of_lookup).bind
    intro verdict _ _
    cases verdict with
    | ok => exact answer_candid hr
    | error cause => exact trivial

theorem greet_inv {a : Address} {name : String} (h : (n.greet a).run.After log (.done (.ok name))) :
    ∃ asking m r, log = asking ++ [⟨.registerPeer name a, ()⟩] ∧ m.type = .hello ∧
      checkReply m r = .ok () ∧ (∃ check, Accepted n a m.id r check asking) ∧
      ∃ hello, Hello.parse r.body = .ok hello ∧ hello.peer = name := by
  obtain ⟨id, rest, rfl, hmaking⟩ := after_ask_done_iff.mp h
  obtain ⟨made, m, rest, rfl, hmade, hasking⟩ := Attempt.after_bind_ok hmaking
  obtain ⟨rfl, hm⟩ := after_done_iff.mp hmade
  have hm := Except.mapError_eq_ok_iff.mp (Proc.done.inj hm).symm
  obtain ⟨exchanged, r, rest, rfl, hexchange, hreading⟩ := Attempt.after_bind_ok hasking
  obtain ⟨read, hello, rest, rfl, hparsed, hlast⟩ := Attempt.after_bind_ok hreading
  obtain ⟨rfl, hp⟩ := after_done_iff.mp hparsed
  have hp := Except.mapError_eq_ok_iff.mp (Proc.done.inj hp).symm
  obtain ⟨⟨⟩, rest, rfl, hdone⟩ := after_ask_done_iff.mp hlast
  obtain ⟨rfl, hname⟩ := after_done_iff.mp hdone
  cases hname
  obtain ⟨check, haccepted⟩ := exchange_after hexchange
  exact ⟨⟨.drawId, id⟩ :: exchanged, m, r, by simp, hello_type hm, exchange_checked hexchange,
    ⟨check, haccepted.later [_]⟩, hello, hp, rfl⟩

end Node

def Event.OnlyGreets : Event → Prop
  | .call (.greet _) => True
  | .call _ => False
  | _ => True

instance : DecidablePred Event.OnlyGreets
  | .call (.send ..) | .call (.request ..) | .call (.download ..) | .call (.rootOf _)
  | .call (.publicKeyOf _) | .call (.traverse ..) => isFalse id
  | .call (.greet _) | .receive .. | .keepAlive | .abort _ | .run _ | .sweep | .pass .. | .network _
  | .directory _ | .disk _ | .exportPath _ | .register .. | .evict .. => isTrue trivial

namespace Engine

theorem candid_of_runs (n : Node) (errand : Errand) (p : Proc Outcome) (log : List Asked)
    (h : errand.Runs n p) :
    p.Obeys (fun log op => (∀ c, errand = .call c → Event.OnlyGreets (.call c)) →
      op.Candid n errand.served log) log := by
  cases h with
  | call c =>
    cases c with
    | greet a =>
      have hgreets : (n.run (.greet a)).Obeys (Op.Candid n none) log :=
        (Node.greet_candid a log).bind fun _ _ _ => trivial
      exact hgreets.imp fun _ _ hop _ => hop
    | _ => exact (n.run_grounded _).imp fun _ _ _ honly => (honly _ rfl).elim
  | serve source m => exact (obeys_silent (Node.serve_candid source m log)).imp fun _ _ hop _ => hop
  | punch a =>
    exact (obeys_silent (Node.punchRounds_obeys Node.greet_candid a _ log)).imp fun _ _ hop _ => hop
  | keepAlive due =>
    exact (obeys_silent (Node.keepAliveRound_candid due log)).imp fun _ _ hop _ => hop

theorem candid_of_asked {n : Node} {network : Network} {directory : Directory} {disk : Disk}
    {events : List Event} (honly : ∀ event ∈ events, event.OnlyGreets) {k : Nat} {target : Address}
    {datagram : Bytes} {sent : Bool} (hasked : ((start n network directory disk).steps n events).1.asked? n k =
      some ⟨.transmit target datagram, sent⟩) :
    ∃ errand m, Started n (start n network directory disk) events k errand ∧ datagram = m.encode ∧
      Candid n errand.served ((start n network directory disk).dialogue n k events) target m := by
  obtain ⟨errand, hstarted, hcandid⟩ :=
    obeys_at (candid_of_runs n) (idle_start n network directory disk) hasked
  have hhonest := servesHonestly_dialogue (n := n) (e := start n network directory disk)
    Publication.made_empty k events
  obtain ⟨m, hm, hcandid⟩ := hcandid (fun c hc => honly _ (called_of_started (hc ▸ hstarted))) hhonest
  exact ⟨errand, m, hstarted, hm, hcandid⟩

end Engine

/-! Two parties. -/

inductive Side where
  | left
  | right
deriving DecidableEq

def Side.other : Side → Side
  | left => right
  | right => left

instance {p : Side → Prop} [DecidablePred p] : Decidable (∀ side, p side) :=
  decidable_of_iff (p .left ∧ p .right)
    ⟨fun h side => Side.casesOn side h.1 h.2, fun h => ⟨h _, h _⟩⟩

/-- A node, the address that the others see it at, and what its engine starts with. -/
structure Party where
  node : Node
  address : Address
  network : Network
  directory : Directory
  disk : Disk

namespace Party

def start (p : Party) : Engine := .start p.node p.network p.directory p.disk

def after (p : Party) (events : List Event) : Engine := (p.start.steps p.node events).1

end Party

def eventsOf (side : Side) (history : List (Side × Event)) : List Event :=
  history.filterMap fun x => if x.1 = side then some x.2 else none

section

variable {side : Side} {history past later : List (Side × Event)} {event : Event}

theorem eventsOf_append (side : Side) (past later : List (Side × Event)) :
    eventsOf side (past ++ later) = eventsOf side past ++ eventsOf side later :=
  List.filterMap_append

@[simp] theorem eventsOf_cons_self (side : Side) (event : Event) (later : List (Side × Event)) :
    eventsOf side ((side, event) :: later) = event :: eventsOf side later := by
  simp [eventsOf]

theorem eventsOf_concat_self (side : Side) (past : List (Side × Event)) (event : Event) :
    eventsOf side (past ++ [(side, event)]) = eventsOf side past ++ [event] := by
  rw [eventsOf_append, eventsOf_cons_self]
  rfl

theorem mem_eventsOf : event ∈ eventsOf side history ↔ (side, event) ∈ history := by
  simp [eventsOf]

theorem exists_of_eventsOf_eq {before after : List Event}
    (h : eventsOf side history = before ++ event :: after) :
    ∃ past later, history = past ++ (side, event) :: later ∧ eventsOf side past = before := by
  obtain ⟨past, rest, rfl, hpast, hrest⟩ := List.filterMap_eq_append_iff.mp h
  obtain ⟨skipped, ⟨s, x⟩, later, rfl, hskipped, hx, -⟩ := List.filterMap_eq_cons_iff.mp hrest
  obtain ⟨hs, hevent⟩ := Option.ite_none_right_eq_some.mp hx
  obtain rfl : s = side := hs
  obtain rfl : x = event := Option.some.inj hevent
  refine ⟨past ++ skipped, later, by simp, ?_⟩
  have hnone : eventsOf s skipped = [] := List.filterMap_eq_nil_iff.mpr hskipped
  rw [eventsOf_append, hnone, List.append_nil]
  exact hpast

end

/-- A datagram that arrives from the address of a party was sent by it to where it arrives, at any time
before. -/
def Genuine (parties : Side → Party) (past : List (Side × Event)) : Side × Event → Prop
  | (side, .receive source datagram) => ∀ sender, (parties sender).address = source →
      .sent (parties side).address datagram ∈
        ((parties sender).start.steps (parties sender).node (eventsOf sender past)).2
  | _ => True

instance (parties : Side → Party) (past : List (Side × Event)) : DecidablePred (Genuine parties past)
  | (_, .receive ..) => by
    unfold Genuine
    infer_instance
  | (_, .call _) | (_, .keepAlive) | (_, .abort _) | (_, .run _) | (_, .sweep) | (_, .pass ..)
  | (_, .network _) | (_, .directory _) | (_, .disk _) | (_, .exportPath _) | (_, .register ..)
  | (_, .evict ..) =>
    isTrue trivial

/-- What the network does to datagrams: it may lose, repeat, delay and reorder them, but where they come from
is true. -/
def Unforged (parties : Side → Party) (history : List (Side × Event)) : Prop :=
  ∀ i (h : i < history.length), Genuine parties (history.take i) history[i]

instance (parties : Side → Party) (history : List (Side × Event)) :
    Decidable (Unforged parties history) := by
  unfold Unforged
  infer_instance

theorem Unforged.genuine {parties : Side → Party} {past later : List (Side × Event)} {x : Side × Event}
    (h : Unforged parties (past ++ x :: later)) : Genuine parties past x := by
  have hx := h past.length (by simp)
  simpa using hx

namespace Engine

theorem candid_of_heard {parties : Side → Party} {past later : List (Side × Event)}
    (hunforged : Unforged parties (past ++ later))
    (honly : ∀ x ∈ past ++ later, x.2.OnlyGreets) {listener speaker : Side} {m : Message}
    (hheard : Heard (eventsOf listener past) (parties speaker).address m) :
    let p := parties speaker
    ∃ earlier k rest errand, past = earlier ++ (speaker, .run k) :: rest ∧
      Started p.node p.start (eventsOf speaker earlier) k errand ∧
        Candid p.node errand.served (p.start.dialogue p.node k (eventsOf speaker earlier))
          (parties listener).address m := by
  intro p
  obtain ⟨datagram, hmem, hm⟩ := hheard
  obtain ⟨_, _, hreceived⟩ := List.append_of_mem hmem
  obtain ⟨before, after, rfl, -⟩ := exists_of_eventsOf_eq hreceived
  rw [List.append_assoc] at hunforged
  have hsent := hunforged.genuine speaker rfl
  obtain ⟨events, k, _, hevents, hasked⟩ := asked_of_sent hsent
  obtain ⟨earlier, rest, rfl, rfl⟩ := exists_of_eventsOf_eq hevents
  have hearlier : ∀ event ∈ eventsOf speaker earlier, event.OnlyGreets := by
    intro event hevent
    exact honly (speaker, event) (by simp [mem_eventsOf.mp hevent])
  obtain ⟨errand, sent, hstarted, rfl, hcandid⟩ := candid_of_asked hearlier hasked
  obtain ⟨-, ht, hb⟩ :=
    Message.ofDatagram_take (Message.ofDatagram_eq_ok_iff.mpr (heard?_eq_some_iff.mp hm))
  exact ⟨earlier, k, rest ++ (listener, .receive p.address sent.encode) :: after, errand,
    List.append_assoc .., hstarted, hcandid.congr ht hb⟩

/-- The step of a task with which its program comes to a result. -/
structure Returns (n : Node) (e : Engine) (k : Nat) (o : Outcome) : Prop where
  goesOn : (e.asked? n k).isSome
  result : ((e.step n (.run k)).1.tasks.get? k).map Task.program = some (.done o)

/-- A call that greets and comes to a name does so with the step that registers the name. Before, the reply to
its Hello was heard, which gave the name. -/
theorem greet_returns {n : Node} {e : Engine} (hfresh : Fresh e) {before after : List Event} {a : Address}
    {name : String} {k : Nat} (hk : (e.steps n before).1.nextTask = k)
    (hended : .ended k (.name name) ∈ ((e.steps n before).1.steps n (.call (.greet a) :: after)).2) :
    ∃ past later, before ++ .call (.greet a) :: after = past ++ .run k :: later ∧
      (e.steps n past).1.asked? n k = some ⟨.registerPeer name a, ()⟩ ∧
      Returns n (e.steps n past).1 k (.name name) ∧
      ∃ r hello, Heard past a r ∧ r.type = .helloReply ∧ Hello.parse r.body = .ok hello ∧
        hello.peer = name := by
  subst hk
  have hpath := after_of_call_ended hended
  obtain ⟨path, outcome, rest, hlog, hgreet, hdone⟩ := Proc.after_bind_done_iff.mp hpath
  obtain ⟨rfl, ho⟩ := Proc.after_done_iff.mp hdone
  cases outcome with
  | error cause => cases ho
  | ok found =>
    cases ho
    obtain ⟨asking, m, r, rfl, htype, hchecked, ⟨check, haccepted⟩, hello, hparsed, hname⟩ :=
      Node.greet_inv hgreet
    rw [List.append_nil] at hlog
    obtain ⟨past, later, hrun, hasking, hasked⟩ := exists_of_dialogue_eq hlog
    have hsteps : (e.steps n (before ++ past)).1 = ((e.steps n before).1.steps n past).1 := by
      rw [steps_append]
    refine ⟨before ++ past, later, by rw [hrun, List.append_assoc], ?_⟩
    rw [hsteps]
    refine ⟨hasked, ⟨by rw [hasked]; rfl, ?_⟩, r, hello, ?_, ?_, hparsed, hname⟩
    · obtain ⟨duty, ticket, next, htask, e', records, hanswer⟩ := asked?_eq_some_iff.mp hasked
      have hbefore : (n.run (.greet a)).After asking (.ask (.registerPeer name a) next) := by
        cases past with
        | nil => cases hrun
        | cons event past =>
          obtain ⟨rfl, -⟩ := List.cons.inj hrun
          exact hasking ▸ after_of_call htask
      rw [step_run_of_answer htask hanswer, get?_setTask, if_pos rfl]
      have hnext := hbefore.append (.ask (.start (next ())))
      rw [hlog] at hpath
      exact congrArg some (hnext.unique hpath)
    · apply heard_of_accepted hfresh haccepted
      rw [dialogue_append, hasking]
      exact List.subset_append_right _ _
    · exact Node.type_of_checkReply htype hchecked

theorem contains_of_asked {n : Node} {e : Engine} {k : Nat} {peer : String} {a : Address}
    (hasked : e.asked? n k = some ⟨.registerPeer peer a, ()⟩) :
    (e.step n (.run k)).1.book.contains peer a = true := by
  obtain ⟨duty, ticket, next, htask, e', records, hanswer⟩ := asked?_eq_some_iff.mp hasked
  rw [step_run_of_answer htask hanswer]
  cases hanswer
  exact decide_eq_true (PeerBook.mem_known_register.mpr (.inr ⟨rfl, rfl⟩))

/-- Two engines greet, are greeted and greet the server, and nothing else is asked of them. If a greeting of
one to the address of the other comes to a name, this is the other's name; when it does, the book of the one
has the name with this address; and before, the other registered the one under its name at its address. -/
theorem hello_is_mutual (parties : Side → Party) (side : Side) (before after : List (Side × Event))
    {name : String} :
    let self := parties side
    let peer := parties side.other
    let history := before ++ (side, .call (.greet peer.address)) :: after
    let e := self.after (eventsOf side before)
    Unforged parties history → (∀ x ∈ history, x.2.OnlyGreets) →
      .ended e.nextTask (.name name) ∈
        (e.steps self.node (.call (.greet peer.address) :: eventsOf side after)).2 →
      name = peer.node.settings.peerName ∧
      ∃ past later, history = past ++ (side, .run e.nextTask) :: later ∧
        Returns self.node (self.after (eventsOf side past)) e.nextTask (.name name) ∧
        (self.after (eventsOf side (past ++ [(side, .run e.nextTask)]))).book.contains name
          peer.address = true ∧
        ∃ earlier k rest, past = earlier ++ (side.other, .run k) :: rest ∧
          (peer.after (eventsOf side.other earlier)).asked? peer.node k =
            some ⟨.registerPeer self.node.settings.peerName self.address, ()⟩ := by
  intro self peer history e hunforged honly hended
  obtain ⟨_, _, hsplit, hasked, hreturns, r, hello, hheard, htype, hparsed, hname⟩ :=
    greet_returns (fresh_start self.node self.network self.directory self.disk) rfl hended
  have hevents : eventsOf side history =
      eventsOf side before ++ .call (.greet peer.address) :: eventsOf side after := by
    simp [history, eventsOf_append]
  obtain ⟨past, later, hhistory, rfl⟩ := exists_of_eventsOf_eq (hevents.trans hsplit)
  have hbook : (self.after (eventsOf side (past ++ [(side, .run e.nextTask)]))).book.contains name
      peer.address = true := by
    rw [eventsOf_concat_self]
    unfold Party.after
    rw [steps_concat]
    exact contains_of_asked hasked
  rw [hhistory] at hunforged honly
  obtain ⟨earlier, k, rest, errand, rfl, hstarted, hcandid⟩ :=
    candid_of_heard hunforged honly hheard
  -- Only who serves a Hello sends a HelloReply.
  cases hcandid with
  | greets type => cases htype.symm.trans type
  | other type =>
    rw [htype] at type
    contradiction
  | @answers greeting h _ body source request registered =>
    obtain rfl : errand = .serve self.address greeting := by
      cases errand <;> cases source
      rfl
    obtain ⟨hgreeting, hgiven⟩ := Node.hello_of_request request
    rw [List.append_assoc] at hunforged honly
    obtain ⟨_, _, _, _, -, -, hcandid⟩ := candid_of_heard hunforged honly (heard_of_started hstarted)
    have hown : h.peer = self.node.settings.peerName := by
      cases hcandid with
      | greets _ body => exact Hello.peer_of_parse_toBody (body ▸ hgiven)
      | answers type => cases hgreeting.symm.trans type
      | other type =>
        rw [hgreeting] at type
        contradiction
    obtain ⟨_, _, hlog⟩ := List.append_of_mem registered
    obtain ⟨_, _, hevents, -, hregisters⟩ := exists_of_dialogue_eq hlog
    obtain ⟨first, second, rfl, rfl⟩ := exists_of_eventsOf_eq hevents
    exact ⟨hname ▸ Hello.peer_of_parse_toBody (body ▸ hparsed), _, later, hhistory, hreturns, hbook,
      first, k, second ++ (side.other, .run k) :: rest, List.append_assoc .., hown ▸ hregisters⟩

/-- Alice greets Bob. Her Hello reaches him twice, and the second HelloReply never reaches her. -/
theorem hello_is_mutual_of_alice_and_bob :
    let bob : Node := { Node.plain with settings := { Node.plain.settings with peerName := "bob" } }
    let parties : Side → Party
      | .left => ⟨.plain, .v4 ⟨#v[10, 0, 0, 1], 1000⟩, .ip4, PeerTable.empty.directory, ⟨⟨[]⟩⟩⟩
      | .right => ⟨bob, .v4 ⟨#v[10, 0, 0, 2], 2000⟩, .ip4, PeerTable.empty.directory, ⟨⟨[]⟩⟩⟩
    let hello : Message := ⟨Node.plain.ids 0, .hello, Hello.toBody ⟨0, "alice"⟩, none, by decide⟩
    let reply : Message := ⟨Node.plain.ids 0, .helloReply, Hello.toBody ⟨0, "bob"⟩, none, by decide⟩
    let greets : Event := .receive (parties .left).address hello.encode
    let after : List (Side × Event) := List.replicate 4 (.left, .run 0) ++
      (.right, greets) :: (.right, greets) :: (List.replicate 5 (.right, .run 0) ++
        List.replicate 5 (.right, .run 1) ++
          (.left, .receive (parties .right).address reply.encode) :: List.replicate 5 (.left, .run 0))
    let history := (.left, .call (.greet (parties .right).address)) :: after
    (Unforged parties history ∧ (∀ x ∈ history, x.2.OnlyGreets) ∧
      .ended 0 (.name "bob") ∈ ((parties .left).start.steps .plain (eventsOf .left history)).2) ∧
    "bob" = bob.settings.peerName ∧
      ∃ past later, history = past ++ (.left, .run 0) :: later ∧
        Returns .plain ((parties .left).after (eventsOf .left past)) 0 (.name "bob") ∧
        ((parties .left).after (eventsOf .left (past ++ [(.left, .run 0)]))).book.contains "bob"
          (parties .right).address = true ∧
        ∃ earlier k rest, past = earlier ++ (.right, .run k) :: rest ∧
          ((parties .right).after (eventsOf .right earlier)).asked? bob k =
            some ⟨.registerPeer "alice" (parties .left).address, ()⟩ := by
  intro bob parties hello reply greets after history
  have hunforged : Unforged parties history := by decide +kernel
  have honly : ∀ x ∈ history, x.2.OnlyGreets := by decide +kernel
  have hended : .ended 0 (.name "bob") ∈
      ((parties .left).start.steps .plain (eventsOf .left history)).2 := by
    decide +kernel
  exact ⟨⟨hunforged, honly, hended⟩, hello_is_mutual parties .left [] after hunforged honly hended⟩

end Engine
end TreeShare
