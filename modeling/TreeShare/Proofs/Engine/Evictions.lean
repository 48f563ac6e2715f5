import TreeShare.Proofs.Engine.Exchanges
import TreeShare.Proofs.Engine.Patience
import TreeShare.Proofs.Engine.Standing

/-! Why an address leaves the book. Main statement: `eviction`. -/
namespace TreeShare

open Proc

/-- What an errand sends on behalf of a peer. -/
inductive Errand.Sends (n : Node) : Errand → String → Message → Prop
  | request (peer : String) (m : Message) : Sends n (.call (.request peer m)) peer m
  | download (peer : String) (hash : Digest) (id : UInt32) :
      Sends n (.call (.download peer hash)) peer (.ofDigest id .getDatum hash)
  | rootOf (peer : String) (own : Digest) (id : UInt32) :
      Sends n (.call (.rootOf peer)) peer (.ofDigest id .root own)
  | publicKeyOf (peer : String) (id : UInt32) :
      Sends n (.call (.publicKeyOf peer)) peer (.empty id .publicKey)
  | greet {id : UInt32} {m : Message} (hello : Message.hello id .hello n.settings.peerName = .ok m) :
      Sends n .keepAlive n.settings.serverName m

/-- A request to an address has just failed hard, and it was sent there on behalf of a peer. -/
def FailedFor (n : Node) (sends : String → Message → Prop) (log : List Asked) (peer : String)
    (a : Address) : Prop :=
  ∃ earlier failed m cause, log = earlier ++ failed ∧ sends peer m ∧
    (n.exchange a m).run.After failed (.done (.error cause)) ∧ cause.isHard = true

/-- An address is evicted only when a request to it has just failed hard. -/
def Op.Evicts (n : Node) (sends : String → Message → Prop) (log : List Asked) : Op → Prop
  | evictPeer peer a => FailedFor n sends log peer a
  | _ => True

namespace Node

variable {n : Node} {sends : String → Message → Prop} {log : List Asked}

theorem evicts_of_plain (log : List Asked) (op : Op) (h : op.Plain log) : op.Evicts n sends log := by
  cases op <;> first | exact trivial | exact h.elim

theorem evicts_of_free (log : List Asked) (op : Op) (h : op.IsFree) : op.Evicts n sends log := by
  cases op <;> first | exact trivial | exact h.elim

theorem failedFor_last {peer : String} {a : Address} {m : Message} (hm : sends peer m)
    {failed : List Asked} {cause : RequestError}
    (h : (n.exchange a m).run.After failed (.done (.error cause))) (hhard : cause.isHard = true)
    (earlier : List Asked) : FailedFor n sends (earlier ++ failed) peer a :=
  ⟨earlier, failed, m, cause, rfl, hm, h, hhard⟩

theorem greet_evicts (a : Address) (log : List Asked) :
    (n.greet a).run.Obeys (Op.Evicts n sends) log := by
  refine ⟨trivial, fun id => ?_⟩
  apply Attempt.obeys_bind (Attempt.obeys_ofExcept _)
  intro m _ _
  apply Attempt.obeys_bind ((exchange_plain n a m).imp evicts_of_plain)
  intro reply _ _
  exact Attempt.obeys_bind (Attempt.obeys_ofExcept _) fun _ _ _ => ⟨trivial, fun _ => trivial⟩

theorem sendToKnown_evicts {peer : String} {m : Message} (hm : sends peer m) (known : List Address)
    (log : List Asked) : (n.sendToKnown peer m known).run.Obeys (Op.Evicts n sends) log := by
  induction known generalizing log with
  | nil => exact trivial
  | cons a rest ih =>
    apply Attempt.obeys_bind (Attempt.obeys_outcome ((exchange_plain n a m).imp evicts_of_plain))
    intro r more hmore
    have hexchange := Attempt.after_outcome hmore
    cases r with
    | ok reply => exact trivial
    | error cause =>
      dsimp only
      split
      · rename_i hhard
        exact ⟨failedFor_last hm hexchange hhard log, fun _ => ih _⟩
      · exact trivial

theorem sendToFresh_evicts {peer : String} {m : Message} (hm : sends peer m)
    (tried fresh : List Address) (log : List Asked) :
    (n.sendToFresh peer m tried fresh).run.Obeys (Op.Evicts n sends) log := by
  induction fresh generalizing tried log with
  | nil => exact trivial
  | cons a rest ih =>
    unfold sendToFresh
    split
    · exact ih tried log
    · apply Attempt.obeys_bind (reach_obeys evicts_of_free greet_evicts (fun _ _ _ _ => trivial) peer a log)
      intro reached first _
      split
      · exact ih (a :: tried) _
      · apply Attempt.obeys_bind (Attempt.obeys_outcome ((exchange_plain n a m).imp evicts_of_plain))
        intro r more hmore
        have hexchange := Attempt.after_outcome hmore
        cases r with
        | ok reply => exact ⟨trivial, fun _ => trivial⟩
        | error cause =>
          dsimp only
          split
          · rename_i hhard
            exact ⟨failedFor_last hm hexchange hhard _, fun _ => ih (a :: tried) _⟩
          · exact trivial

theorem request_evicts {peer : String} {m : Message} (hm : sends peer m) (log : List Asked) :
    (n.request peer m).run.Obeys (Op.Evicts n sends) log := by
  refine ⟨trivial, fun known => ?_⟩
  apply Attempt.obeys_bind (sendToKnown_evicts hm known _)
  intro reply _ _
  cases reply with
  | some reply => exact trivial
  | none =>
    refine ⟨trivial, fun found => ?_⟩
    cases found with
    | ok fresh => exact sendToFresh_evicts hm known fresh _
    | error cause => exact trivial

theorem run_evicts (c : Call) (log : List Asked) :
    (n.run c).Obeys (Op.Evicts n (Errand.Sends n (.call c))) log := by
  cases c with
  | greet target => exact (greet_evicts target log).bind fun _ _ _ => trivial
  | send target m => exact ((exchange_plain n target m).imp evicts_of_plain).bind fun _ _ _ => trivial
  | request peer m => exact (request_evicts (.request peer m) log).bind fun _ _ _ => trivial
  | traverse peer target =>
    exact (traverse_obeys evicts_of_free greet_evicts (fun _ _ _ _ => trivial) peer target log).bind
      fun _ _ _ => trivial
  | download peer hash =>
    have hdownload : (n.download peer hash).run.Obeys
        (Op.Evicts n (Errand.Sends n (.call (.download peer hash)))) log := by
      refine ⟨trivial, fun id => ?_⟩
      apply Attempt.obeys_bind (request_evicts (.download peer hash id) _)
      intro reply _ _
      cases reply.type <;> exact trivial
    exact hdownload.bind fun _ _ _ => trivial
  | rootOf peer =>
    have hroot : (n.rootOf peer).run.Obeys (Op.Evicts n (Errand.Sends n (.call (.rootOf peer)))) log := by
      refine ⟨trivial, fun own => ⟨trivial, fun id => ?_⟩⟩
      apply Attempt.obeys_bind (Attempt.obeys_outcome (request_evicts (.rootOf peer own id) _))
      intro asked _ _
      cases asked.bind statedRoot with
      | ok h => exact trivial
      | error cause =>
        refine ⟨trivial, fun found => ?_⟩
        rcases found with _ | _ | h <;> exact trivial
    exact hroot.bind fun _ _ _ => trivial
  | publicKeyOf peer =>
    have hkey : (n.publicKeyOf peer).run.Obeys
        (Op.Evicts n (Errand.Sends n (.call (.publicKeyOf peer)))) log := by
      refine ⟨trivial, fun id => ?_⟩
      exact Attempt.obeys_bind (request_evicts (.publicKeyOf peer id) _) fun _ _ _ => trivial
    exact hkey.bind fun _ _ _ => trivial

theorem serve_evicts (source : Address) (m : Message) (log : List Asked) :
    (n.serve source m).Obeys (Op.Evicts n sends) log := by
  unfold serve
  cases Request.ofMessage? m with
  | none => exact trivial
  | some r =>
    apply ((checkSender_plain n source m).imp evicts_of_plain).bind
    intro verdict _ _
    cases verdict with
    | error cause => exact trivial
    | ok =>
      cases r with
      | noOp | error => exact trivial
      | hello h =>
        refine ⟨trivial, fun _ => ?_⟩
        dsimp only [Proc.bind]
        split
        · exact (post_plain n source _).imp evicts_of_plain
        · exact trivial
      | publicKey => exact (post_plain n source _).imp evicts_of_plain
      | root => exact ⟨trivial, fun _ => (post_plain n source _).imp evicts_of_plain⟩
      | datum hash =>
        refine ⟨trivial, fun served => ?_⟩
        rcases served with _ | _ | reply <;> exact (post_plain n source _).imp evicts_of_plain
      | relay target => exact (relayTo_plain n source target).imp evicts_of_plain
      | punch initiator =>
        apply (isServer_obeys evicts_of_free n source _).bind
        intro known _ _
        cases known with
        | true => exact obeys_perform trivial
        | false => exact trivial

theorem greet_failed {a : Address} {cause : RequestError}
    (h : (n.greet a).run.After log (.done (.error cause))) (hhard : cause.isHard = true) :
    ∃ id m failed, log = ⟨.drawId, id⟩ :: failed ∧
      Message.hello id .hello n.settings.peerName = .ok m ∧
      (n.exchange a m).run.After failed (.done (.error cause)) := by
  obtain ⟨id, rest, rfl, hrest⟩ := after_ask_done_iff.mp h
  rcases Attempt.after_bind_error hrest with hmade | ⟨made, m, asking, rfl, hmade, hasking⟩
  · have hcause := Proc.done.inj (after_done_iff.mp hmade).2
    cases hm : Message.hello id .hello n.settings.peerName with
    | ok m =>
      rw [hm] at hcause
      cases hcause
    | error e =>
      rw [hm] at hcause
      cases hcause
      contradiction
  · obtain ⟨rfl, hm⟩ := after_done_iff.mp hmade
    have hm := Except.mapError_eq_ok_iff.mp (Proc.done.inj hm).symm
    rcases Attempt.after_bind_error hasking with hexchange | ⟨first, reply, second, rfl, -, hread⟩
    · exact ⟨id, m, asking, rfl, hm, hexchange⟩
    · rcases Attempt.after_bind_error hread with hparsed | ⟨parsed, hello, last, rfl, -, hlast⟩
      · have hcause := Proc.done.inj (after_done_iff.mp hparsed).2
        cases hp : Hello.parse reply.body with
        | ok hello =>
          rw [hp] at hcause
          cases hcause
        | error e =>
          rw [hp] at hcause
          cases hcause
          contradiction
      · obtain ⟨_, later, rfl, hlater⟩ := after_ask_done_iff.mp hlast
        cases (after_done_iff.mp hlater).2

theorem greetServers_evicts (servers : List Address) (log : List Asked) :
    (n.greetServers servers).Obeys (Op.Evicts n (Errand.Sends n .keepAlive)) log := by
  induction servers generalizing log with
  | nil => exact trivial
  | cons a rest ih =>
    apply (greet_evicts a log).bind
    intro r more hmore
    cases r with
    | ok name => exact ⟨trivial, fun _ => ih _⟩
    | error cause =>
      dsimp only
      split
      · rename_i hhard
        obtain ⟨id, m, failed, rfl, hm, hexchange⟩ := greet_failed hmore hhard
        refine ⟨?_, fun _ => ih _⟩
        have hfailed := failedFor_last (Errand.Sends.greet hm) hexchange hhard (log ++ [⟨.drawId, id⟩])
        rwa [List.append_assoc] at hfailed
      · exact ih _

theorem keepAliveRound_evicts (due : Nat) (log : List Asked) :
    (n.keepAliveRound due).Obeys (Op.Evicts n (Errand.Sends n .keepAlive)) log := by
  refine ⟨trivial, fun _ => ?_⟩
  exact (serverAddresses_obeys evicts_of_free n _).bind fun servers _ _ => greetServers_evicts servers _

end Node

/-! What leaves the book. -/

namespace PeerBook

variable {b : PeerBook} {peer : String}

theorem knows_iff (b : PeerBook) (peer : String) : b.knows peer ↔ (b.addresses? peer).isSome := by
  unfold knows addresses? Table.contains
  rfl

theorem knows_register (h : b.knows peer) (p : String) (a : Address) :
    (b.register p a).2.knows peer := by
  rw [knows_iff] at h ⊢
  rw [addresses?_register]
  split
  · rfl
  · exact h

theorem knows_evict (h : b.knows peer) (p : String) (a : Address) : (b.evict p a).2.knows peer := by
  rw [knows_iff] at h ⊢
  rw [addresses?_evict]
  split
  · rfl
  · exact h

end PeerBook

namespace Engine

theorem evicts_of_runs {n : Node} (errand : Errand) (p : Proc Outcome) (log : List Asked)
    (h : errand.Runs n p) : p.Obeys (Op.Evicts n (errand.Sends n)) log := by
  cases h with
  | call c => exact Node.run_evicts c log
  | serve source m => exact obeys_silent (Node.serve_evicts source m log)
  | punch a => exact obeys_silent (Node.punchRounds_obeys Node.greet_evicts a _ log)
  | keepAlive due => exact obeys_silent (Node.keepAliveRound_evicts due log)

variable {n : Node} {e : Engine} {events past : List Event} {k : Nat} {peer : String} {a : Address}
  {m : Message}

theorem book_finish (n : Node) (e : Engine) (k : Nat) (duty : Duty) (o : Outcome) :
    (e.finish n k duty o).1.book = e.book := by
  cases duty <;> rfl

theorem book_beginPunch (n : Node) (e : Engine) (a : Address) :
    (e.beginPunch n a).book = e.book := by
  unfold Engine.beginPunch
  split <;> rfl

inductive BookChange (n : Node) (e : Engine) (event : Event) : PeerBook → Prop
  | keep : BookChange n e event e.book
  | register {peer : String} {a : Address} (outside : event = .register peer a) :
      BookChange n e event (e.book.register peer a).2
  | registerPeer {k : Nat} {peer : String} {a : Address} (run : event = .run k)
      (asked : e.asked? n k = some ⟨.registerPeer peer a, ()⟩) :
      BookChange n e event (e.book.register peer a).2
  | evict {peer : String} {a : Address} (outside : event = .evict peer a) :
      BookChange n e event (e.book.evict peer a).2
  | evictPeer {k : Nat} {peer : String} {a : Address} (run : event = .run k)
      (asked : e.asked? n k = some ⟨.evictPeer peer a, ()⟩) :
      BookChange n e event (e.book.evict peer a).2

theorem bookChange_step (n : Node) (e : Engine) (event : Event) :
    BookChange n e event (e.step n event).1.book := by
  have hchange := change_step n e event
  generalize e.step n event = after at hchange ⊢
  cases hchange with
  | finish =>
    rw [book_finish]
    exact .keep
  | @answer k duty ticket op next answer e' records htask hanswer =>
    have hasked := asked?_of_perform htask hanswer
    obtain rfl := eq_afterOp_of_perform hanswer
    change BookChange n e (.run k) (e.afterOp n op).book
    cases op with
    | registerPeer peer a => exact .registerPeer rfl hasked
    | evictPeer peer a => exact .evictPeer rfl hasked
    | beginPunch a => exact (book_beginPunch n e a).symm ▸ .keep
    | _ => exact .keep
  | register peer a => exact .register rfl
  | evict peer a => exact .evict rfl
  | _ => exact .keep

theorem knows_step (h : e.book.knows peer) (event : Event) : (e.step n event).1.book.knows peer := by
  have hchange := bookChange_step n e event
  generalize (e.step n event).1.book = b at hchange ⊢
  cases hchange with
  | keep => exact h
  | register | registerPeer => exact PeerBook.knows_register h _ _
  | evict => exact PeerBook.knows_evict h _ _
  | evictPeer => exact PeerBook.knows_evict h _ _

theorem knows_steps (h : e.book.knows peer) (events : List Event) :
    (e.steps n events).1.book.knows peer := by
  have hstep (e : Engine) (event : Event) (_ : True) (he : e.book.knows peer = true) :
      (e.step n event).1.book.knows peer = true := knows_step he event
  exact steps_invariant hstep h fun _ _ => trivial

theorem asked_of_evicted {event : Event} (hbefore : a ∈ e.book.known peer)
    (hafter : a ∉ (e.step n event).1.book.known peer) :
    event = .evict peer a ∨ ∃ k, event = .run k ∧ e.asked? n k = some ⟨.evictPeer peer a, ()⟩ := by
  have hchange := bookChange_step n e event
  generalize (e.step n event).1.book = b at hchange hafter
  cases hchange with
  | keep => exact absurd hbefore hafter
  | register | registerPeer =>
    exact absurd (PeerBook.mem_known_register.mpr (.inl hbefore)) hafter
  | evict outside =>
    rw [PeerBook.mem_known_evict, and_iff_right hbefore, not_not] at hafter
    obtain ⟨rfl, rfl⟩ := hafter
    exact .inl outside
  | evictPeer run asked =>
    rw [PeerBook.mem_known_evict, and_iff_right hbefore, not_not] at hafter
    obtain ⟨rfl, rfl⟩ := hafter
    exact .inr ⟨_, run, asked⟩

end Engine

/-! Where a request waits. -/

def Op.AwaitsOwn (key : ReplyKey) (log : List Asked) : Op → Prop
  | awaitReply t _ => standing log = some (key, t)
  | _ => True

namespace Node

variable {n : Node} {a : Address} {m : Message} {log : List Asked}

theorem sendUpTo_awaitsOwn (attempts left : Nat) {t : Ticket}
    (hstands : standing log = some ((a, m.id), t)) :
    (n.sendUpTo a m attempts left t).run.Obeys (Op.AwaitsOwn (a, m.id)) log := by
  induction left generalizing t log with
  | zero => exact ⟨trivial, fun _ => trivial⟩
  | succ left ih =>
    have hkept {log : List Asked} (asked : Asked) (h : standing log = some ((a, m.id), t))
        (hasked : asked.stand (standing log) = standing log) :
        standing (log ++ [asked]) = some ((a, m.id), t) := by
      rw [standing_concat, hasked, h]
    refine ⟨trivial, fun sent => ?_⟩
    have hsent := hkept ⟨.transmit a m.encode, sent⟩ hstands rfl
    cases sent with
    | false => exact ⟨trivial, fun _ => trivial⟩
    | true =>
      refine ⟨trivial, fun start => ?_⟩
      have htimed := hkept ⟨.now, start⟩ hsent rfl
      refine ⟨htimed, fun wait => ?_⟩
      cases wait with
      | reply r =>
        refine (validate_within n a m r).obeys fun log op hop => ?_
        cases op <;> first | exact trivial | exact hop.elim
      | swept =>
        refine ⟨trivial, fun u => ih ?_⟩
        rw [standing_concat]
        rfl
      | silence => exact ih (hkept _ htimed rfl)

theorem exchange_awaitsOwn (n : Node) (a : Address) (m : Message) (log : List Asked) :
    (n.exchange a m).run.Obeys (Op.AwaitsOwn (a, m.id)) log := by
  unfold exchange
  dsimp only
  cases n.settings.attempts with
  | error cause => exact ⟨trivial, fun answer => answer.elim⟩
  | ok attempts =>
    refine ⟨trivial, fun t => ?_⟩
    rw [← n.prepare_id m]
    apply sendUpTo_awaitsOwn
    rw [standing_concat]
    rfl

end Node

namespace Engine

variable {n : Node} {e : Engine} {events past : List Event} {k : Nat} {peer : String} {a : Address}
  {m : Message}

theorem unswept_of_exchange (hfresh : Fresh e) {earlier failed : List Asked}
    (hdialogue : e.dialogue n k past = earlier ++ failed) {q : Proc (Except RequestError Message)}
    (hpath : (n.exchange a m).run.After failed q) (halone : Alone n e past k (a, m.id)) (t : Ticket)
    (deadline : Nat) : ⟨.awaitReply t deadline, .swept⟩ ∉ failed := by
  intro hmem
  obtain ⟨before, after, rfl⟩ := List.append_of_mem hmem
  have hstands : standing (earlier ++ before) = some ((a, m.id), t) :=
    (Node.exchange_awaitsOwn n a m earlier).asked hpath
  rw [← List.append_assoc] at hdialogue
  obtain ⟨first, later, rfl, hfirst, hasked⟩ := exists_of_dialogue_eq hdialogue
  exact unswept hfresh hasked (hfirst ▸ hstands) halone.earlier rfl

/-- The last that a task was told is that nobody is there at an address, to which it had sent on behalf of
a peer. -/
structure GivenUp (n : Node) (e : Engine) (past : List Event) (k : Nat) (peer : String) (a : Address)
    (m : Message) (failed : List Asked) : Prop where
  onBehalf : ∃ errand, Started n e past k errand ∧ errand.Sends n peer m
  just : ∃ earlier, e.dialogue n k past = earlier ++ failed
  dead : ∃ cause, Dead n a m failed cause

/-- An address leaves the entry of a peer only at the step that follows a failure of a request or a Hello
that was sent there on behalf of this peer, when it could not be sent or all attempts were in vain. If no
other task asks for its key, in vain means in silence. No peer is ever forgotten. -/
theorem eviction (n : Node) (network : Network) (directory : Directory) (disk : Disk)
    (past : List Event) (peer : String) :
    let e := start n network directory disk
    ((e.steps n past).1.book.knows peer → ∀ later, (e.steps n (past ++ later)).1.book.knows peer) ∧
    ∀ event a, (event ≠ .evict peer a) → a ∈ (e.steps n past).1.book.known peer →
      a ∉ (e.steps n (past ++ [event])).1.book.known peer →
        ∃ k m failed, event = .run k ∧ GivenUp n e past k peer a m failed ∧
          (Alone n e past k (a, m.id) → ∀ t deadline, ⟨.awaitReply t deadline, .swept⟩ ∉ failed) := by
  intro e
  have hfresh : Fresh e := fresh_start n network directory disk
  refine ⟨fun hknown later => ?_, fun event a hinside hbefore hafter => ?_⟩
  · rw [steps_append]
    exact knows_steps hknown later
  · rw [steps_concat] at hafter
    rcases asked_of_evicted hbefore hafter with houtside | ⟨k, rfl, hasked⟩
    · exact absurd houtside hinside
    · obtain ⟨errand, hstarted, earlier, failed, m, cause, hdialogue, hsends, hpath, hhard⟩ :=
        obeys_at evicts_of_runs hfresh.idle hasked
      refine ⟨k, m, failed, rfl, ⟨⟨errand, hstarted, hsends⟩, ⟨earlier, hdialogue⟩, cause, ?_⟩, ?_⟩
      · exact (Node.exchange_inv hpath).dead hhard
      · exact unswept_of_exchange hfresh hdialogue hpath

/-- A request that nobody answers: the address leaves the book once both waits were in silence, and the peer
stays known. -/
theorem eviction_of_silent_peer :
    let a : Address := .v4 ⟨#v[10, 0, 0, 1], 1000⟩
    let e := start .plain .ip4 PeerTable.empty.directory ⟨⟨[]⟩⟩
    let past := .register "bob" a :: .call (.request "bob" (.empty 7 .root)) ::
      (List.replicate 4 (.run 0) ++ .pass 100 100 :: (List.replicate 3 (.run 0) ++ .pass 100 100 ::
        List.replicate 2 (.run 0)))
    ((e.steps .plain past).1.book.knows "bob" ∧ a ∈ (e.steps .plain past).1.book.known "bob" ∧
        a ∉ (e.steps .plain (past ++ [.run 0])).1.book.known "bob" ∧ ∀ key, Alone .plain e past 0 key) ∧
      (∀ later, (e.steps .plain (past ++ later)).1.book.knows "bob") ∧
      ∃ m failed, GivenUp .plain e past 0 "bob" a m failed ∧
        ∀ t deadline, ⟨.awaitReply t deadline, .swept⟩ ∉ failed := by
  intro a e past
  have hknown : (e.steps .plain past).1.book.knows "bob" := by decide +kernel
  have hbefore : a ∈ (e.steps .plain past).1.book.known "bob" := by decide +kernel
  have hafter : a ∉ (e.steps .plain (past ++ [.run 0])).1.book.known "bob" := by decide +kernel
  have halone (key : ReplyKey) : Alone .plain e past 0 key := by
    intro j t hmem
    have hone : (e.steps .plain past).1.nextTask = 1 := by decide +kernel
    have hj := lt_nextTask_of_mem_dialogue (idle_start .plain _ _ _) hmem
    rw [hone] at hj
    exact Nat.lt_one_iff.mp hj
  clear_value past
  obtain ⟨hkept, hleft⟩ := eviction .plain .ip4 PeerTable.empty.directory ⟨⟨[]⟩⟩ past "bob"
  obtain ⟨k, m, failed, hrun, hgiven, hunswept⟩ := hleft (.run 0) a nofun hbefore hafter
  cases hrun
  exact ⟨⟨hknown, hbefore, hafter, halone⟩, hkept hknown, m, failed, hgiven, hunswept (halone _)⟩

end Engine

def Asked.showsNobody : Asked → Bool
  | ⟨.awaitReply _ _, .silence⟩ | ⟨.transmit _ _, false⟩ => true
  | _ => false

theorem Dead.told {n : Node} {a : Address} {m : Message} {log : List Asked} {cause : RequestError}
    (h : Dead n a m log cause) :
    log.any Asked.showsNobody ∨ ∃ t deadline, ⟨.awaitReply t deadline, .swept⟩ ∈ log := by
  cases h with
  | noReply limit tried =>
    cases tried with
    | none => exact absurd (Engine.attempts_pos limit) (Nat.lt_irrefl 0)
    | silent later => exact .inl (by simp [Asked.showsNobody])
    | swept later => exact .inr ⟨_, _, .tail _ (.tail _ (.tail _ (.head _)))⟩
  | unsent tried => exact .inl (by simp [Asked.showsNobody])

namespace Engine

/-- Two requests for one id that take turns: each time one sends, the ticket of the other is closed. No time
passes, and the address leaves the book. -/
theorem evicted_by_turns :
    let a : Address := .v4 ⟨#v[10, 0, 0, 1], 1000⟩
    let e := start .plain .ip4 PeerTable.empty.directory ⟨⟨[]⟩⟩
    let past := .register "bob" a :: .call (.request "bob" (.empty 7 .root)) ::
      .call (.request "bob" (.empty 7 .publicKey)) ::
        [0, 0, 0, 0, 1, 1, 1, 1, 0, 0, 0, 0, 1, 1, 1, 1, 0, 0, 0].map .run
    a ∈ (e.steps .plain past).1.book.known "bob" ∧
      a ∉ (e.steps .plain (past ++ [.run 0])).1.book.known "bob" ∧
      (e.steps .plain (past ++ [.run 0])).1.clock = 0 ∧
      ¬ ∃ k m failed, Event.run 0 = .run k ∧ GivenUp .plain e past k "bob" a m failed ∧
        ∀ t deadline, ⟨.awaitReply t deadline, .swept⟩ ∉ failed := by
  intro a e past
  refine ⟨by decide +kernel, by decide +kernel, by decide +kernel, ?_⟩
  rintro ⟨k, m, failed, hrun, ⟨-, ⟨earlier, hdialogue⟩, cause, hdead⟩, hunswept⟩
  cases hrun
  have hnone : (e.dialogue .plain 0 past).any Asked.showsNobody = false := by decide +kernel
  rw [hdialogue, List.any_append, Bool.or_eq_false_iff] at hnone
  rcases hdead.told with hshows | ⟨t, deadline, hmem⟩
  · exact Bool.false_ne_true (hnone.2.symm.trans hshows)
  · exact hunswept t deadline hmem

end Engine
end TreeShare
