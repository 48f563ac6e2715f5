import TreeShare.Proofs.Engine.Agreement
import TreeShare.Proofs.Engine.Custody
import TreeShare.Proofs.Engine.Exchanges

/-! What an engine puts on the wire, from the message that a task makes to the datagram that leaves. Main
statement: `outbound_signing`. -/
namespace TreeShare

open Proc

/-- A message as a task makes it for an address: what it is follows from the errand of the task and from what
the task was told. -/
inductive Composed (n : Node) : Errand → List Asked → Address → Message → Prop
  | send {log target m} : Composed n (.call (.send target m)) log target m
  | request {log peer target m} : Composed n (.call (.request peer m)) log target m
  | download {log peer hash target} (id : UInt32) :
      Composed n (.call (.download peer hash)) log target (.ofDigest id .getDatum hash)
  | rootOf {log peer target own} (id : UInt32) (told : ⟨.publishedRoot, own⟩ ∈ log) :
      Composed n (.call (.rootOf peer)) log target (.ofDigest id .root own)
  | publicKeyOf {log peer target} (id : UInt32) :
      Composed n (.call (.publicKeyOf peer)) log target (.empty id .publicKey)
  /-- Any errand may greet. -/
  | hello {errand log target id m} (made : Message.hello id .hello n.settings.peerName = .ok m) :
      Composed n errand log target m
  /-- Any errand may ask the server to relay. -/
  | relayRequest {errand log target} (id : UInt32) (e : Endpoint) :
      Composed n errand log target (.ofEndpoint id .natTraversalRequest e)
  | relay {log initiator target asked} (id : UInt32)
      (request : Request.ofMessage? asked = some (.relay target)) :
      Composed n (.serve (.v4 initiator) asked) log (.v4 target) (.ofEndpoint id .natTraversal initiator)
  | helloReply {log source asked h m} (request : Request.ofMessage? asked = some (.hello h))
      (made : Message.hello asked.id .helloReply n.settings.peerName = .ok m) :
      Composed n (.serve source asked) log source m
  | keyReply {log source asked} (request : Request.ofMessage? asked = some .publicKey) :
      Composed n (.serve source asked) log source (n.keyReply asked.id)
  | rootReply {log source asked root} (request : Request.ofMessage? asked = some .root)
      (told : ⟨.publishedRoot, root⟩ ∈ log) :
      Composed n (.serve source asked) log source (.ofDigest asked.id .rootReply root)
  | datum {log source asked hash m} (request : Request.ofMessage? asked = some (.datum hash))
      (told : ⟨.servedDatum hash asked.id, .ok (some m)⟩ ∈ log) :
      Composed n (.serve source asked) log source m
  | noDatum {log source asked hash} (request : Request.ofMessage? asked = some (.datum hash)) :
      Composed n (.serve source asked) log source (.ofDigest asked.id .noDatum hash)

/-- Every datagram is a message of the task as it is prepared, and a task halts only if the number of attempts
overflows. -/
def Op.Outbound (n : Node) (errand : Errand) (log : List Asked) : Op → Prop
  | transmit target datagram => ∃ m, Composed n errand log target m ∧ datagram = (n.prepare m).encode
  | halt cause => n.settings.attempts = .error cause
  | _ => True

def Call.Unsigned : Call → Prop
  | send _ m | request _ m => m.signature = none
  | _ => True

instance : DecidablePred Call.Unsigned
  | .send _ m | .request _ m => inferInstanceAs (Decidable (m.signature = none))
  | .greet _ | .download .. | .rootOf _ | .publicKeyOf _ | .traverse .. => isTrue trivial

/-- A message as it leaves a node: the one that was made, with the node's signature if the node signs and the
message must be signed. -/
structure Sealed (n : Node) (m sent : Message) : Prop where
  id : sent.id = m.id
  type : sent.type = m.type
  body : sent.body = m.body
  signed : sent.isSigned = (n.settings.signMessages && m.type.mustBeSigned)
  verifies : n.settings.signMessages = true → sent.checkSignature n.scheme n.keys.publicKey = .ok ()

section

variable {n : Node} {errand : Errand} {log more : List Asked} {target : Address} {m : Message}

theorem Composed.mono (h : Composed n errand log target m) (hsub : log ⊆ more) :
    Composed n errand more target m := by
  cases h with
  | send => exact .send
  | request => exact .request
  | download id => exact .download id
  | rootOf id told => exact .rootOf id (hsub told)
  | publicKeyOf id => exact .publicKeyOf id
  | hello made => exact .hello made
  | relayRequest id e => exact .relayRequest id e
  | relay id request => exact .relay id request
  | helloReply request made => exact .helloReply request made
  | keyReply request => exact .keyReply request
  | rootReply request told => exact .rootReply request (hsub told)
  | datum request told => exact .datum request (hsub told)
  | noDatum request => exact .noDatum request

theorem Composed.later (h : Composed n errand log target m) (more : List Asked) :
    Composed n errand (log ++ more) target m :=
  h.mono (List.subset_append_left _ _)

theorem unsigned_of_hello {id : UInt32} {t : MessageType} {name : String}
    (h : Message.hello id t name = .ok m) : m.signature = none := by
  unfold Message.hello Message.new at h
  split at h
  · split at h <;> cases h
    rfl
  · cases h

theorem Composed.unsigned (h : Composed n errand log target m) (hlog : Node.ServesHonestly log)
    (hcalls : ∀ c, errand = .call c → c.Unsigned) : m.signature = none := by
  cases h with
  | send => exact hcalls _ rfl
  | request => exact hcalls _ rfl
  | hello made => exact unsigned_of_hello made
  | helloReply _ made => exact unsigned_of_hello made
  | keyReply =>
    unfold Node.keyReply
    split <;> rfl
  | datum _ told => exact (hlog _ _ _ told).2
  | _ => rfl

namespace Node

theorem sealed_prepare (hown : n.scheme.AcceptsOwn)
    (hkeys : n.scheme.publicKey? n.keys.secret = some n.keys.publicKey) (hm : m.signature = none) :
    Sealed n m (n.prepare m) := by
  have hsigned : (n.prepare m).isSigned = (n.settings.signMessages && m.type.mustBeSigned) := by
    unfold prepare Message.isSigned
    cases n.settings.signMessages <;> cases m.type.mustBeSigned <;>
      simp [hm, Message.sign, Message.withSignature]
  exact ⟨n.prepare_id m, n.prepare_type m, n.prepare_body m, hsigned, goodReply_prepare hown hkeys hm⟩

/-! The programs of every errand send what they compose. -/

theorem outbound_of_free (log : List Asked) (op : Op) (h : op.IsFree) : op.Outbound n errand log := by
  cases op <;> first | exact trivial | exact h.elim

theorem outbound_of_lookup (log : List Asked) (op : Op) (h : op.IsLookup) :
    op.Outbound n errand log := by
  cases op <;> first | exact trivial | exact h.elim

theorem sendUpTo_outbound (hm : Composed n errand log target m) (attempts left : Nat) (t : Ticket) :
    (n.sendUpTo target (n.prepare m) attempts left t).run.Obeys (Op.Outbound n errand) log := by
  induction left generalizing t log with
  | zero => exact ⟨trivial, fun _ => trivial⟩
  | succ left ih =>
    refine ⟨⟨m, hm, rfl⟩, fun sent => ?_⟩
    cases sent with
    | false => exact ⟨trivial, fun _ => trivial⟩
    | true =>
      refine ⟨trivial, fun start => ⟨trivial, fun wait => ?_⟩⟩
      have hlater := ((hm.later [⟨.transmit target (n.prepare m).encode, true⟩]).later
        [⟨.now, start⟩]).later [⟨.awaitReply t (start + n.settings.replyTimeout), wait⟩]
      cases wait with
      | reply r => exact (validate_within n target _ r).obeys outbound_of_lookup
      | swept => exact ⟨trivial, fun u => ih (hlater.later _) u⟩
      | silence => exact ih hlater t

theorem exchange_outbound (hm : Composed n errand log target m) :
    (n.exchange target m).run.Obeys (Op.Outbound n errand) log := by
  unfold exchange
  dsimp only
  cases hattempts : n.settings.attempts with
  | error cause => exact ⟨hattempts, fun answer => answer.elim⟩
  | ok attempts => exact ⟨trivial, fun t => sendUpTo_outbound (hm.later _) attempts attempts t⟩

theorem greet_outbound (target : Address) (log : List Asked) :
    (n.greet target).run.Obeys (Op.Outbound n errand) log := by
  refine ⟨trivial, fun id => ?_⟩
  apply Attempt.obeys_bind (Attempt.obeys_ofExcept _)
  intro m _ hmade
  have hm := Except.mapError_eq_ok_iff.mp (Proc.done.inj (after_done_iff.mp hmade).2).symm
  apply Attempt.obeys_bind (exchange_outbound (.hello hm))
  intro reply _ _
  exact Attempt.obeys_bind (Attempt.obeys_ofExcept _) fun _ _ _ => ⟨trivial, fun _ => trivial⟩

theorem outbound_raw (hm : Composed n errand log target m) (ht : m.type.mustBeSigned = false) :
    (Op.transmit target m.encode).Outbound n errand log :=
  ⟨m, hm, by rw [n.prepare_of_not_mustBeSigned ht]⟩

theorem relayRequest_outbound (log : List Asked) (a : Address) (id : UInt32) (e : Endpoint) :
    (Op.transmit a (Message.ofEndpoint id .natTraversalRequest e).encode).Outbound n errand log :=
  outbound_raw (.relayRequest id e) rfl

theorem sendToKnown_outbound {peer : String} (known : List Address)
    (hm : ∀ a, Composed n errand log a m) :
    (n.sendToKnown peer m known).run.Obeys (Op.Outbound n errand) log := by
  induction known generalizing log with
  | nil => exact trivial
  | cons a rest ih =>
    apply Attempt.obeys_bind (Attempt.obeys_outcome (exchange_outbound (hm a)))
    intro r _ _
    cases r with
    | ok reply => exact trivial
    | error cause =>
      dsimp only
      split
      · exact ⟨trivial, fun _ => ih fun a => ((hm a).later _).later _⟩
      · exact trivial

theorem sendToFresh_outbound {peer : String} (tried fresh : List Address)
    (hm : ∀ a, Composed n errand log a m) :
    (n.sendToFresh peer m tried fresh).run.Obeys (Op.Outbound n errand) log := by
  induction fresh generalizing tried log with
  | nil => exact trivial
  | cons a rest ih =>
    unfold sendToFresh
    split
    · exact ih tried hm
    · apply Attempt.obeys_bind
        (reach_obeys outbound_of_free greet_outbound relayRequest_outbound peer a log)
      intro reached _ _
      split
      · exact ih (a :: tried) fun a => (hm a).later _
      · apply Attempt.obeys_bind (Attempt.obeys_outcome (exchange_outbound ((hm a).later _)))
        intro r _ _
        cases r with
        | ok reply => exact ⟨trivial, fun _ => trivial⟩
        | error cause =>
          dsimp only
          split
          · exact ⟨trivial, fun _ => ih (a :: tried) fun a => (((hm a).later _).later _).later _⟩
          · exact trivial

theorem request_outbound (peer : String) (hm : ∀ a, Composed n errand log a m) :
    (n.request peer m).run.Obeys (Op.Outbound n errand) log := by
  refine ⟨trivial, fun known => ?_⟩
  apply Attempt.obeys_bind (sendToKnown_outbound known fun a => (hm a).later _)
  intro reply _ _
  cases reply with
  | some reply => exact trivial
  | none =>
    refine ⟨trivial, fun found => ?_⟩
    cases found with
    | ok fresh => exact sendToFresh_outbound known fresh fun a => (((hm a).later _).later _).later _
    | error cause => exact trivial

theorem download_outbound (peer : String) (hash : Digest) (log : List Asked) :
    (n.download peer hash).run.Obeys (Op.Outbound n (.call (.download peer hash))) log := by
  refine ⟨trivial, fun id => ?_⟩
  apply Attempt.obeys_bind (request_outbound peer fun _ => .download id)
  intro reply _ _
  cases reply.type <;> exact trivial

theorem rootOf_outbound (peer : String) (log : List Asked) :
    (n.rootOf peer).run.Obeys (Op.Outbound n (.call (.rootOf peer))) log := by
  refine ⟨trivial, fun own => ⟨trivial, fun id => ?_⟩⟩
  apply Attempt.obeys_bind (Attempt.obeys_outcome (request_outbound peer fun _ => .rootOf id (by simp)))
  intro asked _ _
  cases asked.bind statedRoot with
  | ok h => exact trivial
  | error cause =>
    refine ⟨trivial, fun found => ?_⟩
    rcases found with _ | _ | h <;> exact trivial

theorem publicKeyOf_outbound (peer : String) (log : List Asked) :
    (n.publicKeyOf peer).run.Obeys (Op.Outbound n (.call (.publicKeyOf peer))) log := by
  refine ⟨trivial, fun id => ?_⟩
  exact Attempt.obeys_bind (request_outbound peer fun _ => .publicKeyOf id) fun _ _ _ => trivial

theorem run_outbound (c : Call) (log : List Asked) :
    (n.run c).Obeys (Op.Outbound n (.call c)) log := by
  cases c with
  | greet target => exact (greet_outbound target log).bind fun _ _ _ => trivial
  | send target m => exact (exchange_outbound .send).bind fun _ _ _ => trivial
  | request peer m => exact (request_outbound peer fun _ => .request).bind fun _ _ _ => trivial
  | download peer hash => exact (download_outbound peer hash log).bind fun _ _ _ => trivial
  | rootOf peer => exact (rootOf_outbound peer log).bind fun _ _ _ => trivial
  | publicKeyOf peer => exact (publicKeyOf_outbound peer log).bind fun _ _ _ => trivial
  | traverse peer target =>
    exact (traverse_obeys outbound_of_free greet_outbound relayRequest_outbound peer target log).bind
      fun _ _ _ => trivial

theorem post_outbound (hm : Composed n errand log target m) :
    (n.post target m).Obeys (Op.Outbound n errand) log :=
  ⟨⟨m, hm, rfl⟩, fun _ => trivial⟩

theorem answer_outbound {source : Address} {r : Request} (hr : Request.ofMessage? m = some r) :
    (n.answer source m.id r).Obeys (Op.Outbound n (.serve source m)) log := by
  cases r with
  | noOp | error => exact trivial
  | hello h =>
    refine ⟨trivial, fun _ => ?_⟩
    dsimp only [Proc.bind]
    split
    · rename_i reply hreply
      exact post_outbound (.helloReply hr hreply)
    · exact trivial
  | publicKey => exact post_outbound (.keyReply hr)
  | root => exact ⟨trivial, fun root => post_outbound (.rootReply hr (by simp))⟩
  | datum hash =>
    refine ⟨trivial, fun found => ?_⟩
    rcases found with _ | _ | reply
    · exact post_outbound (.noDatum hr)
    · exact post_outbound (.noDatum hr)
    · exact post_outbound (.datum hr (by simp))
  | relay target =>
    cases source with
    | v4 initiator =>
      unfold answer relayTo
      dsimp only
      split
      · exact ⟨trivial, fun id => ⟨outbound_raw (.relay id hr) rfl, fun _ => trivial⟩⟩
      · exact trivial
    | v6 => exact trivial
  | punch initiator =>
    apply (isServer_obeys outbound_of_free n source _).bind
    intro known _ _
    cases known with
    | true => exact obeys_perform trivial
    | false => exact trivial

theorem serve_outbound (source : Address) (m : Message) (log : List Asked) :
    (n.serve source m).Obeys (Op.Outbound n (.serve source m)) log := by
  unfold serve
  cases hr : Request.ofMessage? m with
  | none => exact trivial
  | some r =>
    apply ((checkSender_within n source m).obeys outbound_of_lookup).bind
    intro verdict _ _
    cases verdict with
    | ok => exact answer_outbound hr
    | error cause => exact trivial

theorem greetServers_outbound (servers : List Address) (log : List Asked) :
    (n.greetServers servers).Obeys (Op.Outbound n errand) log := by
  induction servers generalizing log with
  | nil => exact trivial
  | cons a rest ih =>
    apply (greet_outbound a log).bind
    intro r _ _
    cases r with
    | ok name => exact ⟨trivial, fun _ => ih _⟩
    | error cause =>
      dsimp only
      split
      · exact ⟨trivial, fun _ => ih _⟩
      · exact ih _

theorem keepAliveRound_outbound (due : Nat) (log : List Asked) :
    (n.keepAliveRound due).Obeys (Op.Outbound n errand) log := by
  refine ⟨trivial, fun _ => ?_⟩
  exact (serverAddresses_obeys outbound_of_free n _).bind fun servers _ _ =>
    greetServers_outbound servers _

end Node

end

namespace Engine

theorem outbound_of_runs (n : Node) (errand : Errand) (p : Proc Outcome) (log : List Asked)
    (h : errand.Runs n p) : p.Obeys (Op.Outbound n errand) log := by
  cases h with
  | call c => exact Node.run_outbound c log
  | serve source m => exact obeys_silent (Node.serve_outbound source m log)
  | punch a => exact obeys_silent (Node.punchRounds_obeys Node.greet_outbound a _ log)
  | keepAlive due => exact obeys_silent (Node.keepAliveRound_outbound due log)

/-- A node signs what it has to sign with its key, and no caller hands it a signed message. Every datagram
that it sends was made by a task without a signature, decodes to what was made, and is signed if and only if the
node signs and the type must be signed; what the node sends passes the check under its own key. -/
theorem outbound_signing {n : Node} (hown : n.scheme.AcceptsOwn)
    (hkeys : n.scheme.publicKey? n.keys.secret = some n.keys.publicKey) {network : Network}
    {directory : Directory} {disk : Disk} {events : List Event} (hcalls : ∀ c, .call c ∈ events → c.Unsigned)
    {target : Address} {datagram : Bytes}
    (hsent : .sent target datagram ∈ ((start n network directory disk).steps n events).2) :
    let e := start n network directory disk
    ∃ past k later errand m sent, events = past ++ .run k :: later ∧ Started n e past k errand ∧
      Composed n errand (e.dialogue n k past) target m ∧ m.signature = none ∧
      (∀ rest, Message.decode (datagram ++ rest) datagram.length = .ok sent) ∧ Sealed n m sent := by
  intro e
  obtain ⟨past, k, later, rfl, hasked⟩ := asked_of_sent hsent
  obtain ⟨errand, hstarted, m, hcomposed, rfl⟩ :=
    obeys_at (outbound_of_runs n) (idle_start n network directory disk) hasked
  have hhonest : Node.ServesHonestly (e.dialogue n k past) :=
    servesHonestly_dialogue Publication.made_empty k past
  have hunsigned : m.signature = none := by
    apply hcomposed.unsigned hhonest
    rintro c rfl
    exact hcalls c (List.mem_append_left _ (called_of_started hstarted))
  exact ⟨past, k, later, errand, m, n.prepare m, rfl, hstarted, hcomposed, hunsigned,
    Message.decode_encode_append _, Node.sealed_prepare hown hkeys hunsigned⟩

/-- A node with the secret 1, which signs, greets another and is greeted by it. -/
theorem outbound_signing_of_greetings :
    let n : Node := { Node.plain with
      scheme := .p256Own
      settings := { Node.plain.settings with signMessages := true }
      keys := ⟨Vector.ofFn fun i => if i = 31 then 1 else 0,
        Ecdsa.pair Curve.Point.generator.x Curve.Point.generator.y⟩ }
    let a : Address := .v4 ⟨#v[10, 0, 0, 2], 2000⟩
    let hello : Message := ⟨5, .hello, Hello.toBody ⟨0, "bob"⟩, none, by decide⟩
    let events : List Event := .call (.greet a) :: .receive a hello.encode ::
      (List.replicate 3 (.run 0) ++ List.replicate 6 (.run 1))
    let e := start n ⟨fun _ _ => true⟩ PeerTable.empty.directory ⟨⟨[]⟩⟩
    (∀ c, .call c ∈ events → c.Unsigned) ∧ (e.steps n events).2.length = 2 ∧
      ∀ target datagram, .sent target datagram ∈ (e.steps n events).2 →
        ∃ past k later errand m sent, events = past ++ .run k :: later ∧ Started n e past k errand ∧
          Composed n errand (e.dialogue n k past) target m ∧ m.signature = none ∧
          (∀ rest, Message.decode (datagram ++ rest) datagram.length = .ok sent) ∧
          Sealed n m sent := by
  intro n a hello events e
  have hkeys : n.scheme.publicKey? n.keys.secret = some n.keys.publicKey := by
    show Ecdsa.publicKey? n.keys.secret = some n.keys.publicKey
    decide +kernel
  have hcalls : ∀ c, .call c ∈ events → c.Unsigned := by
    intro c hc
    have hgreet : c = .greet a := by simpa [events] using hc
    exact hgreet ▸ trivial
  have hsent : (e.steps n events).2.length = 2 := by decide +kernel
  exact ⟨hcalls, hsent, fun target datagram h =>
    outbound_signing SignatureScheme.acceptsOwn_p256Own hkeys hcalls h⟩

end Engine
end TreeShare
