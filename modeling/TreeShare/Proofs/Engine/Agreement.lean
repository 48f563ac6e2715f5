import TreeShare.Proofs.Engine.Checks
import TreeShare.Proofs.Engine.Runs
import TreeShare.Proofs.Engine.Serving
import TreeShare.Proofs.Message.Datagram
import TreeShare.Proofs.Publishing.Made

/-! The two ends of a request: what a node answers, and what the node that asked makes of the answer. Main
statement: `responder_agrees`. -/
namespace TreeShare

open Proc

/-! The answer. -/

/-- The datagrams that a task has sent, each with where to and whether the network took it. -/
def transmissions (log : List Asked) : List (Address × Bytes × Bool) :=
  log.filterMap fun
    | ⟨.transmit target datagram, sent⟩ => some (target, datagram, sent)
    | _ => none

@[simp] theorem transmissions_append (log more : List Asked) :
    transmissions (log ++ more) = transmissions log ++ transmissions more :=
  List.filterMap_append

theorem mem_of_mem_transmissions {log : List Asked} {target : Address} {datagram : Bytes}
    {sent : Bool} (h : (target, datagram, sent) ∈ transmissions log) :
    ⟨.transmit target datagram, sent⟩ ∈ log := by
  obtain ⟨⟨op, answer⟩, hmem, hasked⟩ := List.mem_filterMap.mp h
  cases op <;> cases hasked
  exact hmem

theorem transmissions_of_lookups {log : List Asked} (h : ∀ asked ∈ log, asked.op.IsLookup) :
    transmissions log = [] := by
  apply List.filterMap_eq_nil_iff.mpr
  rintro ⟨op, answer⟩ hmem
  have := h _ hmem
  cases op <;> first | rfl | exact this.elim

/-- The requests that are answered with a reply of their own type. -/
def MessageType.IsQuery (t : MessageType) : Prop :=
  t = .hello ∨ t = .publicKey ∨ t = .root ∨ t = .getDatum

namespace Node

/-- A reply to `m` before it is signed: it has the id of `m` and is what `m` asks for. -/
structure Answers (m reply : Message) : Prop where
  id : reply.id = m.id
  unsigned : reply.signature = none
  fits : checkReply m reply = .ok ()

theorem answers_of_type {m reply : Message} (t : MessageType) (hid : reply.id = m.id)
    (hs : reply.signature = none) (hreply : reply.type = t)
    (ht : t.answers m.type = true ∧ t ≠ .errorReply ∧ t ≠ .datum) : Answers m reply := by
  refine ⟨hid, hs, ?_⟩
  unfold checkReply
  rw [hreply, if_neg fun h => ht.2.1 h.1, if_neg (by simp [ht.1]), if_neg ht.2.2]

theorem answers_of_carriesDatum {m reply : Message} {hash : Digest} (ht : m.type = .getDatum)
    (hb : m.body = hash.toList) (hcarries : reply.CarriesDatum hash m.id)
    (hs : reply.signature = none) : Answers m reply := by
  refine ⟨hcarries.id, hs, ?_⟩
  have hstates : m.body = reply.body.take 32 := hb.trans hcarries.states.symm
  unfold checkReply
  rw [hcarries.type, ht, if_neg (by simp), if_neg (by decide), if_pos rfl, hcarries.integrity]
  exact if_pos hstates

/-- What a node has served was given for its hash. -/
def ServesHonestly (log : List Asked) : Prop :=
  ∀ hash id reply, ⟨.servedDatum hash id, .ok (some reply)⟩ ∈ log →
    reply.CarriesDatum hash id ∧ reply.signature = none

theorem answers_datumReply {m : Message} {hash : Digest} (ht : m.type = .getDatum)
    (hb : m.body = hash.toList) {served : Except PublishError (Option Message)}
    (h : ∀ reply, served = .ok (some reply) →
      reply.CarriesDatum hash m.id ∧ reply.signature = none) :
    Answers m (datumReply hash m.id served) := by
  rcases served with _ | _ | reply
  · exact answers_of_type .noDatum rfl rfl rfl (by rw [ht]; decide)
  · exact answers_of_type .noDatum rfl rfl rfl (by rw [ht]; decide)
  · obtain ⟨hcarries, hs⟩ := h reply rfl
    exact answers_of_carriesDatum ht hb hcarries hs

theorem after_post {n : Node} {source : Address} {reply : Message} {log : List Asked}
    (h : (n.post source reply).After log (.done ())) :
    ∃ sent, log = [⟨.transmit source (n.prepare reply).encode, sent⟩] := by
  obtain ⟨sent, rest, rfl, hdone⟩ := after_ask_done_iff.mp h
  cases (after_done_iff.mp hdone).1
  exact ⟨sent, rfl⟩

theorem after_answer {n : Node} (hname : 4 + (Utf8.encode n.settings.peerName).length < 65536)
    {source : Address} {m : Message} (hquery : m.type.IsQuery) {r : Request}
    (hr : Request.ofMessage? m = some r) {log : List Asked}
    (h : (n.answer source m.id r).After log (.done ())) (hlog : ServesHonestly log) :
    ∃ reply sent, Answers m reply ∧
      transmissions log = [(source, (n.prepare reply).encode, sent)] := by
  unfold Request.ofMessage? at hr
  rcases hquery with ht | ht | ht | ht
  · simp only [ht] at hr
    obtain ⟨hello, -, rfl⟩ := Option.map_eq_some_iff.mp hr
    let reply : Message := ⟨m.id, .helloReply, Hello.toBody ⟨0, n.settings.peerName⟩, none, by
      simpa [Hello.toBody] using hname⟩
    have hreply : Message.hello m.id .helloReply n.settings.peerName = .ok reply :=
      dif_pos reply.body_length
    obtain ⟨⟨⟩, rest, rfl, hrest⟩ := after_ask_done_iff.mp h
    simp only [hreply] at hrest
    obtain ⟨sent, rfl⟩ := after_post hrest
    exact ⟨reply, sent, answers_of_type .helloReply rfl rfl rfl (by rw [ht]; decide), rfl⟩
  · simp only [ht] at hr
    cases Option.some.inj hr
    obtain ⟨sent, rfl⟩ := after_post h
    refine ⟨n.keyReply m.id, sent, ?_, rfl⟩
    unfold keyReply
    split <;> exact answers_of_type .publicKeyReply rfl rfl rfl (by rw [ht]; decide)
  · simp only [ht] at hr
    split at hr
    · cases Option.some.inj hr
      obtain ⟨root, rest, rfl, hrest⟩ := after_ask_done_iff.mp h
      obtain ⟨sent, rfl⟩ := after_post hrest
      refine ⟨.ofDigest m.id .rootReply root, sent, ?_, rfl⟩
      exact answers_of_type .rootReply rfl rfl rfl (by rw [ht]; decide)
    · contradiction
  · simp only [ht] at hr
    obtain ⟨hash, hblock, rfl⟩ := Option.map_eq_some_iff.mp hr
    have hbody := (Bytes.block?_eq_some_iff.mp hblock).symm
    rw [answer_datum] at h
    obtain ⟨served, rest, rfl, hrest⟩ := after_ask_done_iff.mp h
    obtain ⟨sent, rfl⟩ := after_post hrest
    refine ⟨_, sent, answers_datumReply ht hbody fun reply hserved => ?_, rfl⟩
    exact hlog hash m.id reply (by simp [hserved])

theorem after_serve {n : Node} (hname : 4 + (Utf8.encode n.settings.peerName).length < 65536)
    {source : Address} {m : Message} (hquery : m.type.IsQuery)
    (hform : (Request.ofMessage? m).isSome) {log : List Asked} {o : Outcome}
    (h : (Engine.silent (n.serve source m)).After log (.done o)) (hlog : ServesHonestly log) :
    ∃ check verdict more, log = check ++ more ∧
      (n.checkSender source m).After check (.done verdict) ∧
        match verdict with
        | .error _ => more = []
        | .ok () => ∃ reply sent, Answers m reply ∧
            transmissions more = [(source, (n.prepare reply).encode, sent)] := by
  obtain ⟨r, hr⟩ := Option.isSome_iff_exists.mp hform
  obtain ⟨asked, ⟨⟩, rest, rfl, hserve, hrest⟩ := after_bind_done_iff.mp h
  cases (after_done_iff.mp hrest).1
  rw [List.append_nil] at hlog ⊢
  unfold serve at hserve
  simp only [hr] at hserve
  obtain ⟨check, verdict, more, rfl, hcheck, hanswer⟩ := after_bind_done_iff.mp hserve
  refine ⟨check, verdict, more, rfl, hcheck, ?_⟩
  cases verdict with
  | error cause => exact (after_done_iff.mp hanswer).1
  | ok =>
    refine after_answer hname hquery hr hanswer fun hash id reply hmem => ?_
    exact hlog hash id reply (by simp [hmem])

theorem post_within (n : Node) (source : Address) (reply : Message) :
    (n.post source reply).Within (fun op => ¬ Engine.Waits op) 1 :=
  ⟨nofun, fun _ => trivial⟩

theorem answer_within {m : Message} (hquery : m.type.IsQuery) {r : Request}
    (hr : Request.ofMessage? m = some r) (n : Node) (source : Address) (id : UInt32) :
    (n.answer source id r).Within (fun op => ¬ Engine.Waits op) 2 := by
  unfold Request.ofMessage? at hr
  rcases hquery with ht | ht | ht | ht
  · simp only [ht] at hr
    obtain ⟨hello, -, rfl⟩ := Option.map_eq_some_iff.mp hr
    refine ⟨nofun, fun _ => ?_⟩
    dsimp only
    split
    · exact post_within n source _
    · exact trivial
  · simp only [ht] at hr
    cases Option.some.inj hr
    exact (post_within n source _).mono (by omega)
  · simp only [ht] at hr
    split at hr
    · cases Option.some.inj hr
      exact ⟨nofun, fun _ => post_within n source _⟩
    · contradiction
  · simp only [ht] at hr
    obtain ⟨hash, -, rfl⟩ := Option.map_eq_some_iff.mp hr
    rw [answer_datum]
    exact ⟨nofun, fun _ => post_within n source _⟩

theorem serve_within {m : Message} (hquery : m.type.IsQuery)
    (hform : (Request.ofMessage? m).isSome) (n : Node) (source : Address) :
    (Engine.silent (n.serve source m)).Within (fun op => ¬ Engine.Waits op) 6 := by
  obtain ⟨r, hr⟩ := Option.isSome_iff_exists.mp hform
  have hlookup : ∀ op : Op, op.IsLookup → ¬ Engine.Waits op := by
    intro op h
    cases op <;> first | exact h.elim | exact nofun
  unfold Engine.silent serve
  simp only [hr]
  refine Within.bind (k := 6) (l := 0) ?_ fun _ => trivial
  refine Within.bind (k := 4) (l := 2) ?_ fun verdict => ?_
  · exact (checkSender_within n source m).imp hlookup
  · cases verdict with
    | error cause => exact trivial
    | ok => exact answer_within hquery hr n source m.id

/-! The reply as it is taken. -/

/-- What a lookup may say of a node whose replies are to be taken: its key, if it signs, or none. -/
def Backs (b : Node) (found : Except DirectoryError (Option PublicKey)) : Prop :=
  (found = .ok (some b.keys.publicKey) ∧ b.settings.signMessages = true) ∨ found = .ok none ∨
    ∃ cause, found = .error cause

/-- A reply bears the signature of a node, where it has to and the node signs. -/
def GoodReply (b : Node) (reply : Message) : Prop :=
  b.settings.signMessages = true → reply.checkSignature b.scheme b.keys.publicKey = .ok ()

theorem goodReply_prepare {b : Node} (hown : b.scheme.AcceptsOwn)
    (hkeys : b.scheme.publicKey? b.keys.secret = some b.keys.publicKey) {reply : Message}
    (hs : reply.signature = none) : b.GoodReply (b.prepare reply) := by
  intro hsigns
  obtain ⟨hkey, hverify⟩ := hown _ _ hkeys
  apply Message.checkSignature_eq_ok_iff.mpr
  unfold prepare
  by_cases hmust : reply.type.mustBeSigned = true
  · rw [if_pos (by simp [hsigns, hmust, Message.isSigned, hs])]
    refine ⟨?_, fun _ => rfl⟩
    unfold Message.verifies Message.sign
    simp only [Message.withSignature, hkey, Bool.true_and]
    exact hverify _
  · rw [if_neg (by simp [hmust])]
    refine ⟨?_, fun h => absurd h hmust⟩
    unfold Message.verifies
    rw [hs]

def judge (n : Node) (m : Message) :
    Except DirectoryError (Option PublicKey) → Except SignatureError Unit
  | .ok (some key) => m.checkSignature n.scheme key
  | .ok none | .error _ => .ok ()

theorem checkSender_eq (n : Node) (source : Address) (m : Message) :
    n.checkSender source m = (senderName source m).bind fun name =>
      match name with
      | none => .done (.ok ())
      | some peer => (keyOf peer).bind fun found => .done (n.judge m found) := by
  refine congrArg (senderName source m).bind (funext fun name => ?_)
  cases name with
  | none => rfl
  | some peer =>
    refine congrArg (keyOf peer).bind (funext fun found => ?_)
    rcases found with _ | _ | key <;> rfl

theorem judge_of_backs {a b : Node} (hscheme : a.scheme = b.scheme) {reply : Message}
    (hgood : b.GoodReply reply) {found : Except DirectoryError (Option PublicKey)}
    (hfound : b.Backs found) : a.judge reply found = .ok () := by
  rcases hfound with ⟨rfl, hsigns⟩ | rfl | ⟨cause, rfl⟩
  · unfold judge
    rw [hscheme]
    exact hgood hsigns
  · rfl
  · rfl

end Node

namespace Engine

theorem alone_bind {α β : Type} {n : Node} {p : Proc α} {f : α → Proc β} {e e' e'' : Engine} {a : α}
    {b : β} {records more : List Record} (hp : e.alone n p = some (a, e', records))
    (hf : e'.alone n (f a) = some (b, e'', more)) :
    e.alone n (p.bind f) = some (b, e'', records ++ more) := by
  induction p generalizing e records with
  | done a =>
    cases hp
    exact hf
  | ask op next ih =>
    obtain ⟨⟨answer, middle, first⟩, hanswer, hp⟩ := Option.bind_eq_some_iff.mp hp
    obtain ⟨⟨_, _, rest⟩, hnext, hp⟩ := Option.bind_eq_some_iff.mp hp
    cases hp
    have hrest := ih answer hnext
    unfold Proc.bind alone
    simp only [hanswer, Option.bind_eq_bind, Option.bind_some, hrest, List.append_assoc]
    rfl

theorem alone_senderName (n : Node) (e : Engine) (source : Address) (m : Message) :
    e.alone n (Node.senderName source m) =
      some (m.claimedName?.or (e.book.peerAt? source), e, []) := by
  unfold Node.senderName
  cases m.claimedName? <;> rfl

theorem alone_ask {α : Type} {n : Node} {e e' : Engine} {op : Op} {answer : op.Answer}
    (h : e.perform n op = some (answer, e', [])) (next : op.Answer → Proc α) :
    e.alone n (.ask op next) = e'.alone n (next answer) := by
  rw [alone, h, Option.bind_eq_bind, Option.bind_some]
  cases hnext : e'.alone n (next answer) <;> simp [hnext]

theorem exists_alone_keyOf (n : Node) (e : Engine) (peer : String) :
    ∃ e', e.alone n (Node.keyOf peer) = some ((e.keyCache.keyOf e.directory peer).1, e', []) := by
  have hcache : e.perform n (.cachedKey peer) = some (e.keyCache.cached? peer, e, []) := rfl
  have hfind : e.perform n (.findKey peer) = some (e.directory.key peer, e, []) := rfl
  unfold KeyCache.keyOf
  cases hcached : e.keyCache.cached? peer with
  | some key =>
    rw [hcached] at hcache
    exact ⟨e, alone_ask hcache _⟩
  | none =>
    rw [hcached] at hcache
    cases hkey : e.directory.key peer with
    | error cause =>
      rw [hkey] at hfind
      exact ⟨e, (alone_ask hcache _).trans (alone_ask hfind _)⟩
    | ok key =>
      rw [hkey] at hfind
      exact ⟨_, (alone_ask hcache _).trans (alone_ask hfind _)⟩

end Engine

namespace Node

/-- A node takes a reply of another as valid, whatever the state it is in, as long as what it looks up of
the name that it gives the sender backs the other. `alone` is for a check with nothing beside it, `turns`
for one that other tasks come between. -/
structure Takes (a b : Node) (source : Address) (sent reply : Message) : Prop where
  ends : (a.validate source sent reply).run.Within Op.IsLookup 4
  alone : ∀ e : Engine, (∀ peer, reply.claimedName?.or (e.book.peerAt? source) = some peer →
    b.Backs (e.keyCache.keyOf e.directory peer).1) →
      ∃ e', e.alone a (a.validate source sent reply).run = some (.ok reply, e', [])
  turns : ∀ log r, (a.validate source sent reply).run.After log (.done r) →
    (∀ first second peer found, log = first ++ second →
      (senderName source reply).After first (.done (some peer)) →
        (keyOf peer).After second (.done found) → b.Backs found) →
      r = .ok reply

theorem exists_alone_checkSender {a b : Node} (hscheme : a.scheme = b.scheme) {reply : Message}
    (hgood : b.GoodReply reply) {source : Address} {e : Engine}
    (hbacks : ∀ peer, reply.claimedName?.or (e.book.peerAt? source) = some peer →
      b.Backs (e.keyCache.keyOf e.directory peer).1) :
    ∃ e', e.alone a (a.checkSender source reply) = some (.ok (), e', []) := by
  have hname := Engine.alone_senderName a e source reply
  rw [checkSender_eq]
  cases hsender : reply.claimedName?.or (e.book.peerAt? source) with
  | none =>
    rw [hsender] at hname
    exact ⟨e, Engine.alone_bind hname rfl⟩
  | some peer =>
    rw [hsender] at hname
    obtain ⟨e', hkey⟩ := Engine.exists_alone_keyOf a e peer
    have hjudge := judge_of_backs hscheme hgood (hbacks peer hsender)
    refine ⟨e', Engine.alone_bind hname (Engine.alone_bind hkey ?_)⟩
    rw [hjudge]
    rfl

theorem checkSender_after_backs {a b : Node} (hscheme : a.scheme = b.scheme) {reply : Message}
    (hgood : b.GoodReply reply) {source : Address} {log : List Asked}
    {verdict : Except SignatureError Unit}
    (h : (a.checkSender source reply).After log (.done verdict))
    (hbacks : ∀ first second peer found, log = first ++ second →
      (senderName source reply).After first (.done (some peer)) →
        (keyOf peer).After second (.done found) → b.Backs found) : verdict = .ok () := by
  rw [checkSender_eq] at h
  obtain ⟨first, name, second, rfl, hname, hsecond⟩ := after_bind_done_iff.mp h
  cases name with
  | none => exact Proc.done.inj (after_done_iff.mp hsecond).2
  | some peer =>
    obtain ⟨asking, found, last, rfl, hkey, hlast⟩ := after_bind_done_iff.mp hsecond
    obtain ⟨rfl, hverdict⟩ := after_done_iff.mp hlast
    rw [List.append_nil] at hbacks
    rw [← Proc.done.inj hverdict.symm]
    exact judge_of_backs hscheme hgood (hbacks first asking peer found rfl hname hkey)

theorem takes {a b : Node} (hscheme : a.scheme = b.scheme) {sent reply : Message}
    (hfits : checkReply sent reply = .ok ()) (hgood : b.GoodReply reply) (source : Address) :
    Takes a b source sent reply := by
  have hrun := run_validate_of_ok hfits a source
  refine ⟨?_, fun e hbacks => ?_, fun log r h hbacks => ?_⟩
  · rw [hrun]
    exact (checkSender_within a source reply).bind (l := 0) fun _ => trivial
  · obtain ⟨e', hcheck⟩ := exists_alone_checkSender hscheme hgood hbacks
    rw [hrun]
    exact ⟨e', Engine.alone_bind hcheck rfl⟩
  · rw [hrun] at h
    obtain ⟨check, verdict, rest, rfl, hcheck, hdone⟩ := after_bind_done_iff.mp h
    obtain ⟨rfl, hr⟩ := after_done_iff.mp hdone
    rw [List.append_nil] at hbacks
    cases checkSender_after_backs hscheme hgood hcheck hbacks
    exact Proc.done.inj hr

end Node

namespace Engine

/-- Whatever else goes on, a task gives out what was published under the hash that was asked for. -/
theorem servesHonestly_dialogue {n : Node} {e : Engine} (he : e.published.Made) (k : Nat)
    (events : List Event) : Node.ServesHonestly (e.dialogue n k events) := by
  intro hash id reply hmem
  obtain ⟨past, later, -, hserved⟩ := served_of_mem_dialogue hmem
  rw [published_steps] at hserved
  exact Publication.carriesDatum_of_made (he.exportAll _) hserved.symm

/-- A query that `a` has prepared reaches `b`, which is in any state and may have other tasks. The task
that serves it comes to an end. It sends nothing if the check of the sender ends badly, and else one
datagram, which carries the id of the query and which `a` takes for a valid reply. -/
theorem responder_agrees {a b : Node} (hscheme : a.scheme = b.scheme) (hown : b.scheme.AcceptsOwn)
    (hkeys : b.scheme.publicKey? b.keys.secret = some b.keys.publicKey)
    (hname : 4 + (Utf8.encode b.settings.peerName).length < 65536) {e : Engine}
    (he : e.published.Made) (source : Address) {m received : Message} (hquery : m.type.IsQuery)
    (hreceived : received = a.prepare m ∨
      Message.ofDatagram ((a.prepare m).encode.take bufferSize) = .ok received)
    (hform : (Request.ofMessage? received).isSome) {after : List Event}
    (habort : ∀ event ∈ after, event ≠ .abort e.nextTask)
    (hsteps : 6 < after.countP fun event => Touches e.nextTask event) :
    let run := (e.spawn .service (silent (b.serve source received))).2
    let log := run.dialogue b e.nextTask after
    (run.steps b after).1.tasks.get? e.nextTask = none ∧
      ∃ check verdict more, log = check ++ more ∧
        (b.checkSender source received).After check (.done verdict) ∧
          match verdict with
          | .error _ => transmissions log = []
          | .ok () => ∃ (reply : Message) (sent : Bool),
              transmissions log = [(source, reply.encode, sent)] ∧
              (∃ past later, after = past ++ .run e.nextTask :: later ∧
                sent = (run.steps b past).1.network.carries source reply.encode) ∧
              Message.ofDatagram reply.encode = .ok reply ∧ reply.id = m.id ∧
              ∀ target, Node.Takes a b target (a.prepare m) reply := by
  intro run log
  have hsame : received.id = m.id ∧ received.type = m.type ∧ received.body = m.body := by
    rcases hreceived with rfl | hdatagram
    · exact ⟨a.prepare_id m, a.prepare_type m, a.prepare_body m⟩
    · obtain ⟨hid, htype, hbody⟩ := Message.ofDatagram_take hdatagram
      exact ⟨hid.trans (a.prepare_id m), htype.trans (a.prepare_type m),
        hbody.trans (a.prepare_body m)⟩
  obtain ⟨hid, htype, hbody⟩ := hsame
  -- What the task of `b` does comes from its program, whatever the other tasks do in between.
  have hquery' : received.type.IsQuery := htype ▸ hquery
  have hk : e.nextTask < run.nextTask := Nat.lt_succ_self _
  have htask := get?_spawn e .service (silent (b.serve source received))
  have hduty : ∀ next, Duty.service ≠ .keepAlive next := nofun
  have hgone := gone_of_within (n := b) hduty hk htask
    (Node.serve_within hquery' hform b source) hsteps
  have hfate := fate (n := b) hduty hk htask after
  rw [hgone] at hfate
  refine ⟨hgone, ?_⟩
  cases hfate with
  | aborted _ _ abort => exact absurd rfl (habort _ abort)
  | done path =>
    have hmade : run.published.Made := he
    obtain ⟨check, verdict, more, hlog, hcheck, hmore⟩ := Node.after_serve hname hquery' hform path
      (servesHonestly_dialogue hmade e.nextTask after)
    have hlookups := transmissions_of_lookups
      (hcheck.within (Node.checkSender_within b source received)).2.1
    have hsent : transmissions log = transmissions more := by
      show transmissions (run.dialogue b e.nextTask after) = _
      rw [hlog, transmissions_append, hlookups, List.nil_append]
    refine ⟨check, verdict, more, hlog, hcheck, ?_⟩
    cases verdict with
    | error cause => rw [hsent, hmore]; rfl
    | ok =>
      obtain ⟨reply, sent, hanswers, htransmit⟩ := hmore
      rw [htransmit] at hsent
      have hmem : (source, (b.prepare reply).encode, sent) ∈ transmissions log := by
        rw [hsent]
        exact List.mem_singleton.mpr rfl
      obtain ⟨first, rest, hsplit⟩ := List.append_of_mem (mem_of_mem_transmissions hmem)
      obtain ⟨past, later, hafter, -, hasked⟩ := exists_of_dialogue_eq hsplit
      refine ⟨b.prepare reply, sent, hsent, ⟨past, later, hafter, carries_of_asked hasked⟩,
        Message.ofDatagram_encode _,
        (b.prepare_id reply).trans (hanswers.id.trans hid), fun target => ?_⟩
      apply Node.takes hscheme _ (Node.goodReply_prepare hown hkeys hanswers.unsigned)
      rw [← hanswers.fits]
      exact Node.checkReply_congr ((a.prepare_type m).trans htype.symm)
        ((a.prepare_body m).trans hbody.symm) (b.prepare_type reply) (b.prepare_body reply)

end Engine

namespace SignatureScheme

/-- P-256 as it is meant to be: whatever it signed verifies, under a key that is one. -/
noncomputable def p256Own : SignatureScheme where
  publicKey? := p256.publicKey?
  isKey key := p256.isKey key ||
    @decide (∃ secret, p256.publicKey? secret = some key) (Classical.propDecidable _)
  sign := p256.sign
  verify key message signature := p256.verify key message signature ||
    @decide (∃ secret, p256.publicKey? secret = some key ∧ signature = p256.sign secret message)
      (Classical.propDecidable _)

theorem acceptsOwn_p256Own : p256Own.AcceptsOwn := by
  intro secret key hkey
  have hexists : ∃ secret, p256.publicKey? secret = some key := ⟨secret, hkey⟩
  refine ⟨by simp [p256Own, hexists], fun message => ?_⟩
  have hsigned : ∃ s, p256.publicKey? s = some key ∧ p256.sign secret message = p256.sign s message :=
    ⟨secret, hkey, rfl⟩
  simp [p256Own, hsigned]

end SignatureScheme

namespace Engine

/-- A node with the secret 1, which signs, is asked for the root of what it has just exported. -/
theorem responder_agrees_on_root :
    let a : Node := { Node.plain with scheme := .p256Own }
    let b : Node := { Node.plain with
      scheme := .p256Own
      settings := { Node.plain.settings with peerName := "bob", signMessages := true }
      keys := ⟨Vector.ofFn fun i => if i = 31 then 1 else 0,
        Ecdsa.pair Curve.Point.generator.x Curve.Point.generator.y⟩ }
    let e := ((start b ⟨fun _ _ => true⟩ PeerTable.empty.directory ⟨⟨[([[0x66]], .file [1, 2] 0o644)]⟩⟩).steps b
      [.exportPath ⟨[0x2f, 0x66]⟩]).1
    let source : Address := .v4 ⟨#v[10, 0, 0, 1], 1000⟩
    let m := Message.empty 7 .root
    let run := (e.spawn .service (silent (b.serve source m))).2
    let log := run.dialogue b 0 (List.replicate 7 (.run 0))
    ∃ reply : Message,
      transmissions log = [(source, reply.encode, true)] ∧ reply.id = 7 ∧
        ∀ target, Node.Takes a b target m reply := by
  intro a b e source m run log
  have hkeys : b.scheme.publicKey? b.keys.secret = some b.keys.publicKey := by
    show Ecdsa.publicKey? b.keys.secret = some b.keys.publicKey
    decide +kernel
  have hname : 4 + (Utf8.encode b.settings.peerName).length < 65536 := by decide
  have hmade : e.published.Made := by
    rw [published_steps]
    exact Publication.made_empty.exportAll _
  have habort : ∀ event ∈ List.replicate 7 (Event.run 0), event ≠ .abort e.nextTask := by simp
  have hsteps : 6 < (List.replicate 7 (Event.run 0)).countP fun event => Touches e.nextTask event := by
    show 6 < (List.replicate 7 (Event.run 0)).countP fun event => Touches 0 event
    decide
  obtain ⟨-, check, verdict, more, -, -, hsent⟩ :=
    responder_agrees (a := a) (b := b) rfl SignatureScheme.acceptsOwn_p256Own hkeys hname hmade
      source (m := m) (.inr (.inr (.inl rfl))) (.inl rfl) rfl habort hsteps
  cases verdict with
  | error cause =>
    have hsome : 0 < (transmissions log).length := by decide +kernel
    exact absurd hsent (List.ne_nil_of_length_pos hsome)
  | ok =>
    obtain ⟨reply, sent, hlog, -, -, hid, htakes⟩ := hsent
    have hlog : transmissions log = [(source, reply.encode, sent)] := hlog
    have hcarried : (transmissions log).map (fun x => x.2.2) = [true] := by decide +kernel
    rw [hlog] at hcarried
    cases (List.cons.inj hcarried).1
    exact ⟨reply, hlog, hid, htakes⟩

end Engine
end TreeShare
