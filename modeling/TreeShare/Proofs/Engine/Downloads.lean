import TreeShare.Proofs.Datum.Reencoding
import TreeShare.Proofs.Engine.Custody
import TreeShare.Proofs.Engine.Exchanges

/-! Which replies a download goes by. Main statement: `verified_download`. -/
namespace TreeShare

open Proc

/-! What a reply answers: the datagram that was sent last when it came. -/

namespace Asked

def sent? : Asked → Option (Address × Bytes)
  | ⟨.transmit a datagram, true⟩ => some (a, datagram)
  | _ => none

def reply? : Asked → Option Message
  | ⟨.awaitReply _ _, .reply r⟩ => some r
  | _ => none

end Asked

def lastSent (log : List Asked) : Option (Address × Bytes) := log.reverse.findSome? Asked.sent?

/-- In a dialogue that goes on where another ends, a reply came when this was sent last. -/
def Answered (before log : List Asked) (a : Address) (datagram : Bytes) (r : Message) : Prop :=
  ∃ past asked later, log = past ++ asked :: later ∧ asked.reply? = some r ∧
    lastSent (before ++ past) = some (a, datagram)

def Silent (log : List Asked) : Prop := ∀ asked ∈ log, asked.reply? = none

/-- Whenever a task waits, it has sent something of a kind last. -/
def Op.WaitsAfter (kind : Address → Bytes → Prop) (log : List Asked) : Op → Prop
  | awaitReply .. => ∃ a datagram, lastSent log = some (a, datagram) ∧ kind a datagram
  | _ => True

section

variable {before log more : List Asked} {a : Address} {datagram : Bytes} {r : Message}

theorem lastSent_append (log more : List Asked) :
    lastSent (log ++ more) = (lastSent more).or (lastSent log) := by
  unfold lastSent
  rw [List.reverse_append, List.findSome?_append]

theorem lastSent_transmit (log : List Asked) (a : Address) (datagram : Bytes) (start : Nat) :
    lastSent (log ++ [⟨.transmit a datagram, true⟩, ⟨.now, start⟩]) = some (a, datagram) := by
  rw [lastSent_append]
  rfl

theorem answered_append : Answered before (log ++ more) a datagram r ↔
    Answered before log a datagram r ∨ Answered (before ++ log) more a datagram r := by
  constructor
  · rintro ⟨past, asked, later, hsplit, hreply, hlast⟩
    rcases List.append_eq_append_iff.mp hsplit with ⟨rest, rfl, hmore⟩ | ⟨rest, rfl, hmore⟩
    · exact .inr ⟨rest, asked, later, hmore, hreply, by rw [List.append_assoc]; exact hlast⟩
    · cases rest with
      | nil =>
        refine .inr ⟨[], asked, later, hmore.symm, hreply, ?_⟩
        simpa using hlast
      | cons first rest =>
        obtain ⟨rfl, rfl⟩ := List.cons.inj hmore
        exact .inl ⟨past, asked, rest, rfl, hreply, hlast⟩
  · rintro (⟨past, asked, later, rfl, hreply, hlast⟩ | ⟨past, asked, later, rfl, hreply, hlast⟩)
    · exact ⟨past, asked, later ++ more, by simp, hreply, hlast⟩
    · exact ⟨log ++ past, asked, later, by simp, hreply, by rw [← List.append_assoc]; exact hlast⟩

theorem silent_nil : Silent [] := fun _ hmem => nomatch hmem

theorem Silent.cons {asked : Asked} (hasked : asked.reply? = none) (h : Silent log) :
    Silent (asked :: log) :=
  List.forall_mem_cons.mpr ⟨hasked, h⟩

theorem Silent.append (h : Silent log) (h' : Silent more) : Silent (log ++ more) := by
  intro asked hmem
  rcases List.mem_append.mp hmem with hmem | hmem
  · exact h asked hmem
  · exact h' asked hmem

theorem Silent.not_answered (h : Silent log) : ¬ Answered before log a datagram r := by
  rintro ⟨past, asked, later, rfl, hreply, -⟩
  rw [h asked (by simp)] at hreply
  contradiction

theorem answered_singleton_iff {asked : Asked} : Answered before [asked] a datagram r ↔
    asked.reply? = some r ∧ lastSent before = some (a, datagram) := by
  constructor
  · rintro ⟨past, x, later, hsplit, hreply, hlast⟩
    obtain ⟨rfl, hcons⟩ | ⟨-, hnil⟩ := List.singleton_eq_append_iff.mp hsplit
    · cases hcons
      rw [List.append_nil] at hlast
      exact ⟨hreply, hlast⟩
    · contradiction
  · rintro ⟨hreply, hlast⟩
    exact ⟨[], asked, [], rfl, hreply, by rwa [List.append_nil]⟩

theorem answered_between_iff {asked : Asked} (hlog : Silent log) (hmore : Silent more) :
    Answered before (log ++ asked :: more) a datagram r ↔
      asked.reply? = some r ∧ lastSent (before ++ log) = some (a, datagram) := by
  have hsplit : log ++ asked :: more = log ++ [asked] ++ more := by simp
  rw [hsplit, answered_append, answered_append, or_iff_left hmore.not_answered,
    or_iff_right hlog.not_answered, answered_singleton_iff]

theorem kind_of_answered {α : Type} {kind : Address → Bytes → Prop} {p q : Proc α}
    (h : p.Obeys (Op.WaitsAfter kind) before) (hq : p.After log q)
    (hanswered : Answered before log a datagram r) : kind a datagram := by
  obtain ⟨past, asked, later, rfl, hreply, hlast⟩ := hanswered
  have hwaits := h.asked hq
  obtain ⟨op, answer⟩ := asked
  cases op <;> try contradiction
  obtain ⟨b, x, hsent, hkind⟩ := hwaits
  cases hlast.symm.trans hsent
  exact hkind

end

/-! What is sent before each wait. -/

namespace Node

variable {n : Node} {log : List Asked} {kind : Address → Bytes → Prop}

theorem waitsAfter_of_lookup (log : List Asked) {op : Op} (h : op.IsLookup) : op.WaitsAfter kind log := by
  cases op <;> first | exact trivial | exact h.elim

theorem waitsAfter_of_free (log : List Asked) {op : Op} (h : op.IsFree) : op.WaitsAfter kind log := by
  cases op <;> first | exact trivial | exact h.elim

theorem sendUpTo_waitsAfter {a : Address} {m : Message} (hkind : kind a m.encode)
    (attempts left : Nat) (t : Ticket) :
    (n.sendUpTo a m attempts left t).run.Obeys (Op.WaitsAfter kind) log := by
  induction left generalizing t log with
  | zero => exact ⟨trivial, fun _ => trivial⟩
  | succ left ih =>
    refine ⟨trivial, fun sent => ?_⟩
    cases sent with
    | false => exact ⟨trivial, fun _ => trivial⟩
    | true =>
      refine ⟨trivial, fun start => ⟨⟨a, m.encode, ?_, hkind⟩, fun wait => ?_⟩⟩
      · rw [List.append_assoc]
        exact lastSent_transmit log a m.encode start
      · cases wait with
        | reply r => exact (validate_within n a m r).obeys fun log _ => waitsAfter_of_lookup log
        | swept => exact ⟨trivial, fun u => ih u⟩
        | silence => exact ih t

theorem exchange_waitsAfter {a : Address} {m : Message} (hkind : kind a (n.prepare m).encode) :
    (n.exchange a m).run.Obeys (Op.WaitsAfter kind) log := by
  refine Attempt.obeys_bind (Attempt.obeys_lift ?_) fun attempts _ _ => ⟨trivial, fun t => ?_⟩
  · cases n.settings.attempts with
    | ok attempts => exact trivial
    | error cause => exact ⟨trivial, fun answer => answer.elim⟩
  · exact sendUpTo_waitsAfter hkind attempts attempts t

def SaysHello (_ : Address) (datagram : Bytes) : Prop :=
  ∃ m : Message, m.type = .hello ∧ datagram = m.encode

theorem greet_waitsAfter (n : Node) (a : Address) :
    (n.greet a).run.Obeys (Op.WaitsAfter SaysHello) log := by
  refine ⟨trivial, fun id => ?_⟩
  apply Attempt.obeys_bind (Attempt.obeys_ofExcept _)
  intro m made hmade
  obtain ⟨rfl, hm⟩ := after_done_iff.mp hmade
  have htype := hello_type (Except.mapError_eq_ok_iff.mp (Proc.done.inj hm).symm)
  apply Attempt.obeys_bind
  · exact exchange_waitsAfter ⟨n.prepare m, (n.prepare_type m).trans htype, rfl⟩
  · intro reply _ _
    exact Attempt.obeys_bind (Attempt.obeys_ofExcept _) fun _ _ _ => ⟨trivial, fun _ => trivial⟩

theorem reach_waitsAfter (n : Node) (peer : String) (a : Address) :
    (n.reach peer a).run.Obeys (Op.WaitsAfter SaysHello) log :=
  reach_obeys (fun log _ => waitsAfter_of_free log) (fun a _ => greet_waitsAfter n a)
    (fun _ _ _ _ => trivial) peer a log

end Node

/-! The one answer that a request takes. -/

theorem InVain.silent_log {n : Node} {a : Address} {m : Message} {count : Nat} {t u : Ticket}
    {log : List Asked} (h : InVain n a m count t log u) : Silent log := by
  induction h with
  | none => exact silent_nil
  | silent _ ih => exact .cons rfl (.cons rfl (.cons rfl ih))
  | swept _ ih => exact .cons rfl (.cons rfl (.cons rfl (.cons rfl ih)))

theorem Dead.silent_log {n : Node} {a : Address} {m : Message} {log : List Asked}
    {cause : RequestError} (h : Dead n a m log cause) : Silent log := by
  cases h with
  | noReply limit tried => exact .cons rfl (tried.silent_log.append (.cons rfl silent_nil))
  | unsent tried => exact .cons rfl (tried.silent_log.append (.cons rfl (.cons rfl silent_nil)))

theorem silent_of_lookups {log : List Asked} (h : ∀ asked ∈ log, asked.op.IsLookup) : Silent log := by
  intro asked hmem
  have hlookup := h asked hmem
  obtain ⟨op, answer⟩ := asked
  cases op <;> first | rfl | exact hlookup.elim

/-- In a dialogue that goes on where another ends, a request was answered once. The reply passed by itself,
and its sender was checked next. -/
structure OnlyAnswer (n : Node) (m : Message) (before log : List Asked) (a : Address) (r : Message) :
    Prop where
  answered : Answered before log a (n.prepare m).encode r
  only : ∀ b x, Answered before log b (n.prepare m).encode x → b = a ∧ x = r
  checked : Node.checkReply m r = .ok ()
  accepted : ∃ check, Accepted n a m.id r check log

section

variable {n : Node} {m r : Message} {a : Address} {before log first more : List Asked}

theorem OnlyAnswer.later (h : OnlyAnswer n m (before ++ first) log a r)
    (hfirst : ∀ b x, ¬ Answered before first b (n.prepare m).encode x) :
    OnlyAnswer n m before (first ++ log) a r where
  answered := answered_append.mpr (.inr h.answered)
  only b x hx := by
    rcases answered_append.mp hx with hx | hx
    · exact absurd hx (hfirst b x)
    · exact h.only b x hx
  checked := h.checked
  accepted := h.accepted.imp fun _ hcheck => hcheck.later first

theorem OnlyAnswer.earlier (h : OnlyAnswer n m before log a r) (hmore : Silent more) :
    OnlyAnswer n m before (log ++ more) a r where
  answered := answered_append.mpr (.inl h.answered)
  only b x hx := by
    rcases answered_append.mp hx with hx | hx
    · exact h.only b x hx
    · exact absurd hx hmore.not_answered
  checked := h.checked
  accepted := h.accepted.imp fun _ hcheck => hcheck.earlier more

theorem onlyAnswer_of_exchange (h : (n.exchange a m).run.After log (.done (.ok r)))
    (before : List Asked) : OnlyAnswer n m before log a r := by
  have hchecked := Node.exchange_checked h
  have haccepted := Node.exchange_after h
  obtain ⟨count, t, u, vain, start, check, rfl, htried, hsender⟩ := (Node.exchange_inv h).replied
  let early : List Asked := ⟨.register (a, m.id), t⟩ :: vain ++
    [⟨.transmit a (n.prepare m).encode, true⟩, ⟨.now, start⟩]
  have hsilent : Silent early :=
    .append (.cons rfl htried.silent_log) (.cons rfl (.cons rfl silent_nil))
  have hlookups := silent_of_lookups (hsender.within (n.checkSender_within a r)).2.1
  have hlast : lastSent (before ++ early) = some (a, (n.prepare m).encode) := by
    rw [← List.append_assoc]
    exact lastSent_transmit _ a _ start
  have hsplit : ⟨.register (a, m.id), t⟩ :: (vain ++ ⟨.transmit a (n.prepare m).encode, true⟩ ::
      ⟨.now, start⟩ :: ⟨.awaitReply u (start + n.settings.replyTimeout), .reply r⟩ :: check) =
      early ++ ⟨.awaitReply u (start + n.settings.replyTimeout), .reply r⟩ :: check := by
    simp [early]
  rw [hsplit] at haccepted ⊢
  have hbetween {b : Address} {y : Bytes} {x : Message} :
      Answered before (early ++ ⟨.awaitReply u (start + n.settings.replyTimeout), .reply r⟩ :: check)
        b y x ↔ some r = some x ∧ some (a, (n.prepare m).encode) = some (b, y) := by
    rw [← hlast]
    exact answered_between_iff hsilent hlookups
  refine ⟨hbetween.mpr ⟨rfl, rfl⟩, fun b x hx => ?_, hchecked, haccepted⟩
  obtain ⟨hr, hsent⟩ := hbetween.mp hx
  cases hr
  cases hsent
  exact ⟨rfl, rfl⟩

theorem encode_inj {x : Message} (h : m.encode = x.encode) : m = x := by
  have hdecoded := Message.ofDatagram_encode m
  rw [h, Message.ofDatagram_encode] at hdecoded
  exact (Except.ok.inj hdecoded).symm

theorem not_answered_of_reach (hm : m.type ≠ .hello) {peer : String} {p : Proc (Except RequestError Bool)}
    (h : (n.reach peer a).run.After log p) (b : Address) (x : Message) :
    ¬ Answered before log b (n.prepare m).encode x := by
  intro hanswered
  obtain ⟨hello, htype, hsame⟩ := kind_of_answered (Node.reach_waitsAfter n peer a) h hanswered
  rw [← encode_inj hsame, n.prepare_type] at htype
  exact hm htype

theorem silent_of_hard {cause : RequestError} (h : (n.exchange a m).run.After log (.done (.error cause)))
    (hhard : cause.isHard = true) : Silent log :=
  ((Node.exchange_inv h).dead hhard).silent_log

theorem sendToKnown_answers {peer : String} {known : List Address} {found : Option Message}
    (h : (n.sendToKnown peer m known).run.After log (.done (.ok found))) (before : List Asked) :
    (found = none → Silent log) ∧ ∀ r, found = some r → ∃ a, OnlyAnswer n m before log a r := by
  induction known generalizing log before with
  | nil =>
    obtain ⟨rfl, hnone⟩ := after_done_iff.mp h
    cases hnone
    exact ⟨fun _ => silent_nil, nofun⟩
  | cons a rest ih =>
    obtain ⟨first, outcome, second, rfl, hexchange, hrest⟩ := Attempt.after_bind_ok h
    have hexchange := Attempt.after_outcome hexchange
    cases outcome with
    | ok reply =>
      obtain ⟨rfl, hr⟩ := after_done_iff.mp hrest
      cases hr
      refine ⟨nofun, fun r hr => ?_⟩
      cases hr
      exact ⟨a, (onlyAnswer_of_exchange hexchange before).earlier silent_nil⟩
    | error cause =>
      dsimp only at hrest
      split at hrest
      · rename_i hhard
        have hsilent := silent_of_hard hexchange hhard
        obtain ⟨_, later, rfl, hlater⟩ := after_ask_done_iff.mp hrest
        obtain ⟨hnone, hsome⟩ := ih hlater (before ++ first ++ [⟨.evictPeer peer a, ()⟩])
        refine ⟨fun hfound => hsilent.append (.cons rfl (hnone hfound)), fun r hr => ?_⟩
        obtain ⟨b, hb⟩ := hsome r hr
        have hevicted : Silent [(⟨.evictPeer peer a, ()⟩ : Asked)] := .cons rfl silent_nil
        exact ⟨b, (hb.later fun _ _ => hevicted.not_answered).later fun _ _ => hsilent.not_answered⟩
      · cases (after_done_iff.mp hrest).2

theorem sendToFresh_answers (hm : m.type ≠ .hello) {peer : String} {tried fresh : List Address}
    (h : (n.sendToFresh peer m tried fresh).run.After log (.done (.ok r))) (before : List Asked) :
    ∃ a, OnlyAnswer n m before log a r := by
  induction fresh generalizing tried log before with
  | nil => cases (after_done_iff.mp h).2
  | cons a rest ih =>
    unfold Node.sendToFresh at h
    split at h
    · exact ih h before
    · obtain ⟨first, reached, second, rfl, hreach, hreached⟩ := Attempt.after_bind_ok h
      have hfirst (b : Address) (x : Message) : ¬ Answered before first b (n.prepare m).encode x :=
        not_answered_of_reach hm hreach b x
      split at hreached
      · obtain ⟨b, hb⟩ := ih hreached (before ++ first)
        exact ⟨b, hb.later hfirst⟩
      · obtain ⟨asking, outcome, last, rfl, hexchange, hrest⟩ := Attempt.after_bind_ok hreached
        have hexchange := Attempt.after_outcome hexchange
        cases outcome with
        | ok reply =>
          obtain ⟨_, later, rfl, hlater⟩ := after_ask_done_iff.mp hrest
          obtain ⟨rfl, hr⟩ := after_done_iff.mp hlater
          cases hr
          have honly := onlyAnswer_of_exchange hexchange (before ++ first)
          exact ⟨a, (honly.earlier (.cons rfl silent_nil)).later hfirst⟩
        | error cause =>
          dsimp only at hrest
          split at hrest
          · rename_i hhard
            have hsilent := silent_of_hard hexchange hhard
            obtain ⟨_, later, rfl, hlater⟩ := after_ask_done_iff.mp hrest
            obtain ⟨b, hb⟩ := ih hlater (before ++ first ++ asking ++ [⟨.evictPeer peer a, ()⟩])
            have hevicted : Silent [(⟨.evictPeer peer a, ()⟩ : Asked)] := .cons rfl silent_nil
            have hlast := hb.later fun _ _ => hevicted.not_answered
            exact ⟨b, (hlast.later fun _ _ => hsilent.not_answered).later hfirst⟩
          · cases (after_done_iff.mp hrest).2

theorem request_answers (hm : m.type ≠ .hello) {peer : String}
    (h : (n.request peer m).run.After log (.done (.ok r))) (before : List Asked) :
    ∃ a, OnlyAnswer n m before log a r := by
  obtain ⟨known, rest, rfl, hknown⟩ := after_ask_done_iff.mp h
  obtain ⟨first, reply, second, rfl, hsends, hrest⟩ := Attempt.after_bind_ok hknown
  have hasked : Silent [(⟨.knownAddresses peer, known⟩ : Asked)] := .cons rfl silent_nil
  obtain ⟨hnone, hsome⟩ := sendToKnown_answers hsends (before ++ [⟨.knownAddresses peer, known⟩])
  cases reply with
  | some reply =>
    obtain ⟨rfl, hr⟩ := after_done_iff.mp hrest
    cases hr
    obtain ⟨a, ha⟩ := hsome r rfl
    exact ⟨a, (ha.earlier silent_nil).later fun _ _ => hasked.not_answered⟩
  | none =>
    obtain ⟨found, later, rfl, hfound⟩ := after_ask_done_iff.mp hrest
    cases found with
    | ok fresh =>
      have hlisted : Silent [(⟨.findAddresses peer, .ok fresh⟩ : Asked)] := .cons rfl silent_nil
      obtain ⟨a, ha⟩ := sendToFresh_answers hm hfound
        (before ++ [⟨.knownAddresses peer, known⟩] ++ first ++ [⟨.findAddresses peer, .ok fresh⟩])
      have hsecond := ha.later fun _ _ => hlisted.not_answered
      have hfirst := hsecond.later fun _ _ => (hnone rfl).not_answered
      exact ⟨a, hfirst.later fun _ _ => hasked.not_answered⟩
    | error cause => cases (after_done_iff.mp hfound).2

/-- A reply is the content with a hash, and reads as this datum. -/
structure Verified (hash : Digest) (d : Datum) (r : Message) : Prop where
  type : r.type = .datum
  stated : r.body.take 32 = hash.toList
  digest : Sha256.digest (r.body.drop 32) = hash
  parsed : Datum.parse r.body = .ok d
  hash : d.hash = hash
  inBounds : d.content.InBounds

theorem verified_of_checkReply {id : UInt32} {hash : Digest} {d : Datum}
    (hchecked : Node.checkReply (.ofDigest id .getDatum hash) r = .ok ()) (htype : r.type = .datum)
    (hparsed : Datum.parse r.body = .ok d) : Verified hash d r := by
  have hstated : Datum.checkIntegrity r.body = .ok () ∧ hash.toList = r.body.take 32 := by
    unfold Node.checkReply at hchecked
    rw [htype] at hchecked
    split at hchecked
    · contradiction
    · split at hchecked
      · contradiction
      · rw [if_pos rfl] at hchecked
        split at hchecked
        · contradiction
        · rename_i hintegrity
          split at hchecked
          · rename_i hsame
            exact ⟨hintegrity, hsame⟩
          · contradiction
  obtain ⟨hintegrity, hsame⟩ := hstated
  have hdigest := (Datum.checkIntegrity_eq_ok_iff.mp hintegrity).1
  obtain ⟨payload, hbody, hread⟩ := Datum.parse_eq_ok hparsed
  have htake : r.body.take 32 = d.hash.toList := by
    rw [hbody]
    exact List.take_left' d.hash.length_toList
  exact {
    type := htype
    stated := hsame.symm
    digest := Vector.toList_inj.mp (hdigest.trans hsame.symm)
    parsed := hparsed
    hash := Vector.toList_inj.mp (htake.symm.trans hsame.symm)
    inBounds := (Datum.payload_of_readContent hread).2.1 }

/-- A download that came to a datum asked for it by a drawn id and got one answer, the content itself. -/
theorem download_answers {peer : String} {hash : Digest} {d : Datum}
    (h : (n.download peer hash).run.After log (.done (.ok d))) :
    ∃ id rest a r, log = ⟨.drawId, id⟩ :: rest ∧
      OnlyAnswer n (.ofDigest id .getDatum hash) [] log a r ∧ Verified hash d r := by
  obtain ⟨id, rest, rfl, hrest⟩ := after_ask_done_iff.mp h
  obtain ⟨first, r, second, rfl, hrequest, hread⟩ := Attempt.after_bind_ok hrest
  have hdrawn : Silent [(⟨.drawId, id⟩ : Asked)] := .cons rfl silent_nil
  obtain ⟨a, ha⟩ := request_answers (m := .ofDigest id .getDatum hash) nofun hrequest
    ([] ++ [⟨.drawId, id⟩])
  have hparsed : second = [] ∧ r.type = .datum ∧ Datum.parse r.body = .ok d := by
    cases htype : r.type <;> simp only [htype] at hread
    case datum =>
      obtain ⟨hsecond, hdone⟩ := after_done_iff.mp hread
      exact ⟨hsecond, rfl, Except.mapError_eq_ok_iff.mp (Proc.done.inj hdone).symm⟩
    all_goals cases (after_done_iff.mp hread).2
  obtain ⟨rfl, htype, hparsed⟩ := hparsed
  have honly := (ha.earlier silent_nil).later fun _ _ => hdrawn.not_answered
  exact ⟨id, first ++ [], a, r, rfl, honly, verified_of_checkReply ha.checked htype hparsed⟩

end

namespace Engine

/-- A download that ends with a datum was answered. Every reply that came for it, from whatever address it
was sent to, was heard from there, is the content that the hash stands for, and passed the check of its
sender. -/
theorem verified_download (n : Node) (network : Network) (directory : Directory) (disk : Disk)
    {before after : List Event} {peer : String} {hash : Digest} {d : Datum} :
    let e := ((start n network directory disk).steps n before).1
    let run := .call (.download peer hash) :: after
    let log := e.dialogue n e.nextTask run
    .ended e.nextTask (.datum d) ∈ (e.steps n run).2 →
      ∃ id, log.head? = some ⟨.drawId, id⟩ ∧
        let ask := n.prepare (.ofDigest id .getDatum hash)
        (∃ a r, Answered [] log a ask.encode r) ∧
        ∀ a r, Answered [] log a ask.encode r → Heard (before ++ run) a r ∧ Verified hash d r ∧
          ∃ check, Accepted n a id r check log := by
  intro e run log hended
  obtain ⟨path, outcome, rest, hlog, hdownload, hdone⟩ :=
    Proc.after_bind_done_iff.mp (after_of_call_ended hended)
  obtain ⟨rfl, ho⟩ := Proc.after_done_iff.mp hdone
  cases outcome with
  | error cause => cases ho
  | ok found =>
    cases ho
    rw [List.append_nil] at hlog
    have hpath : log = path := hlog
    obtain ⟨id, rest, a, r, hdrawn, honly, hverified⟩ := download_answers hdownload
    have hsub : log ⊆ (start n network directory disk).dialogue n e.nextTask (before ++ run) := by
      rw [dialogue_append]
      exact List.subset_append_right _ _
    rw [← hpath] at honly hdrawn
    refine ⟨id, by rw [hdrawn]; rfl, ⟨a, r, honly.answered⟩, fun b x hx => ?_⟩
    obtain ⟨rfl, rfl⟩ := honly.only b x hx
    obtain ⟨check, haccepted⟩ := honly.accepted
    exact ⟨heard_of_accepted (fresh_start n network directory disk) haccepted hsub, hverified, check, haccepted⟩

/-- Bob is asked for a chunk of two bytes, and sends it. -/
theorem verified_download_of_chunk :
    let a : Address := .v4 ⟨#v[10, 0, 0, 1], 1000⟩
    let hash : Digest := #v[230, 144, 128, 37, 205, 80, 206, 56, 15, 238, 207, 234, 237, 183, 11, 162,
      194, 247, 1, 204, 94, 49, 75, 123, 112, 239, 94, 28, 4, 176, 236, 88]
    let r : Message := ⟨0, .datum, hash.toList ++ [0, 104, 105], none, by decide⟩
    let e := ((start .plain .ip4 PeerTable.empty.directory ⟨⟨[]⟩⟩).steps .plain [.register "bob" a]).1
    let run := .call (.download "bob" hash) :: (List.replicate 5 (.run 0) ++
      .receive a r.encode :: List.replicate 7 (.run 0))
    let log := e.dialogue .plain e.nextTask run
    .ended e.nextTask (.datum ⟨hash, .chunk [104, 105]⟩) ∈ (e.steps .plain run).2 ∧
      ∃ id, log.head? = some ⟨.drawId, id⟩ ∧
        let ask := Node.plain.prepare (.ofDigest id .getDatum hash)
        (∃ b x, Answered [] log b ask.encode x) ∧
        ∀ b x, Answered [] log b ask.encode x → Heard (.register "bob" a :: run) b x ∧
          Verified hash ⟨hash, .chunk [104, 105]⟩ x ∧ ∃ check, Accepted .plain b id x check log := by
  intro a hash r e run log
  have hended : .ended e.nextTask (.datum ⟨hash, .chunk [104, 105]⟩) ∈ (e.steps .plain run).2 := by
    decide +kernel
  exact ⟨hended, verified_download .plain .ip4 PeerTable.empty.directory ⟨⟨[]⟩⟩ hended⟩

end Engine
end TreeShare
