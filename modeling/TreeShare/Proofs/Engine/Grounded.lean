import TreeShare.Engine.Call
import TreeShare.Engine.Heartbeat
import TreeShare.Proofs.Engine.Accepted
import TreeShare.Proofs.Except

/-! On what grounds the programs of a node ask what they ask. No program waits for a ticket it was not
given, cancels what it did not register, remembers a key that the directory did not tell it, adds to the
book what it was not told, or begins a punch unless the server said so. Main statements: `run_grounded`,
`serve_grounded`, `punch_grounded` and `keepAliveRound_grounded`. -/
namespace TreeShare

/-- A question that changes neither the book nor the punches, and is justified. -/
def Op.Plain (log : List Asked) : Op → Prop
  | registerPeer .. | evictPeer .. | beginPunch _ => False
  | op => op.Justified log

/-- A message came from an address, for all that a task knows: it serves the message, or a wait for a
reply from there ended with it. -/
inductive CameFrom (served : Option (Address × Message)) (log : List Asked) (a : Address)
    (m : Message) : Prop
  | served (h : served = some (a, m))
  | reply (id : UInt32) (t : Ticket) (deadline : Nat) (registered : ⟨.register (a, id), t⟩ ∈ log)
      (told : ⟨.awaitReply t deadline, .reply m⟩ ∈ log)

inductive Found (log : List Asked) (peer : String) (a : Address) : Prop
  | listed {found : List Address} (h : ⟨.findAddresses peer, .ok found⟩ ∈ log) (mem : a ∈ found)
  | known {known : List Address} (h : ⟨.knownAddresses peer, known⟩ ∈ log) (mem : a ∈ known)
  | inBook (h : ⟨.inBook peer a, true⟩ ∈ log)

def Introduced (n : Node) (served : Option (Address × Message)) (log : List Asked) (peer : String)
    (a : Address) : Prop :=
  ∃ m check, CameFrom served log a m ∧ m.claimedName? = some peer ∧ check ⊆ log ∧
    (n.checkSender a m).After check (.done (.ok ()))

/-- What is added to the book was found or introduced itself, and a punch is begun when a message says so
that the task serves and that came from the server. -/
def Op.Grounded (n : Node) (served : Option (Address × Message)) (log : List Asked) : Op → Prop
  | registerPeer peer a => Found log peer a ∨ Introduced n served log peer a
  | beginPunch a => ∃ source m e, served = some (source, m) ∧
      Request.ofMessage? m = some (.punch e) ∧ a = .v4 e ∧ Found log n.settings.serverName source
  | op => op.Justified log

theorem Op.Plain.grounded {n : Node} {served : Option (Address × Message)} {log : List Asked}
    {op : Op} (h : op.Plain log) : op.Grounded n served log := by
  cases op <;> first | exact h | exact h.elim

theorem Op.Grounded.justified {n : Node} {served : Option (Address × Message)} {log : List Asked}
    {op : Op} (h : op.Grounded n served log) : op.Justified log := by
  cases op <;> first | exact trivial | exact h

theorem Found.mono {log more : List Asked} (hsub : log ⊆ more) {peer : String} {a : Address}
    (h : Found log peer a) : Found more peer a := by
  cases h with
  | listed h mem => exact .listed (hsub h) mem
  | known h mem => exact .known (hsub h) mem
  | inBook h => exact .inBook (hsub h)

open Proc

section

variable {log : List Asked}

namespace Node

/-! Programs that ask plain questions only. -/

theorem senderName_plain (source : Address) (m : Message) :
    (senderName source m).Obeys Op.Plain log := by
  unfold senderName
  split
  · exact trivial
  · exact obeys_perform trivial

theorem keyOf_plain (peer : String) : (keyOf peer).Obeys Op.Plain log := by
  refine ⟨trivial, fun cached => ?_⟩
  cases cached with
  | some key => exact trivial
  | none =>
    refine ⟨trivial, fun found => ?_⟩
    cases found with
    | ok key =>
      have hfound : ⟨.findKey peer, .ok key⟩ ∈ log ++ [⟨.cachedKey peer, none⟩] ++
          [⟨.findKey peer, .ok key⟩] := by simp
      exact ⟨hfound, fun _ => trivial⟩
    | error e => exact trivial

theorem checkSender_plain (n : Node) (source : Address) (m : Message) :
    (n.checkSender source m).Obeys Op.Plain log := by
  apply (senderName_plain source m).bind
  intro name _ _
  cases name with
  | none => exact trivial
  | some peer =>
    apply (keyOf_plain peer).bind
    intro key _ _
    rcases key with _ | _ | key <;> exact trivial

theorem validate_plain (n : Node) (source : Address) (sent reply : Message) :
    (n.validate source sent reply).run.Obeys Op.Plain log := by
  apply Attempt.obeys_bind (Attempt.obeys_ofExcept _)
  intro _ _ _
  refine Attempt.obeys_bind ?_ fun _ _ _ => trivial
  exact (checkSender_plain n source reply).bind fun _ _ _ => trivial

theorem sendUpTo_plain (n : Node) (target : Address) (m : Message) (attempts left : Nat)
    {t : Ticket} (ht : ⟨.register (target, m.id), t⟩ ∈ log) :
    (n.sendUpTo target m attempts left t).run.Obeys Op.Plain log := by
  induction left generalizing t log with
  | zero => exact ⟨⟨t, ht⟩, fun _ => trivial⟩
  | succ left ih =>
    refine ⟨trivial, fun sent => ?_⟩
    cases sent with
    | false => exact ⟨⟨t, List.mem_append_left _ ht⟩, fun _ => trivial⟩
    | true =>
      refine ⟨trivial, fun start => ⟨⟨(target, m.id), by simp [ht]⟩, fun wait => ?_⟩⟩
      cases wait with
      | reply r => exact validate_plain n target m r
      | swept => exact ⟨trivial, fun _ => ih (by simp)⟩
      | silence => exact ih (by simp [ht])

theorem orHalt_plain {α : Type} (r : Except Overflow α) :
    (orHalt r).Obeys Op.Plain log := by
  cases r with
  | ok a => exact trivial
  | error cause => exact ⟨trivial, fun answer => answer.elim⟩

theorem exchange_plain (n : Node) (target : Address) (m : Message) :
    (n.exchange target m).run.Obeys Op.Plain log := by
  apply Attempt.obeys_bind (Attempt.obeys_lift (orHalt_plain _))
  intro attempts _ _
  exact ⟨trivial, fun t => sendUpTo_plain n target (n.prepare m) attempts attempts (by simp)⟩

theorem sendToAll_plain (datagram : Bytes) (targets : List Address) :
    (sendToAll datagram targets).Obeys Op.Plain log := by
  induction targets generalizing log with
  | nil => exact trivial
  | cons a rest ih => exact ⟨trivial, fun _ => ih⟩

theorem serverAddresses_plain (n : Node) : n.serverAddresses.Obeys Op.Plain log := by
  refine ⟨trivial, fun found => ?_⟩
  cases found with
  | ok found => exact trivial
  | error e => exact obeys_perform trivial

theorem isServer_plain (n : Node) (a : Address) : (n.isServer a).Obeys Op.Plain log := by
  refine ⟨trivial, fun known => ?_⟩
  cases known with
  | true => exact trivial
  | false => exact (serverAddresses_plain n).bind fun _ _ _ => trivial

theorem post_plain (n : Node) (target : Address) (m : Message) :
    (n.post target m).Obeys Op.Plain log :=
  ⟨trivial, fun _ => trivial⟩

theorem relayTo_plain (n : Node) (initiator : Address) (target : Endpoint) :
    (n.relayTo initiator target).Obeys Op.Plain log := by
  cases initiator with
  | v4 e =>
    unfold relayTo
    dsimp only
    split
    · exact ⟨trivial, fun _ => ⟨trivial, fun _ => trivial⟩⟩
    · exact trivial
  | v6 => exact trivial

end Node

theorem grounded_of_plain {α : Type} {n : Node} {served : Option (Address × Message)} {p : Proc α}
    (h : p.Obeys Op.Plain log) : p.Obeys (Op.Grounded n served) log :=
  h.imp fun _ _ hop => hop.grounded

end

/-! What a node was told before it goes on. -/

namespace Node

variable {n : Node} {a : Address} {log : List Asked}

theorem validate_checked {sent told r : Message}
    (h : (n.validate a sent told).run.After log (.done (.ok r))) : checkReply sent r = .ok () := by
  obtain rfl := (validate_after h).1
  obtain ⟨first, _, rest, rfl, hreply, -⟩ := Attempt.after_bind_ok h
  exact (Proc.done.inj (after_done_iff.mp hreply).2).symm

theorem sendUpTo_checked {m r : Message} {attempts left : Nat} {t : Ticket}
    (h : (n.sendUpTo a m attempts left t).run.After log (.done (.ok r))) : checkReply m r = .ok () := by
  induction left generalizing t log with
  | zero =>
    obtain ⟨_, rest, rfl, hrest⟩ := after_ask_done_iff.mp h
    cases (after_done_iff.mp hrest).2
  | succ left ih =>
    obtain ⟨sent, rest, rfl, hsent⟩ := after_ask_done_iff.mp h
    cases sent with
    | false =>
      obtain ⟨_, rest, rfl, hrest⟩ := after_ask_done_iff.mp hsent
      cases (after_done_iff.mp hrest).2
    | true =>
      obtain ⟨start, rest, rfl, htimed⟩ := after_ask_done_iff.mp hsent
      obtain ⟨wait, rest, rfl, hwaited⟩ := after_ask_done_iff.mp htimed
      cases wait with
      | reply told => exact validate_checked hwaited
      | swept =>
        obtain ⟨u, rest, rfl, hrest⟩ := after_ask_done_iff.mp hwaited
        exact ih hrest
      | silence => exact ih hwaited

theorem exchange_checked {m r : Message} (h : (n.exchange a m).run.After log (.done (.ok r))) :
    checkReply m r = .ok () := by
  obtain ⟨first, attempts, rest, rfl, -, hrest⟩ := Attempt.after_bind_ok h
  obtain ⟨t, rest, rfl, hsends⟩ := after_ask_done_iff.mp hrest
  rw [← checkReply_congr (n.prepare_type m) (n.prepare_body m) rfl rfl]
  exact sendUpTo_checked hsends

theorem type_of_checkReply {sent r : Message} (hsent : sent.type = .hello)
    (h : checkReply sent r = .ok ()) : r.type = .helloReply := by
  have hanswers : r.type.answers .hello = true := by
    rw [← hsent]
    unfold checkReply at h
    split at h
    · contradiction
    · split at h
      · contradiction
      · simp_all
  revert hanswers
  cases r.type <;> decide

theorem claimedName?_of_parse {m : Message} (ht : m.type.isHello = true) {hello : Hello}
    (h : Hello.parse m.body = .ok hello) : m.claimedName? = some hello.peer := by
  unfold Message.claimedName?
  rw [if_pos ht, h]

theorem hello_of_request {m : Message} {h : Hello} (hr : Request.ofMessage? m = some (.hello h)) :
    m.type = .hello ∧ Hello.parse m.body = .ok h := by
  unfold Request.ofMessage? at hr
  cases ht : m.type with
  | hello =>
    simp only [ht] at hr
    cases hparse : Hello.parse m.body <;> simp_all [Except.toOption]
  | _ => simp [ht] at hr

theorem claimedName?_of_request {m : Message} {hello : Hello}
    (h : Request.ofMessage? m = some (.hello hello)) : m.claimedName? = some hello.peer := by
  obtain ⟨ht, hparse⟩ := hello_of_request h
  apply claimedName?_of_parse _ hparse
  rw [ht]
  rfl

theorem hello_type {id : UInt32} {t : MessageType} {name : String} {m : Message}
    (h : Message.hello id t name = .ok m) : m.type = t := by
  unfold Message.hello Message.new at h
  split at h
  · split at h <;> cases h
    rfl
  · cases h

theorem serverAddresses_after {servers : List Address}
    (h : n.serverAddresses.After log (.done servers)) (ha : a ∈ servers) :
    Found log n.settings.serverName a := by
  obtain ⟨found, rest, rfl, hrest⟩ := after_ask_done_iff.mp h
  cases found with
  | ok found =>
    cases (after_done_iff.mp hrest).2
    exact .listed List.mem_cons_self (List.mem_filter.mp ha).1
  | error e =>
    obtain ⟨known, rest, rfl, hknown⟩ := after_ask_done_iff.mp hrest
    cases (after_done_iff.mp hknown).2
    exact .known (by simp) ha

theorem isServer_after (h : (n.isServer a).After log (.done true)) :
    Found log n.settings.serverName a := by
  obtain ⟨known, rest, rfl, hrest⟩ := after_ask_done_iff.mp h
  cases known with
  | true => exact .inBook List.mem_cons_self
  | false =>
    have hasked : (n.serverAddresses.bind fun servers => .done (servers.contains a)).After rest
        (.done true) := hrest
    obtain ⟨first, servers, second, rfl, hservers, hsame⟩ := after_bind_done_iff.mp hasked
    have ha : a ∈ servers := by simpa using (Proc.done.inj (after_done_iff.mp hsame).2).symm
    exact (serverAddresses_after hservers ha).mono fun x hx => by simp [hx]

end Node
/-! Grounds. -/

namespace Node

variable {log : List Asked}

theorem introduced_of_accepted {n : Node} {a : Address} {id : UInt32} {r : Message}
    {check more : List Asked} (h : Accepted n a id r check more) {peer : String}
    (hclaim : r.claimedName? = some peer) : Introduced n none (log ++ more) peer a := by
  obtain ⟨past, t, deadline, later, rfl, ht, hcheck⟩ := h
  exact ⟨r, check, .reply id t deadline (by simp [ht]) (by simp), hclaim, fun x hx => by simp [hx],
    hcheck⟩

theorem greet_grounded (n : Node) (target : Address) :
    (n.greet target).run.Obeys (Op.Grounded n none) log := by
  refine ⟨trivial, fun id => ?_⟩
  apply Attempt.obeys_bind (Attempt.obeys_ofExcept _)
  intro m made hmade
  apply Attempt.obeys_bind (grounded_of_plain (exchange_plain n target m))
  intro reply more hreply
  apply Attempt.obeys_bind (Attempt.obeys_ofExcept _)
  intro hello read hread
  obtain ⟨rfl, hm⟩ := after_done_iff.mp hmade
  obtain ⟨rfl, hparsed⟩ := after_done_iff.mp hread
  have htype := hello_type (Except.mapError_eq_ok_iff.mp (Proc.done.inj hm).symm)
  have hreplyType := type_of_checkReply htype (exchange_checked hreply)
  have hclaim : reply.claimedName? = some hello.peer := by
    apply claimedName?_of_parse
    · rw [hreplyType]
      rfl
    · exact Except.mapError_eq_ok_iff.mp (Proc.done.inj hparsed).symm
  obtain ⟨check, haccepted⟩ := exchange_after hreply
  rw [List.append_nil]
  exact ⟨.inr (introduced_of_accepted haccepted hclaim), fun _ => trivial⟩

theorem traverseRounds_grounded (n : Node) (peer : String) (target : Address) (request : Message)
    (rounds : Nat) :
    (n.traverseRounds peer target request rounds).run.Obeys (Op.Grounded n none) log := by
  induction rounds generalizing log with
  | zero => exact trivial
  | succ rounds ih =>
    apply Attempt.obeys_bind (Attempt.obeys_lift (grounded_of_plain (serverAddresses_plain n)))
    intro servers _ _
    apply Attempt.obeys_bind (Attempt.obeys_lift (grounded_of_plain (sendToAll_plain _ servers)))
    intro _ _ _
    apply Attempt.obeys_bind (Attempt.obeys_outcome (greet_grounded n target))
    intro r _ _
    cases r with
    | ok name => exact trivial
    | error e =>
      dsimp only
      split
      · exact trivial
      · refine ⟨trivial, fun known => ?_⟩
        cases known with
        | true => exact trivial
        | false => exact ih

theorem traverse_grounded (n : Node) (peer : String) (target : Address) :
    (n.traverse peer target).run.Obeys (Op.Grounded n none) log := by
  cases target with
  | v4 e => exact ⟨trivial, fun id => traverseRounds_grounded n peer (.v4 e) _ _⟩
  | v6 => exact trivial

theorem punchRounds_grounded (n : Node) (initiator : Address) (rounds : Nat) :
    (n.punchRounds initiator rounds).Obeys (Op.Grounded n none) log := by
  induction rounds generalizing log with
  | zero => exact trivial
  | succ rounds ih =>
    apply (greet_grounded n initiator).bind
    intro r _ _
    cases r with
    | ok name => exact trivial
    | error e =>
      dsimp only
      split
      · exact trivial
      · exact ih

theorem punch_grounded (n : Node) (initiator : Address) :
    (n.punch initiator).Obeys (Op.Grounded n none) log :=
  punchRounds_grounded n initiator _

theorem sendToKnown_grounded (n : Node) (peer : String) (m : Message) (known : List Address) :
    (n.sendToKnown peer m known).run.Obeys (Op.Grounded n none) log := by
  induction known generalizing log with
  | nil => exact trivial
  | cons a rest ih =>
    apply Attempt.obeys_bind (Attempt.obeys_outcome (grounded_of_plain (exchange_plain n a m)))
    intro r _ _
    cases r with
    | ok reply => exact trivial
    | error e =>
      dsimp only
      split
      · exact ⟨trivial, fun _ => ih⟩
      · exact trivial

theorem reach_grounded (n : Node) (peer : String) (a : Address) :
    (n.reach peer a).run.Obeys (Op.Grounded n none) log := by
  apply Attempt.obeys_bind (Attempt.obeys_outcome (greet_grounded n a))
  intro r _ _
  cases r with
  | ok name => exact trivial
  | error e =>
    dsimp only
    split
    · apply Attempt.obeys_bind (Attempt.obeys_outcome (traverse_grounded n peer a))
      intro r _ _
      cases r <;> exact trivial
    · exact trivial

theorem sendToFresh_grounded (n : Node) (peer : String) (m : Message) (tried fresh : List Address)
    (hfresh : ∀ a ∈ fresh, Found log peer a) :
    (n.sendToFresh peer m tried fresh).run.Obeys (Op.Grounded n none) log := by
  induction fresh generalizing tried log with
  | nil => exact trivial
  | cons a rest ih =>
    have hrest : ∀ more, ∀ b ∈ rest, Found (log ++ more) peer b := fun more b hb =>
      (hfresh b (List.mem_cons_of_mem _ hb)).mono (List.subset_append_left _ _)
    unfold sendToFresh
    split
    · exact ih tried fun b hb => hfresh b (List.mem_cons_of_mem _ hb)
    · apply Attempt.obeys_bind (reach_grounded n peer a)
      intro reached first _
      split
      · exact ih (a :: tried) (hrest first)
      · apply Attempt.obeys_bind (Attempt.obeys_outcome (grounded_of_plain (exchange_plain n a m)))
        intro r second _
        cases r with
        | ok reply =>
          have ha : Found (log ++ first ++ second) peer a :=
            (hfresh a List.mem_cons_self).mono fun x hx => by simp [hx]
          exact ⟨.inl ha, fun _ => trivial⟩
        | error e =>
          dsimp only
          split
          · refine ⟨trivial, fun _ => ih (a :: tried) ?_⟩
            rw [List.append_assoc, List.append_assoc]
            exact hrest _
          · exact trivial

theorem request_grounded (n : Node) (peer : String) (m : Message) :
    (n.request peer m).run.Obeys (Op.Grounded n none) log := by
  refine ⟨trivial, fun known => ?_⟩
  apply Attempt.obeys_bind (sendToKnown_grounded n peer m known)
  intro reply _ _
  cases reply with
  | some reply => exact trivial
  | none =>
    refine ⟨trivial, fun found => ?_⟩
    cases found with
    | ok fresh => exact sendToFresh_grounded n peer m known fresh fun a ha => .listed (by simp) ha
    | error e => exact trivial

theorem download_grounded (n : Node) (peer : String) (hash : Digest) :
    (n.download peer hash).run.Obeys (Op.Grounded n none) log := by
  refine ⟨trivial, fun id => ?_⟩
  apply Attempt.obeys_bind (request_grounded n peer _)
  intro reply _ _
  cases reply.type <;> exact trivial

theorem rootOf_grounded (n : Node) (peer : String) :
    (n.rootOf peer).run.Obeys (Op.Grounded n none) log := by
  refine ⟨trivial, fun own => ⟨trivial, fun id => ?_⟩⟩
  apply Attempt.obeys_bind (Attempt.obeys_outcome (request_grounded n peer _))
  intro asked _ _
  cases asked.bind statedRoot with
  | ok h => exact trivial
  | error e =>
    refine ⟨trivial, fun found => ?_⟩
    rcases found with _ | _ | h <;> exact trivial

theorem publicKeyOf_grounded (n : Node) (peer : String) :
    (n.publicKeyOf peer).run.Obeys (Op.Grounded n none) log := by
  refine ⟨trivial, fun id => ?_⟩
  exact Attempt.obeys_bind (request_grounded n peer _) fun reply _ _ => trivial

theorem run_grounded (n : Node) (c : Call) : (n.run c).Obeys (Op.Grounded n none) log := by
  cases c with
  | greet target => exact (greet_grounded n target).bind fun _ _ _ => trivial
  | send target m => exact (grounded_of_plain (exchange_plain n target m)).bind fun _ _ _ => trivial
  | request peer m => exact (request_grounded n peer m).bind fun _ _ _ => trivial
  | download peer hash => exact (download_grounded n peer hash).bind fun _ _ _ => trivial
  | rootOf peer => exact (rootOf_grounded n peer).bind fun _ _ _ => trivial
  | publicKeyOf peer => exact (publicKeyOf_grounded n peer).bind fun _ _ _ => trivial
  | traverse peer target => exact (traverse_grounded n peer target).bind fun _ _ _ => trivial

theorem greetServers_grounded (n : Node) (servers : List Address)
    (hservers : ∀ a ∈ servers, Found log n.settings.serverName a) :
    (n.greetServers servers).Obeys (Op.Grounded n none) log := by
  induction servers generalizing log with
  | nil => exact trivial
  | cons a rest ih =>
    have hlater : ∀ more, ∀ b ∈ a :: rest, Found (log ++ more) n.settings.serverName b :=
      fun more b hb => (hservers b hb).mono (List.subset_append_left _ _)
    apply (greet_grounded n a).bind
    intro r first _
    cases r with
    | ok name =>
      refine ⟨.inl (hlater first a List.mem_cons_self), fun _ => ih fun b hb => ?_⟩
      rw [List.append_assoc]
      exact hlater _ b (List.mem_cons_of_mem _ hb)
    | error e =>
      dsimp only
      split
      · refine ⟨trivial, fun _ => ih fun b hb => ?_⟩
        rw [List.append_assoc]
        exact hlater _ b (List.mem_cons_of_mem _ hb)
      · exact ih fun b hb => hlater first b (List.mem_cons_of_mem _ hb)

theorem keepAliveRound_grounded (n : Node) (due : Nat) :
    (n.keepAliveRound due).Obeys (Op.Grounded n none) log := by
  refine ⟨trivial, fun _ => ?_⟩
  apply (grounded_of_plain (serverAddresses_plain n)).bind
  intro servers more hservers
  apply greetServers_grounded n servers
  intro a ha
  exact (serverAddresses_after hservers ha).mono (List.subset_append_right _ _)

theorem answer_grounded (n : Node) (source : Address) {m : Message} {r : Request}
    (hr : Request.ofMessage? m = some r) {check : List Asked} (hsub : check ⊆ log)
    (hcheck : (n.checkSender source m).After check (.done (.ok ()))) :
    (n.answer source m.id r).Obeys (Op.Grounded n (some (source, m))) log := by
  cases r with
  | noOp => exact trivial
  | error => exact trivial
  | hello h =>
    have hclaim := claimedName?_of_request hr
    have hregister : (perform (.registerPeer h.peer source)).Obeys
        (Op.Grounded n (some (source, m))) log :=
      obeys_perform (.inr ⟨m, check, .served rfl, hclaim, hsub, hcheck⟩)
    unfold answer
    apply hregister.bind
    intro _ _ _
    split
    · exact grounded_of_plain (post_plain n source _)
    · exact trivial
  | publicKey => exact grounded_of_plain (post_plain n source _)
  | root => exact ⟨trivial, fun _ => grounded_of_plain (post_plain n source _)⟩
  | datum hash =>
    refine ⟨trivial, fun served => ?_⟩
    rcases served with _ | _ | reply <;> exact grounded_of_plain (post_plain n source _)
  | relay target => exact grounded_of_plain (relayTo_plain n source target)
  | punch initiator =>
    apply (grounded_of_plain (isServer_plain n source)).bind
    intro known more hknown
    cases known with
    | true =>
      have hserver : Found (log ++ more) n.settings.serverName source :=
        (isServer_after hknown).mono (List.subset_append_right _ _)
      exact obeys_perform ⟨source, m, initiator, rfl, hr, rfl, hserver⟩
    | false => exact trivial

theorem serve_grounded (n : Node) (source : Address) (m : Message) :
    (n.serve source m).Obeys (Op.Grounded n (some (source, m))) log := by
  unfold serve
  cases hr : Request.ofMessage? m with
  | none => exact trivial
  | some r =>
    apply (grounded_of_plain (checkSender_plain n source m)).bind
    intro verdict check hcheck
    cases verdict with
    | ok => exact answer_grounded n source hr (List.subset_append_right _ _) hcheck
    | error cause => exact trivial

end Node
end TreeShare
