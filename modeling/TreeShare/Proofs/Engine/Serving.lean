import TreeShare.Proofs.Engine.Checks
import TreeShare.Proofs.Engine.Runs
import TreeShare.Proofs.Publishing.Serving

/-! Requests for datums, from the publication to the datagram that answers. Main statement:
`served_content`. -/
namespace TreeShare

namespace Node

open Proc

def datumReply (hash : Digest) (id : UInt32) : Except PublishError (Option Message) → Message
  | .ok (some reply) => reply
  | .ok none | .error _ => .ofDigest id .noDatum hash

theorem datumReply_of_datumFor {exports : List (Disk × Path)} {d : Disk} {hash : Digest}
    {id : UInt32} {served : Except PublishError (Option Message)}
    (h : served = (Publication.empty.exportAll exports).datumFor d hash id) :
    (served = .ok (some (datumReply hash id served)) ∧ (datumReply hash id served).CarriesDatum hash id) ∨
      ((∀ datum, served ≠ .ok (some datum)) ∧
        datumReply hash id served = .ofDigest id .noDatum hash) := by
  rcases served with _ | _ | datum
  · exact .inr ⟨nofun, rfl⟩
  · exact .inr ⟨nofun, rfl⟩
  · exact .inl ⟨rfl, Publication.carriesDatum_of_datumFor h.symm⟩

theorem prepare_of_not_mustBeSigned (n : Node) {m : Message} (h : m.type.mustBeSigned = false) :
    n.prepare m = m := by
  unfold prepare
  rw [h, Bool.and_false, Bool.false_and]
  rfl

theorem answer_datum (n : Node) (source : Address) (id : UInt32) (hash : Digest) :
    n.answer source id (.datum hash) = .ask (.servedDatum hash id) fun served =>
      .ask (.transmit source (n.prepare (datumReply hash id served)).encode) fun _ => .done () := by
  refine congrArg (Proc.ask _) (funext fun served => ?_)
  rcases served with _ | _ | reply <;> rfl

theorem serve_datum {m : Message} {hash : Digest} (ht : m.type = .getDatum)
    (hb : m.body = hash.toList) (n : Node) (source : Address) :
    n.serve source m = (n.checkSender source m).bind fun verdict =>
      match verdict with
      | .ok () => n.answer source m.id (.datum hash)
      | .error _ => .done () := by
  have hrequest : Request.ofMessage? m = some (.datum hash) := by
    unfold Request.ofMessage?
    rw [ht, hb]
    simp
  unfold serve
  rw [hrequest]
  rfl

theorem after_serve_datum {n : Node} {source : Address} {m : Message} {hash : Digest}
    (ht : m.type = .getDatum) (hb : m.body = hash.toList) {log : List Asked} {o : Outcome}
    (h : (Engine.silent (n.serve source m)).After log (.done o)) :
    ∃ check verdict, (n.checkSender source m).After check (.done verdict) ∧
      match verdict with
      | .error _ => log = check
      | .ok () => ∃ served sent, log = check ++ [⟨.servedDatum hash m.id, served⟩,
          ⟨.transmit source (n.prepare (datumReply hash m.id served)).encode, sent⟩] := by
  obtain ⟨asked, ⟨⟩, rest, rfl, hserve, hrest⟩ := after_bind_done_iff.mp h
  cases (after_done_iff.mp hrest).1
  rw [List.append_nil]
  rw [serve_datum ht hb] at hserve
  obtain ⟨check, verdict, second, rfl, hcheck, hanswer⟩ := after_bind_done_iff.mp hserve
  refine ⟨check, verdict, hcheck, ?_⟩
  cases verdict with
  | error e =>
    cases (after_done_iff.mp hanswer).1
    exact List.append_nil check
  | ok =>
    dsimp only at hanswer
    rw [answer_datum] at hanswer
    obtain ⟨served, rest, rfl, hsend⟩ := after_ask_done_iff.mp hanswer
    obtain ⟨sent, rest, rfl, hdone⟩ := after_ask_done_iff.mp hsend
    cases (after_done_iff.mp hdone).1
    exact ⟨served, sent, rfl⟩

theorem serve_datum_within {m : Message} {hash : Digest} (ht : m.type = .getDatum)
    (hb : m.body = hash.toList) (n : Node) (source : Address) :
    (Engine.silent (n.serve source m)).Within (fun op => ¬ Engine.Waits op) 6 := by
  have hlookup : ∀ op : Op, op.IsLookup → ¬ Engine.Waits op := by
    intro op h
    cases op <;> first | exact h.elim | exact id
  rw [Engine.silent, serve_datum ht hb]
  refine Within.bind (k := 6) (l := 0) ?_ fun _ => trivial
  refine Within.bind (k := 4) (l := 2) ?_ fun verdict => ?_
  · exact (checkSender_within n source m).imp hlookup
  · cases verdict with
    | error e => exact trivial
    | ok =>
      dsimp only
      rw [answer_datum]
      exact ⟨id, fun _ => ⟨id, fun _ => trivial⟩⟩

end Node

namespace Engine

def exportOf (e : Engine) : Event → Option (Disk × Path)
  | .exportPath p => some (e.disk, p)
  | _ => none

/-- The exports of a run, each with the disk as it was then. -/
def exports (n : Node) (e : Engine) : List Event → List (Disk × Path)
  | [] => []
  | event :: events => (e.exportOf event).toList ++ exports n (e.step n event).1 events

theorem exports_append (n : Node) (e : Engine) (a b : List Event) :
    e.exports n (a ++ b) = e.exports n a ++ (e.steps n a).1.exports n b := by
  induction a generalizing e with
  | nil => rfl
  | cons event a ih => simp only [List.cons_append, exports, steps_cons, ih, List.append_assoc]

theorem published_finish (n : Node) (e : Engine) (k : Nat) (duty : Duty) (o : Outcome) :
    (e.finish n k duty o).1.published = e.published := by
  cases duty <;> rfl

theorem published_step (n : Node) (e : Engine) (event : Event) :
    (e.step n event).1.published = e.published.exportAll (e.exportOf event).toList := by
  have h := change_step n e event
  generalize e.step n event = after at h
  cases h with
  | finish => exact published_finish ..
  | answer _ hanswer => exact (frame_perform hanswer).published
  | _ => rfl

theorem published_steps (n : Node) (e : Engine) (events : List Event) :
    (e.steps n events).1.published = e.published.exportAll (e.exports n events) := by
  induction events generalizing e with
  | nil => rfl
  | cons event events ih =>
    rw [exports, Publication.exportAll_append, ← published_step]
    exact ih _

theorem dialogue_serve_datum (n : Node) (e : Engine) (source : Address) {datagram : Bytes}
    {m : Message} {hash : Digest} (hm : Message.ofDatagram (datagram.take bufferSize) = .ok m)
    (ht : m.type = .getDatum) (hb : m.body = hash.toList) {after : List Event}
    (habort : ∀ event ∈ after, event ≠ .abort e.nextTask)
    (hsteps : 6 < after.countP fun event => Touches e.nextTask event) :
    (e.steps n (.receive source datagram :: after)).1.tasks.get? e.nextTask = none ∧
      ∃ check verdict, (n.checkSender source m).After check (.done verdict) ∧
        match verdict with
        | .error _ => e.dialogue n e.nextTask (.receive source datagram :: after) = check
        | .ok () => ∃ served sent,
            e.dialogue n e.nextTask (.receive source datagram :: after) = check ++
              [⟨.servedDatum hash m.id, served⟩,
                ⟨.transmit source (n.prepare (Node.datumReply hash m.id served)).encode, sent⟩] := by
  have hreceive := step_receive_of_request hm (by rw [ht]; rfl) n e source
  let e' := (e.spawn .service (silent (n.serve source m))).2
  have hk : e.nextTask < e'.nextTask := Nat.lt_succ_self _
  have htask : e'.tasks.get? e.nextTask = some ⟨.service, none, silent (n.serve source m)⟩ :=
    get?_spawn e .service _
  have hduty : ∀ next, Duty.service ≠ .keepAlive next := by simp
  have hgone := gone_of_within (n := n) hduty hk htask
    (Node.serve_datum_within ht hb n source) hsteps
  have hfate := fate (n := n) hduty hk htask after
  rw [hgone] at hfate
  rw [dialogue_cons, steps_cons, hreceive]
  refine ⟨hgone, ?_⟩
  cases hfate with
  | done path => exact Node.after_serve_datum ht hb path
  | aborted _ _ abort => exact absurd rfl (habort _ abort)

theorem served_of_mem_dialogue {n : Node} {e : Engine} {k : Nat} {events : List Event}
    {hash : Digest} {request : UInt32} {served : Except PublishError (Option Message)}
    (h : ⟨.servedDatum hash request, served⟩ ∈ e.dialogue n k events) :
    ∃ past later, events = past ++ later ∧
      served = (e.steps n past).1.published.datumFor (e.steps n past).1.disk hash request := by
  obtain ⟨past, later, hevents, e', records, hperform⟩ := perform_of_mem_dialogue h
  exact ⟨past, _, hevents, (congrArg Prod.fst (Option.some.inj hperform)).symm⟩

/-- A task answered a request for a datum: after the check, if it admits the sender, with one datagram.
That is the datum, if the exports so far have published one under that hash and it can be served, and
otherwise it says that there is none. The network decides whether it leaves. -/
def AnsweredOnce (n : Node) (start : Engine) (before run : List Event) (source : Address) (m : Message)
    (hash : Digest) : Prop :=
  let e := (start.steps n before).1
  ∃ check verdict, (n.checkSender source m).After check (.done verdict) ∧
    (∀ asked ∈ check, asked.op.IsLookup) ∧
    match verdict with
    | .error _ => e.dialogue n e.nextTask run = check
    | .ok () => ∃ (past later : List Event) (reply : Message) (sent : Bool), run = past ++ later ∧
        let served := (start.published.exportAll (start.exports n (before ++ past))).datumFor
          (e.steps n past).1.disk hash m.id
        ((served = .ok (some reply) ∧ reply.CarriesDatum hash m.id) ∨
          ((∀ datum, served ≠ .ok (some datum)) ∧ reply = .ofDigest m.id .noDatum hash)) ∧
        e.dialogue n e.nextTask run = check ++ [⟨.servedDatum hash m.id, served⟩,
          ⟨.transmit source reply.encode, sent⟩] ∧
        ∃ first second, run = first ++ .run e.nextTask :: second ∧
          e.dialogue n e.nextTask first = check ++ [⟨.servedDatum hash m.id, served⟩] ∧
          sent = (e.steps n first).1.network.carries source reply.encode

theorem answeredOnce (n : Node) (network : Network) (directory : Directory) (disk : Disk)
    (before after : List Event) (source : Address) (datagram : Bytes) (m : Message) (hash : Digest)
    (hm : Message.ofDatagram (datagram.take bufferSize) = .ok m) (ht : m.type = .getDatum)
    (hb : m.body = hash.toList) :
    let e := ((start n network directory disk).steps n before).1
    let run := .receive source datagram :: after
    (∀ event ∈ after, event ≠ .abort e.nextTask) →
    6 < after.countP (fun event => Touches e.nextTask event) →
      (e.steps n run).1.tasks.get? e.nextTask = none ∧
        AnsweredOnce n (start n network directory disk) before run source m hash := by
  intro e run habort hsteps
  obtain ⟨hgone, check, verdict, hcheck, hdialogue⟩ :=
    dialogue_serve_datum n e source hm ht hb habort hsteps
  refine ⟨hgone, check, verdict, hcheck,
    (hcheck.within (Node.checkSender_within n source m)).2.1, ?_⟩
  cases verdict with
  | error cause => exact hdialogue
  | ok =>
    obtain ⟨served, sent, hdialogue⟩ := hdialogue
    have hserve : ⟨.servedDatum hash m.id, served⟩ ∈ e.dialogue n e.nextTask run := by
      simp [run, hdialogue]
    obtain ⟨past, later, hrun, hserved⟩ := served_of_mem_dialogue hserve
    have hpublished : (e.steps n past).1.published = Publication.empty.exportAll
        ((start n network directory disk).exports n (before ++ past)) := by
      rw [published_steps, published_steps, ← Publication.exportAll_append, ← exports_append]
      rfl
    rw [hpublished] at hserved
    have hreply := Node.datumReply_of_datumFor hserved
    have hprepare : n.prepare (Node.datumReply hash m.id served) =
        Node.datumReply hash m.id served := by
      apply n.prepare_of_not_mustBeSigned
      rcases hreply with ⟨-, hcarries⟩ | ⟨-, hnone⟩
      · rw [hcarries.type]
        rfl
      · rw [hnone]
        rfl
    rw [hprepare] at hdialogue
    obtain ⟨first, second, hsend, hfirst, hasked⟩ :=
      exists_of_dialogue_eq (hdialogue.trans (List.append_assoc check [_] [_]).symm)
    obtain rfl := hserved
    exact ⟨past, later, _, sent, hrun, hreply, hdialogue, first, second, hsend, hfirst,
      carries_of_asked hasked⟩

/-- What is served was published by the last export that succeeded, whatever the disk has become. First:
an export succeeds if its tree is built, and what is published is the tree of the last that did. Second:
a hash that no published node has is answered with nothing, any other with its datum or, where the last
node that has it is a chunk, with an error of its file. Third: a request for a datum whose sender is
admitted is answered once, with the datum or with a message that there is none. -/
theorem served_content :
    (∀ (s : Publication) (d : Disk) (path : Path),
      (∃ root, (s.exportPath d path).1 = .ok root) ↔ ∃ t, PublishedTree.build d path = .ok t) ∧
    (∀ exports : List (Disk × Path),
      let s := Publication.empty.exportAll exports
      s.tree = Publication.lastBuilt exports ∧
      ∀ (d : Disk) (h : Digest) (request : UInt32),
        (s.datumFor d h request = .ok none ↔
          ∀ t, Publication.lastBuilt exports = some t → ∀ node ∈ t.nodes, node.hash ≠ some h) ∧
        ∀ t, Publication.lastBuilt exports = some t → (∃ node ∈ t.nodes, node.hash = some h) →
          ∃ id, PublishedTree.IsLastWith t.nodes h id ∧
            ((∃ m, s.datumFor d h request = .ok (some m) ∧ m.CarriesDatum h request) ∨
              ∃ node path index, t.nodes[id]? = some node ∧ node.body = .chunk path index ∧
                ((∃ cause, s.datumFor d h request = .error (.file path cause)) ∨
                  s.datumFor d h request = .error (.stale path)))) ∧
    ∀ (n : Node) (network : Network) (directory : Directory) (disk : Disk) (before after : List Event)
      (source : Address) (datagram : Bytes) (m : Message) (hash : Digest),
      let e := ((start n network directory disk).steps n before).1
      let run := .receive source datagram :: after
      Message.ofDatagram (datagram.take bufferSize) = .ok m → m.type = .getDatum →
      m.body = hash.toList → (∀ event ∈ after, event ≠ .abort e.nextTask) →
      6 < after.countP (fun event => Touches e.nextTask event) →
        (e.steps n run).1.tasks.get? e.nextTask = none ∧
          AnsweredOnce n (start n network directory disk) before run source m hash := by
  refine ⟨Publication.isOk_exportPath_iff, fun exports => ⟨?_, fun d h request => ⟨?_, ?_⟩⟩, ?_⟩
  · rw [Publication.tree_exportAll]
    exact Option.or_none
  · exact Publication.datumFor_eq_none_iff exports d h request
  · exact fun t hlast hh => Publication.datumFor_of_published hlast hh d request
  · intro n network directory disk before after source datagram m hash e run hm ht hb
    exact answeredOnce n network directory disk before after source datagram m hash hm ht hb

/-- A file of two bytes is published, changed and asked for. -/
theorem served_content_of_changed_file :
    let file (data : Bytes) : Disk := ⟨⟨[([[0x66]], .file data 0o644)]⟩⟩
    let path : Path := ⟨[0x2f, 0x66]⟩
    let source : Address := .v4 ⟨#v[10, 0, 0, 1], 1000⟩
    let hash := Datum.hashOf .chunk [1, 2]
    let m := Message.ofDigest 7 .getDatum hash
    let e := start .plain .ip4 PeerTable.empty.directory (file [1, 2])
    (∃ t, Publication.lastBuilt [(file [1, 2], path)] = some t ∧
      ∃ id, PublishedTree.IsLastWith t.nodes hash id) ∧
    AnsweredOnce .plain e [.exportPath path, .disk (file [3])]
      (.receive source m.encode :: List.replicate 7 (.run 0)) source m hash := by
  intro file path source hash m e
  constructor
  · obtain ⟨t, hlast⟩ : ∃ t, Publication.lastBuilt [(file [1, 2], path)] = some t :=
      Option.isSome_iff_exists.mp (by decide +kernel)
    have hhash : (Publication.lastBuilt [(file [1, 2], path)]).map
        (fun t => t.nodes.map TreeNode.hash) = some [some hash] := by decide +kernel
    rw [hlast, Option.map_some, Option.some.injEq] at hhash
    have hnode : ∃ node ∈ t.nodes, node.hash = some hash :=
      List.mem_map.mp (by rw [hhash]; exact List.mem_singleton.mpr rfl)
    obtain ⟨id, hl, -⟩ := ((served_content.2.1 _).2 (file [3]) hash 7).2 t hlast hnode
    exact ⟨t, hlast, id, hl⟩
  · have hm : Message.ofDatagram (m.encode.take bufferSize) = .ok m := by
      have hlen : m.encode.length ≤ bufferSize := by
        simp [m, Message.encode, Message.canonical, Message.header, Message.signatureBytes,
          Message.ofDigest, bufferSize]
      rw [List.take_of_length_le hlen]
      exact Message.ofDatagram_encode m
    have hcount : 6 < (List.replicate 7 (Event.run 0)).countP fun event => Touches 0 event := by
      decide
    exact (served_content.2.2 .plain .ip4 PeerTable.empty.directory (file [1, 2])
      [.exportPath path, .disk (file [3])] (List.replicate 7 (.run 0)) source m.encode m hash hm rfl rfl
      (by simp) hcount).2

end Engine
end TreeShare
