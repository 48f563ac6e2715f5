import TreeShare.Proofs.Bounds.Guarded
import TreeShare.Proofs.Engine.Outbound

/-! What a node does with a datagram, with every access and every difference guarded: the listener, the task
that serves a request, and the task that waits for a reply. Main statement: `inbound_in_range`. -/
namespace TreeShare

namespace Guarded

/-! Bodies of requests. -/

def hello (body : Bytes) : Guarded (Except MessageError Hello) := do
  if body.length ≤ 4 then pure (.error (.badHello .short))
  else
    let extensions ← field 4 (← slice body 0 4)
    match Utf8.decode? (← slice body 4 body.length) with
    | some peer => pure (.ok ⟨UInt32.ofNat (Bytes.toNat extensions.toList), peer⟩)
    | none => pure (.error (.badHello .nameNotUtf8))

def endpoint (body : Bytes) : Guarded (Except Endpoint.ReadError Endpoint) := do
  if body.length = 6 then
    let ip := Bytes.padded 4 [← byteAt body 0, ← byteAt body 1, ← byteAt body 2, ← byteAt body 3]
    let port := UInt16.ofNat (Bytes.toNat [← byteAt body 4, ← byteAt body 5])
    pure (.ok ⟨ip, port⟩)
  else if body.length = 18 then pure (.error .ipv6)
  else pure (.error .length)

def request (m : Message) : Guarded (Option Request) := do
  match m.type with
  | .noOp => pure (some .noOp)
  | .error => pure (some .error)
  | .hello => pure ((← hello m.body).toOption.map .hello)
  | .publicKey => pure (some .publicKey)
  | .root => pure (if m.body.length = 0 ∨ m.body.length = 32 then some .root else none)
  | .getDatum => pure ((Bytes.block? 32 m.body).map .datum)
  | .natTraversalRequest => pure ((← endpoint m.body).toOption.map .relay)
  | .natTraversal => pure ((← endpoint m.body).toOption.map .punch)
  | _ => pure none

def claimedName (m : Message) : Guarded (Option String) := do
  if m.type.isHello then pure ((← hello m.body).toOption.map Hello.peer)
  else pure none

theorem hello_eq (body : Bytes) : hello body = .ok (Hello.parse body) := by
  unfold hello Hello.parse
  by_cases hshort : body.length ≤ 4
  · rw [if_pos hshort, if_pos hshort]
    rfl
  · have hfirst : (body.take 4).length = 4 := by
      rw [List.length_take]
      omega
    have hextensions : (Bytes.padded 4 (body.take 4)).toList = body.take 4 := by
      rw [padded_take, Bytes.toList_padded, Nat.sub_eq_zero_of_le (by omega)]
      exact List.append_nil _
    rw [if_neg hshort, if_neg hshort, slice_eq (Nat.zero_le _) (by omega),
      slice_eq (by omega) (Nat.le_refl _)]
    simp only [Except.bind_ok, List.drop_zero, field_eq hfirst, List.take_length, hextensions]
    cases Utf8.decode? (body.drop 4) <;> rfl

theorem endpoint_eq (body : Bytes) : endpoint body = .ok (Endpoint.ofBytes body) := by
  by_cases h : body.length = 6
  · match body, h with
    | [i, j, k, l, p, q], _ => rfl
  · have hother : Endpoint.ofBytes body =
        if body.length = 18 then .error .ipv6 else .error .length := by
      unfold Endpoint.ofBytes
      split
      · exact absurd rfl h
      · rfl
    rw [hother]
    unfold endpoint
    rw [if_neg h]
    split <;> rfl

theorem request_eq (m : Message) : request m = .ok (Request.ofMessage? m) := by
  unfold request Request.ofMessage?
  cases m.type <;> simp only [hello_eq, endpoint_eq, Except.bind_ok, pure_eq]

theorem claimedName_eq (m : Message) : claimedName m = .ok m.claimedName? := by
  unfold claimedName Message.claimedName?
  rw [hello_eq]
  split
  · cases Hello.parse m.body <;> rfl
  · rfl

/-! Replies. -/

def answers (reply request : MessageType) : Guarded Bool := do
  if !request.expectsReply || !reply.isReply then pure false
  else
    let offset ← difference reply.toByte.toNat request.toByte.toNat
    pure (offset == 127 || (request == .getDatum && reply == .noDatum))

def checkReply (sent reply : Message) : Guarded (Except RequestError Unit) := do
  if reply.type = .errorReply ∧ sent.type ≠ .error then
    pure (.error (.errorReply (Utf8.lossy reply.body)))
  else if !(← answers reply.type sent.type) then
    pure (.error (.unexpectedReply sent.type reply.type))
  else if reply.type = .datum then
    match ← checkIntegrity reply.body with
    | .error e => pure (.error (.corrupted e))
    | .ok () =>
      let stated ← slice reply.body 0 32
      if sent.body = stated then pure (.ok ())
      else
        let asked ← slice sent.body 0 (min sent.body.length 32)
        pure (.error (.hashMismatch (← overlay 32 asked) (← field 32 stated)))
  else pure (.ok ())

theorem toByte_le {reply request : MessageType} (hrequest : request.isRequest = true)
    (hreply : reply.isReply = true) : request.toByte ≤ reply.toByte := by
  simp only [MessageType.isRequest, MessageType.isReply, decide_eq_true_eq, Bool.not_eq_true',
    decide_eq_false_iff_not, UInt8.not_lt] at hrequest hreply
  exact UInt8.le_of_lt (UInt8.lt_of_lt_of_le hrequest hreply)

theorem answers_eq (reply request : MessageType) : answers reply request = .ok (reply.answers request) := by
  unfold answers MessageType.answers
  cases hexpects : request.expectsReply with
  | false => rfl
  | true =>
    cases hreply : reply.isReply with
    | false => rfl
    | true =>
      have hrequest : request.isRequest = true := by
        simp only [MessageType.expectsReply, Bool.and_eq_true] at hexpects
        exact hexpects.1.1
      have hle := toByte_le hrequest hreply
      have hoffset : (reply.toByte.toNat - request.toByte.toNat == 127) =
          (reply.toByte - request.toByte == 127) := by
        rw [← UInt8.toNat_sub_of_le _ _ hle, Bool.eq_iff_iff, beq_iff_eq, beq_iff_eq]
        exact UInt8.toNat_inj (b := 127)
      rw [difference_eq (UInt8.le_iff_toNat_le.mp hle)]
      simp [hoffset]

theorem length_of_checkIntegrity {body : Bytes} (h : Datum.checkIntegrity body = .ok ()) :
    33 ≤ body.length := by
  unfold Datum.checkIntegrity at h
  split at h
  · contradiction
  · omega

theorem checkReply_eq (sent reply : Message) :
    checkReply sent reply = .ok (Node.checkReply sent reply) := by
  unfold checkReply Node.checkReply
  simp only [answers_eq, checkIntegrity_eq, Except.bind_ok]
  split
  · rfl
  · split
    · rfl
    · split
      · cases hintegrity : Datum.checkIntegrity reply.body with
        | error e => rfl
        | ok u =>
          have hlength := length_of_checkIntegrity hintegrity
          have hstated : (reply.body.take 32).length = 32 := by
            rw [List.length_take]
            omega
          have hasked : (sent.body.take (min sent.body.length 32)).length ≤ 32 := by
            rw [List.length_take]
            omega
          have hpadded : Bytes.padded 32 (sent.body.take (min sent.body.length 32)) =
              Bytes.padded 32 sent.body := by
            rw [Nat.min_comm, ← List.take_take, List.take_length, padded_take]
          rw [slice_eq (Nat.zero_le _) (by omega), slice_eq (Nat.zero_le _) (Nat.min_le_left _ _)]
          simp only [Except.bind_ok, List.drop_zero, overlay_eq hasked, field_eq hstated, hpadded,
            padded_take]
          split <;> rfl
      · rfl

/-! The tasks. -/

def serve (n : Node) (source : Address) (m : Message) : Guarded (Proc Unit) := do
  match ← request m with
  | none => pure (pure ())
  | some r =>
    let _ ← claimedName m
    pure do
      match ← n.checkSender source m with
      | .ok () => n.answer source m.id r
      | .error _ => pure ()

/-- What the task that waits makes of a reply, which it shows when it takes it. -/
def validate (n : Node) (source : Address) (sent reply : Message) : Guarded (Attempt Message) := do
  let verdict ← checkReply sent reply
  let _ ← claimedName reply
  let _ ← text reply
  pure do
    Attempt.ofExcept verdict
    ExceptT.mk do pure ((← n.checkSender source reply).mapError .signature)
    pure reply

/-- The listener: a datagram is written over the start of the buffer, read from there, and shown. -/
def receive (n : Node) (e : Engine) (buffer : Bytes) (source : Address) (datagram : Bytes) :
    Guarded Engine := do
  let received := datagram.take Engine.bufferSize
  match ← decode (received ++ buffer.drop received.length) received.length with
  | .error _ => pure e
  | .ok m =>
    let _ ← text m
    if m.type.isRequest then pure (e.spawn .service (Engine.silent (← serve n source m))).2
    else pure { e with replies := (e.replies.deliver source m e.ageClock).2 }

theorem serve_eq (n : Node) (source : Address) (m : Message) :
    serve n source m = .ok (n.serve source m) := by
  unfold serve Node.serve
  simp only [request_eq, claimedName_eq, Except.bind_ok]
  cases Request.ofMessage? m <;> rfl

theorem validate_eq (n : Node) (source : Address) (sent reply : Message) :
    validate n source sent reply = .ok (n.validate source sent reply) := by
  unfold validate Node.validate
  simp only [checkReply_eq, claimedName_eq, text_eq, Except.bind_ok]
  rfl

theorem receive_eq (n : Node) (e : Engine) (buffer : Bytes) (source : Address) (datagram : Bytes) :
    receive n e buffer source datagram = .ok (e.receive n source datagram) := by
  have hdecode (rest : Bytes) : Message.decode (datagram.take Engine.bufferSize ++ rest)
      (datagram.take Engine.bufferSize).length =
        Message.ofDatagram (datagram.take Engine.bufferSize) := by
    unfold Message.decode
    rw [if_pos (by simp), List.take_left]
  unfold receive Engine.receive
  simp only [decode_eq, hdecode, text_eq, serve_eq, Except.bind_ok]
  cases Message.ofDatagram (datagram.take Engine.bufferSize) with
  | error cause => rfl
  | ok m =>
    dsimp only
    split <;> rfl

/-- All that a node does with what it receives stays in range, and comes to what it comes to without guards:
reading a datagram and showing it, the checks of requests and replies, the datums, the listener, and the tasks
that serve and wait. -/
structure InRange (n : Node) : Prop where
  decode : ∀ buffer count, Guarded.decode buffer count = .ok (Message.decode buffer count)
  text : ∀ m, Guarded.text m = .ok m.text
  hello : ∀ body, Guarded.hello body = .ok (Hello.parse body)
  request : ∀ m, Guarded.request m = .ok (Request.ofMessage? m)
  answers : ∀ reply request, Guarded.answers reply request = .ok (reply.answers request)
  checkIntegrity : ∀ body, Guarded.checkIntegrity body = .ok (Datum.checkIntegrity body)
  parse : ∀ body, Guarded.parse body = .ok (Datum.parse body)
  checkReply : ∀ sent reply, Guarded.checkReply sent reply = .ok (Node.checkReply sent reply)
  toMessage : ∀ id d, Guarded.toMessage id d = .ok (d.toMessage id)
  serve : ∀ source m, Guarded.serve n source m = .ok (n.serve source m)
  validate : ∀ source sent reply, Guarded.validate n source sent reply = .ok (n.validate source sent reply)
  receive : ∀ e buffer source datagram,
    Guarded.receive n e buffer source datagram = .ok (e.receive n source datagram)

theorem inRange (n : Node) : InRange n where
  decode := decode_eq
  text := text_eq
  hello := hello_eq
  request := request_eq
  answers := answers_eq
  checkIntegrity := checkIntegrity_eq
  parse := parse_eq
  checkReply := checkReply_eq
  toMessage := toMessage_eq
  serve := serve_eq n
  validate := validate_eq n
  receive := receive_eq n

end Guarded

namespace Engine

/-- Nothing that arrives is read out of range, and no task ever gives up on arithmetic, as long as the number
of attempts fits its type. -/
theorem inbound_in_range {n : Node} {attempts : Nat} (hattempts : n.settings.attempts = .ok attempts) :
    Guarded.InRange n ∧ ∀ e, Idle e → ∀ events k t, (e.steps n events).1.tasks.get? k = some t →
      ∀ cause next, t.program ≠ .ask (.halt cause) next := by
  refine ⟨Guarded.inRange n, fun e hidle events k t ht cause next hprogram => ?_⟩
  obtain ⟨duty, ticket, program⟩ := t
  cases hprogram
  obtain ⟨errand, -, hhalts⟩ := obeys_next (outbound_of_runs n) hidle ht
  have hfits : Except.error cause = Except.ok attempts := Eq.trans (Eq.symm hhalts) hattempts
  contradiction

/-- A directory that ends in the middle of its second entry arrives while a call is waiting. -/
theorem inbound_in_range_of_partial_directory :
    let a : Address := .v4 ⟨#v[10, 0, 0, 2], 2000⟩
    let m : Message := ⟨0, .datum, List.replicate 32 0 ++ 2 :: 0x61 :: List.replicate 69 0, none, by decide⟩
    let e := start .plain .ip4 PeerTable.empty.directory ⟨⟨[]⟩⟩
    let events : List Event := .call (.send a (.empty 0 .publicKey)) :: List.replicate 3 (.run 0) ++
      [.receive a m.encode, .run 0]
    Node.plain.settings.attempts = .ok 2 ∧ Message.entryNames m.body = ["a"] ∧
      Guarded.text m = .ok m.text ∧
      (∀ buffer, Guarded.receive .plain e buffer a m.encode = .ok (e.receive .plain a m.encode)) ∧
      ((e.steps .plain events).1.tasks.get? 0).isSome ∧
      ∀ k t, (e.steps .plain events).1.tasks.get? k = some t →
        ∀ cause next, t.program ≠ .ask (.halt cause) next := by
  intro a m e events
  have hattempts : Node.plain.settings.attempts = .ok 2 := rfl
  have hnames : Message.entryNames m.body = ["a"] := by decide +kernel
  have hlive : ((e.steps .plain events).1.tasks.get? 0).isSome := by decide +kernel
  obtain ⟨hrange, hnever⟩ := inbound_in_range hattempts
  exact ⟨hattempts, hnames, hrange.text m, fun buffer => hrange.receive e buffer a m.encode, hlive,
    hnever e (idle_start _ _ _ _) events⟩

end Engine
end TreeShare
