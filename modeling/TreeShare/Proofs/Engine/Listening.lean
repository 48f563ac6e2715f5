import TreeShare.Proofs.Engine.Checks
import TreeShare.Proofs.Engine.Runs
import TreeShare.Proofs.Except
import TreeShare.Proofs.Message.Datagram

/-! What the engine makes of a datagram, against what the datagram is as a whole. Main statement:
`received_as_sent`. -/
namespace TreeShare.Engine

/-- The message that the engine goes on with, of as much of a datagram as is received. -/
def heard? (datagram : Bytes) : Option Message :=
  (Message.ofDatagram (datagram.take bufferSize)).toOption

/-- A request gets a task of its own, a reply goes to the table of pending replies. -/
def accept (n : Node) (e : Engine) (source : Address) (m : Message) : Engine :=
  if m.type.isRequest then (e.spawn .service (silent (n.serve source m))).2
  else { e with replies := (e.replies.deliver source m e.ageClock).2 }

/-- The datagram is longer than what is received of it, and states a type and a length with which the part
that is received is a message. -/
structure CutToMessage (datagram : Bytes) : Prop where
  long : bufferSize < datagram.length
  type : (Message.statedType? datagram).isSome
  length : Message.statedLength datagram = 1057 ∨ Message.statedLength datagram = 1121

/-- What is heard of a datagram is the message that it is as a whole, and nothing if it is none. -/
structure HeardAsSent (datagram : Bytes) : Prop where
  message : ∀ m, heard? datagram = some m → Message.ofDatagram datagram = .ok m
  rest : ∀ cause, Message.ofDatagram datagram = .error cause → heard? datagram = none

variable {datagram : Bytes} {m whole : Message}

theorem heard?_eq_some_iff : heard? datagram = some m ↔ m.encode = datagram.take bufferSize := by
  rw [← Message.ofDatagram_eq_ok_iff]
  unfold heard?
  cases Message.ofDatagram (datagram.take bufferSize) <;> simp [Except.toOption]

theorem step_receive (n : Node) (e : Engine) (source : Address) (datagram : Bytes) :
    e.step n (.receive source datagram) = ((heard? datagram).elim e (e.accept n source), []) := by
  unfold heard?
  cases hm : Message.ofDatagram (datagram.take bufferSize) with
  | error cause => exact step_receive_of_error hm n e source
  | ok m =>
    cases hr : m.type.isRequest with
    | true => simp [step_receive_of_request hm hr, Except.toOption, accept, hr]
    | false => simp [step_receive_of_reply hm hr, Except.toOption, accept, hr]

theorem exists_heard_iff_of_long (h : bufferSize < datagram.length) :
    (∃ m, heard? datagram = some m) ↔ CutToMessage datagram := by
  have hlen : (datagram.take bufferSize).length = bufferSize := by
    rw [List.length_take, Nat.min_eq_left (Nat.le_of_lt h)]
  have hheader : 7 ≤ bufferSize := by decide
  simp only [heard?_eq_some_iff, ← Message.ofDatagram_eq_ok_iff]
  rw [Message.exists_ofDatagram_iff, hlen, Message.statedType?_take hheader,
    Message.statedLength_take hheader, and_iff_right hheader]
  unfold bufferSize at *
  constructor
  · rintro ⟨htype, hlength⟩
    exact ⟨h, htype, by omega⟩
  · rintro ⟨-, htype, hlength⟩
    exact ⟨htype, by omega⟩

theorem whole_iff_of_heard (h : heard? datagram = some m) :
    Message.ofDatagram datagram = .ok m ↔ datagram.length ≤ bufferSize := by
  rw [Message.ofDatagram_eq_ok_iff, heard?_eq_some_iff.mp h]
  constructor
  · intro hsame
    rw [← hsame, List.length_take]
    exact Nat.min_le_left _ _
  · exact List.take_of_length_le

theorem unsigned_of_cut (hlong : bufferSize < datagram.length) (h : heard? datagram = some m)
    (hwhole : Message.ofDatagram datagram = .ok whole) :
    whole.isSigned = true ∧ m = { whole with signature := none } := by
  obtain rfl := Message.encode_of_ofDatagram hwhole
  have hcut := heard?_eq_some_iff.mp h
  obtain ⟨hid, htype, hbody⟩ :=
    Message.ofDatagram_take (Message.ofDatagram_eq_ok_iff.mpr hcut)
  have hlen := congrArg List.length hcut
  rw [List.length_take, Nat.min_eq_left (Nat.le_of_lt hlong), Message.length_encode,
    Message.length_signatureBytes, hbody] at hlen
  rw [Message.length_encode, Message.length_signatureBytes] at hlong
  have hsigned : whole.isSigned = true := by
    rw [← Bool.not_eq_false]
    intro hno
    simp only [hno, Bool.false_eq_true, if_false] at hlong
    omega
  have hunsigned : ¬ m.isSigned = true := by
    intro hyes
    simp only [hyes, hsigned, if_true] at hlen hlong
    omega
  refine ⟨hsigned, ?_⟩
  obtain ⟨id, type, body, signature, fits⟩ := m
  cases hid
  cases htype
  cases hbody
  cases Option.not_isSome_iff_eq_none.mp hunsigned
  rfl

theorem heardAsSent_iff : HeardAsSent datagram ↔ ¬ CutToMessage datagram := by
  constructor
  · rintro ⟨hmessage, -⟩ hcut
    obtain ⟨m, hm⟩ := (exists_heard_iff_of_long hcut.long).mpr hcut
    exact Nat.not_lt.mpr ((whole_iff_of_heard hm).mp (hmessage m hm)) hcut.long
  · intro hcut
    have hwhole : ∀ m, heard? datagram = some m → Message.ofDatagram datagram = .ok m := by
      intro m hm
      rw [whole_iff_of_heard hm, ← Nat.not_lt]
      intro hlong
      exact hcut ((exists_heard_iff_of_long hlong).mp ⟨m, hm⟩)
    refine ⟨hwhole, fun cause hcause => ?_⟩
    apply Option.eq_none_iff_forall_ne_some.mpr
    intro m hm
    cases (hwhole m hm).symm.trans hcause

/-- The engine goes on with what it hears of a datagram and drops the rest. That is the datagram as it was
sent, unless it was cut to a message; what is heard then is no message that was sent, or one that was sent
with a signature and is heard without. -/
theorem received_as_sent (n : Node) (e : Engine) (source : Address) (datagram : Bytes) :
    e.step n (.receive source datagram) = ((heard? datagram).elim e (e.accept n source), []) ∧
      (HeardAsSent datagram ↔ ¬ CutToMessage datagram) ∧
      (CutToMessage datagram → ∃ m, heard? datagram = some m ∧
        ∀ whole, Message.ofDatagram datagram = .ok whole →
          whole.isSigned = true ∧ m = { whole with signature := none }) := by
  refine ⟨step_receive n e source datagram, heardAsSent_iff, fun hcut => ?_⟩
  obtain ⟨m, hm⟩ := (exists_heard_iff_of_long hcut.long).mpr hcut
  exact ⟨m, hm, fun whole hwhole => unsigned_of_cut hcut.long hm hwhole⟩

/-- A reply of 1121 bytes and its signature. -/
theorem received_as_sent_of_signed_reply :
    let a : Address := .v4 ⟨#v[10, 0, 0, 1], 1000⟩
    let m : Message := ⟨7, .rootReply, List.replicate 1121 0, some (Vector.replicate 64 1), by
      rw [List.length_replicate]; decide⟩
    CutToMessage m.encode ∧ Message.ofDatagram m.encode = .ok m ∧
      (start .plain .ip4 PeerTable.empty.directory ⟨⟨[]⟩⟩).step .plain (.receive a m.encode) =
        ((start .plain .ip4 PeerTable.empty.directory ⟨⟨[]⟩⟩).accept .plain a
          { m with signature := none }, []) := by
  intro a m
  have hcut : CutToMessage m.encode := ⟨by decide +kernel, by decide +kernel, by decide +kernel⟩
  have hm := Message.ofDatagram_encode m
  obtain ⟨hstep, -, hunsigned⟩ := received_as_sent .plain (start .plain .ip4 PeerTable.empty.directory
    ⟨⟨[]⟩⟩) a m.encode
  obtain ⟨heard, hheard, hwhole⟩ := hunsigned hcut
  cases (hwhole m hm).2
  rw [hheard] at hstep
  exact ⟨hcut, hm, hstep⟩

/-- A reply as long as what is received, with one byte too many. As a whole it is no message; it is parked
all the same. -/
theorem overlong_datagram_parked :
    let a : Address := .v4 ⟨#v[10, 0, 0, 1], 1000⟩
    let m : Message := ⟨7, .rootReply, List.replicate 1057 0, some (Vector.replicate 64 1), by
      rw [List.length_replicate]; decide⟩
    let e := ((start .plain .ip4 PeerTable.empty.directory ⟨⟨[]⟩⟩).step .plain
      (.receive a (m.encode ++ [0]))).1
    Message.ofDatagram (m.encode ++ [0]) = .error (.trailing 65) ∧
      e.replies.slots.get? (a, 7) = some (.parked m 0) := by
  intro a m e
  exact ⟨by decide +kernel, by decide +kernel⟩

end TreeShare.Engine
