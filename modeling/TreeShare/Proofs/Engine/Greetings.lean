import TreeShare.Proofs.Engine.Rejections
import TreeShare.Proofs.Message.Hello

/-! What becomes of a Hello: whether it can be built, what is read from it, and whether anybody who receives
it does anything about it. Main statement: `hello_read_back`. -/
namespace TreeShare

theorem Request.ofMessage?_of_hello {m : Message} {h : Hello} (htype : m.type = .hello)
    (hbody : m.body = h.toBody) :
    Request.ofMessage? m = if h.peer = "" then none else some (.hello h) := by
  unfold ofMessage?
  rw [htype, hbody]
  dsimp only
  rw [Hello.parse_toBody]
  split <;> rfl

namespace Engine

/-- No receiver does anything about a datagram: nothing is heard of it, or a request that is over at
once. -/
def Ignored (datagram : Bytes) : Prop :=
  ∀ m, heard? datagram = some m → m.type.isRequest = true ∧
    ∀ (n : Node) (source : Address), n.serve source m = .done ()

variable {m heard : Message} {h : Hello}

theorem heard_of_encode (hheard : heard? m.encode = some heard) :
    heard.type = m.type ∧ heard.body = m.body :=
  (Message.ofDatagram_take
    (Message.ofDatagram_eq_ok_iff.mpr (heard?_eq_some_iff.mp hheard))).2

theorem exists_heard_encode_iff : (∃ heard, heard? m.encode = some heard) ↔
    m.encode.length ≤ bufferSize ∨ m.body.length = 1121 := by
  by_cases hlong : m.encode.length ≤ bufferSize
  · refine iff_of_true ⟨m, ?_⟩ (.inl hlong)
    rw [heard?_eq_some_iff, List.take_of_length_le hlong]
  · have hsize : bufferSize = 1128 := rfl
    have hlength := Message.length_encode m
    have hsignature := Message.length_signatureBytes m
    obtain ⟨htype, hstated⟩ := Message.stated_encode m
    rw [exists_heard_iff_of_long (by omega), or_iff_right hlong]
    constructor
    · rintro ⟨hlong, -, hbody⟩
      rw [hstated] at hbody
      split at hsignature <;> omega
    · intro hbody
      exact ⟨by omega, by rw [htype]; rfl, .inr (hstated.trans hbody)⟩

theorem serve_of_hello (htype : m.type = .hello) (hbody : m.body = h.toBody) (hpeer : h.peer ≠ "")
    (n : Node) (source : Address) : ∃ next, n.serve source m = .ask (.cachedKey h.peer) next := by
  have hrequest := Request.ofMessage?_of_hello htype hbody
  have hname := Message.claimedName?_of_body (by rw [htype]; rfl) hbody
  rw [if_neg hpeer] at hrequest hname
  unfold Node.serve Node.checkSender Node.senderName
  simp only [hrequest, hname]
  exact ⟨_, rfl⟩

theorem ignored_hello_iff (htype : m.type = .hello) (hbody : m.body = h.toBody) :
    Ignored m.encode ↔
      h.peer = "" ∨ bufferSize < m.encode.length ∧ (Utf8.encode h.peer).length ≠ 1117 := by
  have hlength := Hello.length_toBody h
  rw [← hbody] at hlength
  constructor
  · intro hignored
    by_contra hno
    obtain ⟨hpeer, hfits⟩ := not_or.mp hno
    have hheard : m.encode.length ≤ bufferSize ∨ m.body.length = 1121 := by omega
    obtain ⟨heard, hheard⟩ := exists_heard_encode_iff.mpr hheard
    obtain ⟨htype', hbody'⟩ := heard_of_encode hheard
    obtain ⟨next, hserve⟩ := serve_of_hello (htype'.trans htype) (hbody'.trans hbody) hpeer
      Node.plain (.v4 default)
    cases hserve.symm.trans ((hignored heard hheard).2 Node.plain (.v4 default))
  · intro hreason heard hheard
    obtain ⟨htype', hbody'⟩ := heard_of_encode hheard
    rw [htype', htype]
    refine ⟨rfl, Node.serve_of_malformed ?_⟩
    rcases hreason with hempty | ⟨hlong, hother⟩
    · rw [← Request.isSome_ofMessage?_iff,
        Request.ofMessage?_of_hello (htype'.trans htype) (hbody'.trans hbody), if_pos hempty]
      exact Bool.false_ne_true
    · have := exists_heard_encode_iff.mp ⟨heard, hheard⟩
      omega

end Engine

/-- A Hello or HelloReply is built with any name that fits the length field. The name is read from its body
again exactly if it is not empty; a body that is read is the one that is written for what was read. No
receiver does anything about a Hello without a name, whether it is signed or not, nor about one that is
longer than what is received of a datagram, unless it is its signature alone that is cut off. -/
theorem hello_read_back (id : UInt32) (type : MessageType) (name : String) :
    ((∃ m, Message.hello id type name = .ok m) ↔
      type.isHello = true ∧ (Utf8.encode name).length ≤ 65531) ∧
    (∀ m, Message.hello id type name = .ok m →
      (Hello.parse m.body = .ok ⟨0, name⟩ ↔ name ≠ "") ∧
      (Hello.parse m.body = .error (.badHello .short) ↔ name = "") ∧
      (type = .hello → ∀ sender : Node,
        (Engine.Ignored (sender.prepare m).encode ↔ name = "" ∨
          Engine.bufferSize < (sender.prepare m).encode.length ∧
            (Utf8.encode name).length ≠ 1117))) ∧
    ∀ body h, Hello.parse body = .ok h ↔ h.peer ≠ "" ∧ h.toBody = body := by
  refine ⟨Message.exists_hello_iff, fun m hm => ?_, fun body h => Hello.parse_eq_ok_iff⟩
  obtain ⟨-, -, htype, hbody, -⟩ := Message.hello_eq_ok_iff.mp hm
  have hparse := Hello.parse_toBody ⟨0, name⟩
  rw [← hbody] at hparse
  refine ⟨?_, ?_, fun hhello sender => ?_⟩
  · rw [hparse]
    split <;> simp_all
  · rw [hparse]
    split <;> simp_all
  · exact Engine.ignored_hello_iff (h := ⟨0, name⟩)
      ((sender.prepare_type m).trans (htype.trans hhello)) ((sender.prepare_body m).trans hbody)

theorem hello_read_back_of_alice :
    ∃ m, Message.hello 7 .hello "alice" = .ok m ∧ Hello.parse m.body = .ok ⟨0, "alice"⟩ ∧
      ¬ Engine.Ignored (Node.plain.prepare m).encode := by
  obtain ⟨hbuilt, hread, -⟩ := hello_read_back 7 .hello "alice"
  obtain ⟨m, hm⟩ := hbuilt.mpr ⟨rfl, by decide⟩
  obtain ⟨hparse, -, hignored⟩ := hread m hm
  have hshort : (Node.plain.prepare m).encode.length ≤ Engine.bufferSize := by
    obtain ⟨-, -, -, hbody, hunsigned⟩ := Message.hello_eq_ok_iff.mp hm
    rw [show Node.plain.prepare m = m from rfl, Message.length_encode, Message.length_signatureBytes,
      hbody, Message.isSigned, hunsigned]
    decide
  refine ⟨m, hm, hparse.mpr (by decide), mt (hignored rfl Node.plain).mp ?_⟩
  rw [not_or, not_and_or]
  exact ⟨by decide, .inl (Nat.not_lt.mpr hshort)⟩

/-- A Hello is built with an empty name. Its body is refused as too short, and no receiver does anything
about it. -/
theorem nameless_hello_unreadable :
    ∃ m, Message.hello 7 .hello "" = .ok m ∧ Hello.parse m.body = .error (.badHello .short) ∧
      Engine.Ignored m.encode := by
  let m : Message := ⟨7, .hello, Hello.toBody ⟨0, ""⟩, none, by decide⟩
  exact ⟨m, rfl, rfl, (Engine.ignored_hello_iff (h := ⟨0, ""⟩) rfl rfl).mpr (.inl rfl)⟩

end TreeShare
