import TreeShare.Message

/-! What a datagram states of itself, and which datagrams are messages. Main statement: `codec_exact`. -/
namespace TreeShare.Message

/-! What is written. -/

theorem length_header (m : Message) : m.header.length = 7 := by
  simp [header]

theorem header_inj {m m' : Message} (h : m.header = m'.header) :
    m.id = m'.id ∧ m.type = m'.type ∧ m.body.length = m'.body.length := by
  unfold header at h
  obtain ⟨hid, h⟩ := List.append_inj h (by simp)
  obtain ⟨htype, hlength⟩ := List.cons.inj h
  have hid' := congrArg Bytes.toNat hid
  have hlength' := congrArg Bytes.toNat hlength
  have hids : m.id.toNat < Bytes.capacity 4 ∧ m'.id.toNat < Bytes.capacity 4 :=
    ⟨m.id.toNat_lt, m'.id.toNat_lt⟩
  have hlengths : m.body.length < Bytes.capacity 2 ∧ m'.body.length < Bytes.capacity 2 :=
    ⟨m.body_length, m'.body_length⟩
  rw [Bytes.toNat_ofNat, Bytes.toNat_ofNat, Nat.mod_eq_of_lt hids.1, Nat.mod_eq_of_lt hids.2] at hid'
  rw [Bytes.toNat_ofNat, Bytes.toNat_ofNat, Nat.mod_eq_of_lt hlengths.1,
    Nat.mod_eq_of_lt hlengths.2] at hlength'
  have htype' := MessageType.ofByte?_toByte m.type
  rw [htype, MessageType.ofByte?_toByte] at htype'
  exact ⟨UInt32.toNat_inj.mp hid', (Option.some.inj htype').symm, hlength'⟩

theorem canonical_eq_iff {m m' : Message} :
    m.canonical = m'.canonical ↔ m.id = m'.id ∧ m.type = m'.type ∧ m.body = m'.body := by
  constructor
  · intro h
    obtain ⟨hheader, hbody⟩ := List.append_inj h (by rw [length_header, length_header])
    obtain ⟨hid, htype, -⟩ := header_inj hheader
    exact ⟨hid, htype, hbody⟩
  · rintro ⟨hid, htype, hbody⟩
    unfold canonical header
    rw [hid, htype, hbody]

theorem length_signatureBytes (m : Message) :
    m.signatureBytes.length = if m.isSigned then 64 else 0 := by
  unfold signatureBytes isSigned
  cases m.signature <;> simp

theorem length_encode (m : Message) :
    m.encode.length = 7 + m.body.length + m.signatureBytes.length := by
  unfold encode canonical
  rw [List.length_append, List.length_append, length_header]

/-! What is stated. -/

def statedType? (b : Bytes) : Option MessageType := b[4]?.bind MessageType.ofByte?

def statedLength (b : Bytes) : Nat := Bytes.toNat ((b.drop 5).take 2)

theorem statedType?_take {b : Bytes} {count : Nat} (h : 7 ≤ count) :
    statedType? (b.take count) = statedType? b := by
  unfold statedType?
  rw [List.getElem?_take_of_lt (by omega)]

theorem statedLength_take {b : Bytes} {count : Nat} (h : 7 ≤ count) :
    statedLength (b.take count) = statedLength b := by
  unfold statedLength
  rw [List.drop_take, List.take_take, Nat.min_eq_left (by omega)]

theorem stated_encode (m : Message) :
    statedType? m.encode = some m.type ∧ statedLength m.encode = m.body.length := by
  have hdigits : statedLength m.encode = Bytes.toNat (Bytes.ofNat 2 m.body.length) := by
    simp [statedLength, encode_eq, Bytes.ofNat]
  constructor
  · simpa [statedType?, encode_eq, Bytes.ofNat] using MessageType.ofByte?_toByte m.type
  · rw [hdigits, Bytes.toNat_ofNat]
    exact Nat.mod_eq_of_lt m.body_length

/-! What is read. -/

theorem exists_ofDatagram_iff {b : Bytes} :
    (∃ m, ofDatagram b = .ok m) ↔ 7 ≤ b.length ∧ (statedType? b).isSome ∧
      (b.length = 7 + statedLength b ∨ b.length = 7 + statedLength b + 64) := by
  constructor
  · rintro ⟨m, hm⟩
    obtain rfl := encode_of_ofDatagram hm
    obtain ⟨htype, hlength⟩ := stated_encode m
    have hsignature := length_signatureBytes m
    rw [htype, hlength, length_encode, hsignature]
    refine ⟨by omega, rfl, ?_⟩
    split <;> omega
  · rintro ⟨hheader, htype, hlength⟩
    match b, hheader with
    | i :: j :: k :: l :: t :: p :: q :: rest, _ =>
      obtain ⟨type, ht⟩ := Option.isSome_iff_exists.mp htype
      have hknown : MessageType.ofByte? t = some type := ht
      have hstated : statedLength (i :: j :: k :: l :: t :: p :: q :: rest) = Bytes.toNat [p, q] := rfl
      rw [hstated] at hlength
      simp only [List.length_cons] at hlength
      unfold ofDatagram
      simp only [hknown]
      rw [if_neg (by omega)]
      split
      · exact ⟨_, rfl⟩
      · rename_i hextra
        have hblock : (rest.drop (Bytes.toNat [p, q])).length = 64 := by
          have := List.length_pos_iff.mpr hextra
          rw [List.length_drop] at this ⊢
          omega
        simp only [Bytes.block?, hblock, dif_pos]
        exact ⟨_, rfl⟩

theorem ofDatagram_take {m received : Message} {count : Nat}
    (h : ofDatagram (m.encode.take count) = .ok received) :
    received.id = m.id ∧ received.type = m.type ∧ received.body = m.body := by
  have hencode := encode_of_ofDatagram h
  obtain ⟨rest, hrest⟩ : ∃ rest, received.encode ++ rest = m.encode :=
    ⟨m.encode.drop count, by rw [hencode, List.take_append_drop]⟩
  unfold encode canonical at hrest
  simp only [List.append_assoc] at hrest
  obtain ⟨hheader, hrest⟩ := List.append_inj hrest (by rw [length_header, length_header])
  obtain ⟨hid, htype, hlength⟩ := header_inj hheader
  exact ⟨hid, htype, (List.append_inj hrest hlength).1⟩

theorem decode_eq_ok_iff {buffer : Bytes} {count : Nat} {m : Message} :
    decode buffer count = .ok m ↔ count ≤ buffer.length ∧ m.encode = buffer.take count := by
  unfold decode
  split
  · rename_i hcount
    rw [ofDatagram_eq_ok_iff, and_iff_right hcount]
  · rename_i hcount
    simp [hcount]

theorem exists_decode_iff {buffer : Bytes} {count : Nat} :
    (∃ m, decode buffer count = .ok m) ↔ count ≤ buffer.length ∧ 7 ≤ count ∧
      (statedType? buffer).isSome ∧
        (count = 7 + statedLength buffer ∨ count = 7 + statedLength buffer + 64) := by
  by_cases hcount : count ≤ buffer.length
  · have hdecode : decode buffer count = ofDatagram (buffer.take count) := if_pos hcount
    have hlen : (buffer.take count).length = count := by
      rw [List.length_take, Nat.min_eq_left hcount]
    rw [hdecode, exists_ofDatagram_iff, hlen, and_iff_right hcount]
    apply and_congr_right
    intro hheader
    rw [statedType?_take hheader, statedLength_take hheader]
  · simp [decode_eq_ok_iff, hcount]

theorem decode_encode_append (m : Message) (rest : Bytes) :
    decode (m.encode ++ rest) m.encode.length = .ok m := by
  rw [decode_eq_ok_iff, List.length_append, List.take_left]
  exact ⟨by omega, rfl⟩

/-- A message is made of any body whose length fits its field, and no other. The field states that length,
and the message is read back from its encoding, whatever comes behind it. A count of bytes of a buffer is
read exactly if they have a header with a known type, and after it a body of the stated length and one
signature or nothing; what is read encodes to these bytes. What a signature covers tells messages apart by
all but their signatures. -/
theorem codec_exact :
    (∀ (id : UInt32) (type : MessageType) (body : Bytes),
      (∃ m, new id type body = .ok m ∧ m.body = body) ↔ body.length ≤ 65535) ∧
    (∀ m : Message, m.body.length ≤ 65535 ∧ statedLength m.encode = m.body.length ∧
      ∀ rest, decode (m.encode ++ rest) m.encode.length = .ok m) ∧
    (∀ (buffer : Bytes) (count : Nat), (∃ m, decode buffer count = .ok m) ↔
      count ≤ buffer.length ∧ 7 ≤ count ∧ (statedType? buffer).isSome ∧
        (count = 7 + statedLength buffer ∨ count = 7 + statedLength buffer + 64)) ∧
    (∀ (buffer : Bytes) (count : Nat) (m : Message),
      decode buffer count = .ok m ↔ count ≤ buffer.length ∧ m.encode = buffer.take count) ∧
    ∀ m m' : Message,
      m.canonical = m'.canonical ↔ m.id = m'.id ∧ m.type = m'.type ∧ m.body = m'.body := by
  refine ⟨fun id type body => ?_, fun m => ?_, fun _ _ => exists_decode_iff,
    fun _ _ _ => decode_eq_ok_iff, fun _ _ => canonical_eq_iff⟩
  · unfold new
    split
    · rename_i hfits
      exact iff_of_true ⟨_, rfl, rfl⟩ (Nat.le_of_lt_succ hfits)
    · rename_i hfits
      refine iff_of_false ?_ (by omega)
      rintro ⟨m, h, -⟩
      cases h
  · exact ⟨Nat.le_of_lt_succ m.body_length, (stated_encode m).2, decode_encode_append m⟩

end TreeShare.Message
