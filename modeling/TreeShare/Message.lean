import TreeShare.Message.Error
import TreeShare.Crypto.Ecdsa

/-! Messages and their datagrams:

    id (4 bytes) | type (1) | length of the body (2) | body | signature (64) or nothing

Main statements: `ofDatagram_encode` and `encode_of_ofDatagram`, so that a datagram is the encoding of
at most one message. -/
namespace TreeShare

/-- The body never outgrows the two bytes of its length. -/
structure Message where
  id : UInt32
  type : MessageType
  body : Bytes
  signature : Option Signature
  body_length : body.length < 65536
deriving DecidableEq

namespace Message

def new (id : UInt32) (type : MessageType) (body : Bytes) : Except MessageError Message :=
  if h : body.length < 65536 then .ok ⟨id, type, body, none, h⟩
  else .error (.bodyTooLarge body.length)

def empty (id : UInt32) (type : MessageType) : Message :=
  ⟨id, type, [], none, by decide⟩

def ofDigest (id : UInt32) (type : MessageType) (hash : Digest) : Message :=
  ⟨id, type, hash.toList, none, by simp⟩

def ofEndpoint (id : UInt32) (type : MessageType) (e : Endpoint) : Message :=
  ⟨id, type, e.toBytes, none, by rw [e.length_toBytes]; decide⟩

def ofKey (id : UInt32) (type : MessageType) (key : PublicKey) : Message :=
  ⟨id, type, key.toList, none, by simp⟩

def isSigned (m : Message) : Bool := m.signature.isSome

def withSignature (m : Message) (signature : Signature) : Message :=
  { m with signature := some signature }

def header (m : Message) : Bytes :=
  Bytes.ofNat 4 m.id.toNat ++ m.type.toByte :: Bytes.ofNat 2 m.body.length

/-- What a signature covers. -/
def canonical (m : Message) : Bytes := m.header ++ m.body

def signatureBytes (m : Message) : Bytes :=
  match m.signature with
  | some s => s.toList
  | none => []

def encode (m : Message) : Bytes := m.canonical ++ m.signatureBytes

/-- Reads a whole datagram: after the body there is one signature or nothing. -/
def ofDatagram (b : Bytes) : Except MessageError Message :=
  match b with
  | i :: j :: k :: l :: t :: p :: q :: rest =>
    match MessageType.ofByte? t with
    | none => .error (.unknownType t)
    | some type =>
      let size := Bytes.toNat [p, q]
      if rest.length < size then .error (.truncated size b.length)
      else
        have fits : (rest.take size).length < 65536 := by
          have hs : size < Bytes.capacity 2 := Bytes.toNat_lt [p, q]
          have hc : Bytes.capacity 2 = 65536 := by decide
          simp only [List.length_take]
          omega
        let read (signature : Option Signature) : Message :=
          ⟨UInt32.ofNat (Bytes.toNat [i, j, k, l]), type, rest.take size, signature, fits⟩
        let extra := rest.drop size
        if extra = [] then .ok (read none)
        else match Bytes.block? 64 extra with
          | some s => .ok (read (some s))
          | none => .error (.trailing extra.length)
  | b => .error (.tooShort b.length)

def decode (buffer : Bytes) (count : Nat) : Except MessageError Message :=
  if count ≤ buffer.length then ofDatagram (buffer.take count) else .error (.tooShort buffer.length)

theorem encode_eq (m : Message) : m.encode =
    Bytes.ofNat 4 m.id.toNat ++ m.type.toByte :: Bytes.ofNat 2 m.body.length ++ m.body
      ++ m.signatureBytes := rfl

theorem ofDatagram_encode (m : Message) : ofDatagram m.encode = .ok m := by
  obtain ⟨id, type, body, signature, hb⟩ := m
  have hid : UInt32.ofNat (Bytes.toNat (Bytes.ofNat 4 id.toNat)) = id := by
    have hlt : id.toNat < Bytes.capacity 4 := id.toNat_lt
    rw [Bytes.toNat_ofNat, Nat.mod_eq_of_lt hlt]; simp
  have hl : Bytes.toNat (Bytes.ofNat 2 body.length) = body.length := by
    have hlt : body.length < Bytes.capacity 2 := hb
    rw [Bytes.toNat_ofNat, Nat.mod_eq_of_lt hlt]
  simp only [encode_eq, signatureBytes]
  simp only [Bytes.ofNat] at hid hl ⊢
  simp only [List.cons_append, List.nil_append, ofDatagram, MessageType.ofByte?_toByte, hid, hl]
  rw [if_neg (by simp)]
  cases signature with
  | none => simp
  | some s =>
    have hs : s.toList ≠ [] := by
      intro h
      have := congrArg List.length h
      simp at this
    simp [hs]

theorem encode_of_ofDatagram {b : Bytes} {m : Message} (h : ofDatagram b = .ok m) :
    m.encode = b := by
  unfold ofDatagram at h
  split at h
  case h_2 => contradiction
  case h_1 i j k l t p q rest =>
    split at h
    · contradiction
    · rename_i type ht
      dsimp only at h
      split at h
      · contradiction
      · rename_i hlen
        have hsize : Bytes.toNat [p, q] ≤ rest.length := by omega
        have hpq : Bytes.ofNat 2 (Bytes.toNat [p, q]) = [p, q] := Bytes.ofNat_toNat [p, q]
        have hijkl : Bytes.ofNat 4 (UInt32.ofNat (Bytes.toNat [i, j, k, l])).toNat = [i, j, k, l] := by
          have hlt : Bytes.toNat [i, j, k, l] < Bytes.capacity 4 := Bytes.toNat_lt [i, j, k, l]
          have hn : (UInt32.ofNat (Bytes.toNat [i, j, k, l])).toNat = Bytes.toNat [i, j, k, l] :=
            UInt32.toNat_ofNat_of_lt' hlt
          rw [hn]
          exact Bytes.ofNat_toNat [i, j, k, l]
        have hbyte := MessageType.toByte_of_ofByte? ht
        split at h
        · rename_i hextra
          cases Except.ok.inj h
          have htake : rest.take (Bytes.toNat [p, q]) = rest := by
            have := List.take_append_drop (Bytes.toNat [p, q]) rest
            rw [hextra, List.append_nil] at this
            exact this
          simp only [encode_eq, signatureBytes, hijkl, hbyte, List.length_take,
            Nat.min_eq_left hsize, hpq]
          simp [htake]
        · split at h
          · rename_i s hs
            cases Except.ok.inj h
            have hs' := Bytes.block?_eq_some_iff.mp hs
            simp only [encode_eq, signatureBytes, hijkl, hbyte, List.length_take,
              Nat.min_eq_left hsize, hpq]
            simp [hs']
          · contradiction

theorem ofDatagram_eq_ok_iff {b : Bytes} {m : Message} : ofDatagram b = .ok m ↔ m.encode = b :=
  ⟨encode_of_ofDatagram, fun h => h ▸ ofDatagram_encode m⟩

end Message
end TreeShare
