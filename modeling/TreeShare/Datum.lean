import TreeShare.Datum.Error
import TreeShare.Message

/-! Datums, the nodes of a published tree, and their bodies:

    hash (32 bytes) | kind (1) | payload

The hash is what the body states; `checkIntegrity` compares it with the digest of kind and payload. -/
namespace TreeShare

structure DirectoryEntry where
  name : String
  hash : Digest
deriving DecidableEq

/-- A piece of a file, the children of a large file, or the entries of a directory. -/
inductive Content where
  | chunk (data : Bytes)
  | tree (children : List Digest)
  | directory (entries : List DirectoryEntry)
deriving DecidableEq

structure Datum where
  hash : Digest
  content : Content
deriving DecidableEq

namespace DirectoryEntry

def toBytes (e : DirectoryEntry) : Except NameError Bytes :=
  (Slot.ofName e.name).map fun slot => slot.toList ++ e.hash.toList

def ofBytes (b : Bytes) : Except NameError DirectoryEntry :=
  (Slot.nameOf (b.take 32)).map fun name => ⟨name, Bytes.padded 32 (b.drop 32)⟩

def allToBytes : List DirectoryEntry → Except NameError Bytes
  | [] => .ok []
  | e :: es => do
    let b ← e.toBytes
    let bs ← allToBytes es
    pure (b ++ bs)

def allOfBytes : (count : Nat) → Bytes → Except NameError (List DirectoryEntry)
  | 0, _ => .ok []
  | count + 1, b => do
    let e ← ofBytes (b.take 64)
    let es ← allOfBytes count (b.drop 64)
    pure (e :: es)

end DirectoryEntry

namespace Content

def kind : Content → DatumKind
  | chunk _ => .chunk
  | tree _ => .tree
  | directory _ => .directory

def payload : Content → Except NameError Bytes
  | chunk data => .ok data
  | tree children => .ok (children.flatMap Vector.toList)
  | directory entries => DirectoryEntry.allToBytes entries

def checkSize : Content → Except DatumError Unit
  | chunk data => if data.length ≤ 1024 then .ok () else .error (.chunkTooLarge data.length)
  | tree children =>
    if 2 ≤ children.length ∧ children.length ≤ 32 then .ok () else .error (.fanout children.length)
  | directory entries =>
    if entries.length ≤ 16 then .ok () else .error (.tooManyEntries entries.length)

def InBounds (c : Content) : Prop := c.checkSize = .ok ()

instance (c : Content) : Decidable c.InBounds := by
  unfold InBounds
  cases c.checkSize with
  | ok u => exact .isTrue rfl
  | error e => exact .isFalse (by simp)

end Content

namespace Datum

def hashOf (kind : DatumKind) (payload : Bytes) : Digest :=
  Sha256.digest (kind.toByte :: payload)

/-- The root of a peer that publishes nothing. -/
def emptyRoot : Digest := Sha256.digest []

def ofContent (c : Content) : Except DatumError Datum := do
  c.checkSize
  let payload ← c.payload.mapError .badName
  pure ⟨hashOf c.kind payload, c⟩

def toBody (d : Datum) : Except DatumError Bytes := do
  let payload ← d.content.payload.mapError .badName
  pure (d.hash.toList ++ d.content.kind.toByte :: payload)

def digests : (count : Nat) → Bytes → List Digest
  | 0, _ => []
  | count + 1, b => Bytes.padded 32 b :: digests count (b.drop 32)

def readContent (kind : DatumKind) (payload : Bytes) : Except DatumError Content :=
  match kind with
  | .chunk =>
    if payload.length ≤ 1024 then .ok (.chunk payload) else .error (.chunkTooLarge payload.length)
  | .tree =>
    let count := payload.length / 32
    if payload.length % 32 ≠ 0 then .error (.misaligned kind payload.length)
    else if 2 ≤ count ∧ count ≤ 32 then .ok (.tree (digests count payload))
    else .error (.fanout count)
  | .directory =>
    let count := payload.length / 64
    if payload.length % 64 ≠ 0 then .error (.misaligned kind payload.length)
    else if count ≤ 16 then
      match DirectoryEntry.allOfBytes count payload with
      | .ok entries => .ok (.directory entries)
      | .error cause => .error (.badName cause)
    else .error (.tooManyEntries count)

/-- Reads a body without comparing its hash. -/
def parse (body : Bytes) : Except DatumError Datum :=
  match body.drop 32 with
  | [] => .error (.tooShort body.length)
  | k :: payload =>
    match DatumKind.ofByte? k with
    | none => .error (.unknownKind k)
    | some kind => (readContent kind payload).map fun c => ⟨Bytes.padded 32 body, c⟩

def checkIntegrity (body : Bytes) : Except DatumError Unit :=
  if body.length < 33 then .error (.tooShort body.length)
  else if (Sha256.digest (body.drop 32)).toList ≠ body.take 32 then .error .corrupted
  else (parse body).map fun _ => ()

def toMessage (id : UInt32) (d : Datum) : Except DatumError Message := do
  let body ← d.toBody
  if h : body.length ≤ 1057 then pure ⟨id, .datum, body, none, by omega⟩
  else .error (.chunkTooLarge (body.length - 33))

end Datum
end TreeShare
