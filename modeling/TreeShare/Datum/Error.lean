import TreeShare.Datum.Name

/-! The three kinds of datum, and why bytes are none. -/
namespace TreeShare

inductive DatumKind where
  | chunk
  | tree
  | directory
deriving DecidableEq

namespace DatumKind

def toByte : DatumKind → UInt8
  | chunk => 0
  | tree => 1
  | directory => 2

def ofByte? (b : UInt8) : Option DatumKind :=
  [chunk, tree, directory].find? (·.toByte == b)

theorem ofByte?_toByte (k : DatumKind) : ofByte? k.toByte = some k := by
  cases k <;> rfl

theorem toByte_of_ofByte? {b : UInt8} {k : DatumKind} (h : ofByte? b = some k) : k.toByte = b := by
  simpa using List.find?_some h

def name : DatumKind → String
  | chunk => "Chunk"
  | tree => "Tree"
  | directory => "Directory"

end DatumKind

inductive DatumError where
  | tooShort (size : Nat)
  | unknownKind (byte : UInt8)
  | corrupted
  | chunkTooLarge (size : Nat)
  | fanout (count : Nat)
  | tooManyEntries (count : Nat)
  | misaligned (kind : DatumKind) (size : Nat)
  | badName (cause : NameError)
deriving DecidableEq

def DatumError.message : DatumError → String
  | tooShort size => s!"datum body too short: {size} bytes"
  | unknownKind byte => s!"unknown datum kind: {byte.toNat}"
  | corrupted => "datum is corrupted: hash does not match content"
  | chunkTooLarge size => s!"chunk of {size} bytes exceeds 1024"
  | fanout count => s!"tree must have 2..=32 children, got {count}"
  | tooManyEntries count => s!"directory holds at most 16 entries, got {count}"
  | misaligned kind size => s!"{kind.name} payload of {size} bytes is not a whole number of entries"
  | badName cause => cause.message

end TreeShare
