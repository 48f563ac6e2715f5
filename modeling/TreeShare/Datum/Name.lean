import TreeShare.Text.Utf8
import TreeShare.Text.Quoted

/-! File names in the slots of a directory: 1 to 32 bytes of UTF-8 without a zero, filled up with zeros. -/
namespace TreeShare

abbrev Slot := Vector UInt8 32

inductive NameError where
  | empty
  | tooLong (name : String)
  | hasNul (name : String)
  | notUtf8 (bytes : Bytes)
deriving DecidableEq

def NameError.message : NameError → String
  | empty => "empty file name"
  | tooLong name => s!"file name longer than 32 bytes: {name}"
  | hasNul name => s!"file name contains a NUL byte: {Quoted.text name}"
  | notUtf8 bytes => s!"file name is not UTF-8: {Quoted.bytes bytes}"

namespace Slot

def ofName (name : String) : Except NameError Slot :=
  let b := Utf8.encode name
  if b = [] then .error .empty
  else if b.length > 32 then .error (.tooLong name)
  else if (0 : UInt8) ∈ b then .error (.hasNul name)
  else .ok (Bytes.padded 32 b)

def used (slot : Bytes) : Bytes := slot.takeWhile (· ≠ 0)

def nameOf (slot : Bytes) : Except NameError String :=
  let b := used slot
  if b = [] then .error .empty
  else match Utf8.decode? b with
    | some name => .ok name
    | none => .error (.notUtf8 b)

end Slot
end TreeShare
