import TreeShare.Message
import TreeShare.Text.Utf8

/-! Bodies of Hello and HelloReply: four bytes of extensions, then the peer's name up to the end. -/
namespace TreeShare

structure Hello where
  extensions : UInt32
  peer : String
deriving DecidableEq

namespace Hello

def toBody (h : Hello) : Bytes :=
  Bytes.ofNat 4 h.extensions.toNat ++ Utf8.encode h.peer

/-- A name has at least one byte. -/
def parse (body : Bytes) : Except MessageError Hello :=
  if body.length ≤ 4 then .error (.badHello .short)
  else match Utf8.decode? (body.drop 4) with
    | some peer => .ok ⟨UInt32.ofNat (Bytes.toNat (body.take 4)), peer⟩
    | none => .error (.badHello .nameNotUtf8)

end Hello

namespace MessageType

def isHello : MessageType → Bool
  | hello | helloReply => true
  | _ => false

end MessageType

namespace Message

def hello (id : UInt32) (type : MessageType) (peer : String) : Except MessageError Message :=
  if type.isHello then new id type (Hello.toBody ⟨0, peer⟩) else .error (.notAHello type)

/-- The name that the sender of a Hello or HelloReply gives itself. -/
def claimedName? (m : Message) : Option String :=
  if m.type.isHello then
    match Hello.parse m.body with
    | .ok h => some h.peer
    | .error _ => none
  else none

end Message
end TreeShare
