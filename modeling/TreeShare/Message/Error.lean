import TreeShare.Message.Type
import TreeShare.Net.Address

/-! Why bytes are no message, or a message's body is not what its type asks for. -/
namespace TreeShare

inductive HelloError where
  | short
  | nameNotUtf8
deriving DecidableEq

def HelloError.message : HelloError → String
  | short => "body too short"
  | nameNotUtf8 => "peer name is not UTF-8"

deriving instance DecidableEq for Endpoint.ReadError

inductive MessageError where
  | tooShort (size : Nat)
  | unknownType (byte : UInt8)
  | truncated (stated received : Nat)
  | trailing (extra : Nat)
  | bodyTooLarge (size : Nat)
  | notAHello (type : MessageType)
  | bodyLength (type : MessageType) (expected size : Nat)
  | badHello (cause : HelloError)
  | badAddress (cause : Endpoint.ReadError)
deriving DecidableEq

def MessageError.message : MessageError → String
  | tooShort size => s!"datagram too short for a header: {size} bytes"
  | unknownType byte => s!"unknown message type: {byte.toNat}"
  | truncated stated received =>
    s!"message truncated: stated length {stated} but received {received} bytes"
  | trailing extra => s!"invalid size: {extra} trailing bytes do not form a signature"
  | bodyTooLarge size => s!"body of {size} bytes does not fit the length field"
  | notAHello type => s!"{type.name} is not a Hello or HelloReply"
  | bodyLength type expected size => s!"{type.name} body must be {expected} bytes, got {size}"
  | badHello cause => s!"malformed hello: {cause.message}"
  | badAddress cause => s!"malformed address: {cause.message}"

end TreeShare
