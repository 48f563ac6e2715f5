/-! The fourteen types of message. Types below 128 are requests, the others are replies. -/
namespace TreeShare

inductive MessageType where
  | noOp
  | error
  | hello
  | publicKey
  | root
  | getDatum
  | natTraversalRequest
  | natTraversal
  | errorReply
  | helloReply
  | publicKeyReply
  | rootReply
  | datum
  | noDatum
deriving DecidableEq, Inhabited

namespace MessageType

def toByte : MessageType → UInt8
  | noOp => 0
  | error => 1
  | hello => 2
  | publicKey => 3
  | root => 4
  | getDatum => 5
  | natTraversalRequest => 6
  | natTraversal => 7
  | errorReply => 128
  | helloReply => 129
  | publicKeyReply => 130
  | rootReply => 131
  | datum => 132
  | noDatum => 133

def all : List MessageType :=
  [noOp, error, hello, publicKey, root, getDatum, natTraversalRequest, natTraversal, errorReply,
    helloReply, publicKeyReply, rootReply, datum, noDatum]

def ofByte? (b : UInt8) : Option MessageType :=
  all.find? (·.toByte == b)

theorem ofByte?_toByte (t : MessageType) : ofByte? t.toByte = some t := by
  cases t <;> rfl

theorem toByte_of_ofByte? {b : UInt8} {t : MessageType} (h : ofByte? b = some t) : t.toByte = b := by
  simpa using List.find?_some h

def name : MessageType → String
  | noOp => "NoOp"
  | error => "Error"
  | hello => "Hello"
  | publicKey => "PublicKey"
  | root => "Root"
  | getDatum => "GetDatum"
  | natTraversalRequest => "NatTraversalRequest"
  | natTraversal => "NatTraversal"
  | errorReply => "ErrorReply"
  | helloReply => "HelloReply"
  | publicKeyReply => "PublicKeyReply"
  | rootReply => "RootReply"
  | datum => "Datum"
  | noDatum => "NoDatum"

def isRequest (t : MessageType) : Bool := t.toByte < 128

def isReply (t : MessageType) : Bool := !t.isRequest

/-- Whether a sender that published a key has to sign messages of this type. -/
def mustBeSigned : MessageType → Bool
  | hello | helloReply | publicKey | publicKeyReply | root | rootReply => true
  | _ => false

def expectsReply (t : MessageType) : Bool :=
  t.isRequest && t != natTraversalRequest && t != natTraversal

/-- Whether `reply` is of a type that answers `request`: its number is larger by 127, or it says that
the datum asked for is missing. -/
def answers (reply request : MessageType) : Bool :=
  request.expectsReply && reply.isReply
    && (reply.toByte - request.toByte == 127 || (request == getDatum && reply == noDatum))

end MessageType
end TreeShare
