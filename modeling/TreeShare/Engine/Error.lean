import TreeShare.Datum
import TreeShare.Directory
import TreeShare.Net.Address.Text

/-! Why a request has no usable reply. A hard failure means that nobody answered; a soft one that
somebody answered badly. -/
namespace TreeShare

inductive RequestError where
  | noReply (target : Address) (attempts : Nat)
  | socket
  | unreachable (peer : String)
  | directory (cause : DirectoryError)
  | unexpectedReply (sent got : MessageType)
  | noDatum (hash : Digest)
  | errorReply (text : String)
  | hashMismatch (expected got : Digest)
  | corrupted (cause : DatumError)
  | signature (cause : SignatureError)
  | malformed (cause : MessageError)
deriving DecidableEq

namespace RequestError

/-- A hard failure means that the address is dead. -/
def isHard : RequestError → Bool
  | noReply .. | socket | unreachable _ | directory _ => true
  | _ => false

def isSoft (e : RequestError) : Bool := !e.isHard

def reason : RequestError → String
  | noReply target attempts => s!"no reply from {target} after {attempts} attempts"
  | socket => "socket error"
  | unreachable peer => s!"{peer} is unreachable"
  | directory cause => cause.message
  | unexpectedReply sent got => s!"expected a reply to {sent.name}, got {got.name}"
  | noDatum hash => s!"no datum for {Hex.encode hash.toList}"
  | errorReply text => s!"error reply: {text}"
  | hashMismatch expected got =>
    s!"asked for {Hex.encode expected.toList} but got {Hex.encode got.toList}"
  | corrupted cause => cause.message
  | signature cause => cause.message
  | malformed cause => cause.message

def message (e : RequestError) : String :=
  (if e.isHard then "peer did not answer: " else "peer answered badly: ") ++ e.reason

end RequestError
end TreeShare
