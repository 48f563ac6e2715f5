import TreeShare.Message
import TreeShare.Text.Hex

/-! Signatures on messages. A sender that published a key has to sign the types that must be signed, and
any signature it sends has to verify; a sender without a key is taken as it comes. -/
namespace TreeShare

/-- What the protocol needs of a signature scheme: keys of 64 bytes from scalars of 32, signatures of
64 bytes. -/
structure SignatureScheme where
  publicKey? : Scalar → Option PublicKey
  isKey : PublicKey → Bool
  sign : Scalar → Bytes → Signature
  verify : PublicKey → Bytes → Signature → Bool

namespace SignatureScheme

def p256 : SignatureScheme :=
  ⟨Ecdsa.publicKey?, Ecdsa.isKey, Ecdsa.sign, Ecdsa.verify⟩

/-- A signature verifies under the public key of the scalar that made it, and that key is one. -/
def AcceptsOwn (scheme : SignatureScheme) : Prop :=
  ∀ secret key, scheme.publicKey? secret = some key → scheme.isKey key = true ∧
    ∀ message, scheme.verify key message (scheme.sign secret message) = true

end SignatureScheme

inductive SignatureError where
  | missing
  | invalid
  | badKey
  | badLength (size : Nat)
deriving DecidableEq

def SignatureError.message : SignatureError → String
  | missing => "required signature is missing"
  | invalid => "signature does not verify"
  | badKey => "public key is not a valid P-256 point"
  | badLength size => s!"public key has {size} bytes, expected 64"

/-- A published key; no bytes at all mean that the peer does not sign. -/
def PublicKey.parse (b : Bytes) : Except SignatureError (Option PublicKey) :=
  if b = [] then .ok none
  else match Bytes.block? 64 b with
    | some key => .ok (some key)
    | none => .error (.badLength b.length)

structure Keypair where
  secret : Scalar
  publicKey : PublicKey
deriving DecidableEq

namespace Keypair

def ofSecret? (scheme : SignatureScheme) (secret : Scalar) : Option Keypair :=
  (scheme.publicKey? secret).map fun key => ⟨secret, key⟩

/-- Shows the public half only. -/
def text (k : Keypair) : String :=
  "Keypair \x7b public: \"" ++ Hex.encode k.publicKey.toList ++ "\", .. \x7d"

end Keypair

namespace Message

def sign (scheme : SignatureScheme) (k : Keypair) (m : Message) : Message :=
  m.withSignature (scheme.sign k.secret m.canonical)

/-- An unsigned message verifies under every key. -/
def verifies (scheme : SignatureScheme) (key : PublicKey) (m : Message) : Bool :=
  match m.signature with
  | none => true
  | some s => scheme.isKey key && scheme.verify key m.canonical s

def checkSignature (scheme : SignatureScheme) (key : PublicKey) (m : Message) :
    Except SignatureError Unit :=
  match m.signature with
  | none => if m.type.mustBeSigned then .error .missing else .ok ()
  | some _ =>
    if !scheme.isKey key then .error .badKey
    else if m.verifies scheme key then .ok ()
    else .error .invalid

end Message
end TreeShare
