import TreeShare.Crypto.Sha256
import TreeShare.Crypto.Curve

/-! ECDSA over P-256 with SHA-256. The nonce is drawn from the key and the message, so that signing is
a function; neither signing nor verifying asks for the smaller of the two equivalent `s`. -/
namespace TreeShare

abbrev Scalar := Vector UInt8 32
abbrev PublicKey := Vector UInt8 64
abbrev Signature := Vector UInt8 64

namespace Ecdsa

open Curve

def pair (a b : Nat) : Vector UInt8 64 :=
  ⟨(Bytes.ofNat 32 a ++ Bytes.ofNat 32 b).toArray, by simp⟩

def first (v : Vector UInt8 64) : Nat := Bytes.toNat (v.toList.take 32)
def second (v : Vector UInt8 64) : Nat := Bytes.toNat (v.toList.drop 32)

/-- The point that belongs to a private scalar, unless the scalar is zero or not below the order. -/
def publicKey? (secret : Scalar) : Option PublicKey := do
  let d := Bytes.toNat secret.toList
  guard (d ≠ 0 ∧ d < order)
  let (x, y) ← (Point.multiple 256 d .generator).affine?
  pure (pair x y)

structure NonceState where
  key : Bytes
  value : Bytes

namespace NonceState

def absorb (s : NonceState) (input : Bytes) : NonceState :=
  let key := (Sha256.hmac s.key (s.value ++ input)).toList
  ⟨key, (Sha256.hmac key s.value).toList⟩

def start (secret message : Bytes) : NonceState :=
  let s : NonceState := ⟨List.replicate 32 0, List.replicate 32 1⟩
  (s.absorb (0 :: secret ++ message)).absorb (1 :: secret ++ message)

def next (s : NonceState) : NonceState :=
  { s with value := (Sha256.hmac s.key s.value).toList }

end NonceState

/-- The signature under one nonce, if the nonce and both of its numbers are in range. -/
def signWith? (d z k : Nat) : Option (Nat × Nat) := do
  guard (k ≠ 0 ∧ k < order)
  let (x, _) ← (Point.multiple 256 k .generator).affine?
  let r := x % order
  let s := inverse order k * ((z + r * d) % order) % order
  guard (r ≠ 0 ∧ s ≠ 0)
  pure (r, s)

/-- Tries nonces in turn. Each is refused with a probability below 2^-32, so few tries suffice. -/
def signFrom (d z : Nat) : (tries : Nat) → NonceState → Nat × Nat
  | 0, _ => (0, 0)
  | tries + 1, s =>
    let drawn := s.next
    match signWith? d z (Bytes.toNat drawn.value) with
    | some rs => rs
    | none => signFrom d z tries (drawn.absorb [0])

def sign (secret : Scalar) (message : Bytes) : Signature :=
  let z := Bytes.toNat (Sha256.digest message).toList
  let start := NonceState.start secret.toList (Bytes.ofNat 32 (z % order))
  let (r, s) := signFrom (Bytes.toNat secret.toList) (z % order) 64 start
  pair r s

def isKey (key : PublicKey) : Bool :=
  onCurve (first key) (second key)

def verify (key : PublicKey) (message : Bytes) (signature : Signature) : Bool :=
  let r := first signature
  let s := second signature
  let z := Bytes.toNat (Sha256.digest message).toList % order
  let w := inverse order s
  let sum := (Point.multiple 256 (z * w % order) .generator).add
    (Point.multiple 256 (r * w % order) ⟨first key, second key, 1⟩)
  isKey key && r != 0 && s != 0 && r < order && s < order
    && match sum.affine? with
      | some (x, _) => x % order == r
      | none => false

end Ecdsa
end TreeShare
