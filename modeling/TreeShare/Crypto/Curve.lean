/-! The elliptic curve P-256: arithmetic modulo its prime and the group of its points. -/
namespace TreeShare.Curve

/-- The prime of the field, 2^256 - 2^224 + 2^192 + 2^96 - 1. -/
def prime : Nat := 0xffffffff00000001000000000000000000000000ffffffffffffffffffffffff

def order : Nat := 0xffffffff00000000ffffffffffffffffbce6faada7179e84f3b9cac2fc632551

/-- The constant term of y² = x³ - 3x + b. -/
def constantTerm : Nat := 0x5ac635d8aa3a93e7b3ebbd55769886bc651d06b0cc53b0f63bce3c3e27d2604b

/-- `base ^ exponent` modulo `m`, by the bits of the exponent; `bits` bounds their number. -/
def powMod (m : Nat) : (bits : Nat) → (base exponent : Nat) → Nat
  | 0, _, _ => 1 % m
  | bits + 1, base, exponent =>
    let half := powMod m bits (base * base % m) (exponent / 2)
    if exponent % 2 = 1 then half * base % m else half

/-- The inverse modulo a prime below 2^256. -/
def inverse (m x : Nat) : Nat :=
  powMod m 256 (x % m) (m - 2)

/-- A point by Jacobian coordinates: (x / z², y / z³), or the neutral point if `z` is zero. -/
structure Point where
  x : Nat
  y : Nat
  z : Nat

namespace Point

def neutral : Point := ⟨1, 1, 0⟩

def generator : Point :=
  ⟨0x6b17d1f2e12c4247f8bce6e563a440f277037d812deb33a0f4a13945d898c296,
    0x4fe342e2fe1a7f9b8ee7eb4a7c0f9e162bce33576b315ececbb6406837bf51f5, 1⟩

def double (p : Point) : Point :=
  let zz := p.z * p.z % prime
  let yy := p.y * p.y % prime
  let s := 4 * p.x * yy % prime
  let m := 3 * (p.x + prime - zz) * (p.x + zz) % prime
  let x := (m * m + 2 * (prime - s)) % prime
  let y := (m * (s + prime - x) + 8 * (prime - yy * yy % prime)) % prime
  ⟨x, y, 2 * p.y * p.z % prime⟩

def add (p q : Point) : Point :=
  if p.z = 0 then q
  else if q.z = 0 then p
  else
    let pzz := p.z * p.z % prime
    let qzz := q.z * q.z % prime
    let u1 := p.x * qzz % prime
    let u2 := q.x * pzz % prime
    let s1 := p.y * (qzz * q.z % prime) % prime
    let s2 := q.y * (pzz * p.z % prime) % prime
    if u1 = u2 then
      if s1 = s2 then p.double else neutral
    else
      let h := (u2 + prime - u1) % prime
      let r := (s2 + prime - s1) % prime
      let hh := h * h % prime
      let hhh := h * hh % prime
      let v := u1 * hh % prime
      let x := (r * r + (prime - hhh) + 2 * (prime - v)) % prime
      let y := (r * (v + prime - x) + (prime - s1 * hhh % prime)) % prime
      ⟨x, y, h * (p.z * q.z % prime) % prime⟩

/-- `k` times a point, for `k` below 2^`bits`. -/
def multiple : (bits k : Nat) → Point → Point
  | 0, _, _ => neutral
  | bits + 1, k, p =>
    let rest := multiple bits (k / 2) p.double
    if k % 2 = 1 then rest.add p else rest

def affine? (p : Point) : Option (Nat × Nat) :=
  if p.z = 0 then none
  else
    let i := inverse prime p.z
    let ii := i * i % prime
    some (p.x * ii % prime, p.y * (ii * i % prime) % prime)

end Point

def onCurve (x y : Nat) : Bool :=
  x < prime && y < prime
    && y * y % prime == (x * x * x + 3 * (prime - x) + constantTerm) % prime

end TreeShare.Curve
