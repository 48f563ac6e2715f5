/-! Byte strings, big-endian numbers and blocks of a fixed width. -/
namespace TreeShare

abbrev Bytes := List UInt8

abbrev Digest := Vector UInt8 32

namespace Bytes

/-- How many numbers `width` base-256 digits can write. -/
def capacity : (width : Nat) → Nat
  | 0 => 1
  | width + 1 => capacity width * 256

theorem capacity_pos (width : Nat) : 0 < capacity width := by
  induction width with
  | zero => decide
  | succ width ih => exact Nat.mul_pos ih (by decide)

/-- The last `width` base-256 digits of a number, most significant first. -/
def ofNat : (width : Nat) → Nat → Bytes
  | 0, _ => []
  | width + 1, n => UInt8.ofNat (n / capacity width) :: ofNat width n

/-- The number that a byte string writes in base 256, most significant digit first. -/
def toNat (b : Bytes) : Nat :=
  b.foldl (fun n x => 256 * n + x.toNat) 0

@[simp] theorem length_ofNat (width n : Nat) : (ofNat width n).length = width := by
  induction width with
  | zero => rfl
  | succ width ih => simp [ofNat, ih]

theorem foldl_digits (b : Bytes) (n : Nat) :
    b.foldl (fun n x => 256 * n + x.toNat) n = capacity b.length * n + toNat b := by
  induction b generalizing n with
  | nil => simp [toNat, capacity]
  | cons x b ih =>
    simp only [toNat, List.foldl_cons, List.length_cons] at ih ⊢
    rw [ih, ih (256 * 0 + x.toNat), capacity]
    simp only [Nat.mul_zero, Nat.zero_add, Nat.mul_add]
    rw [Nat.mul_assoc, Nat.add_assoc]

theorem toNat_cons (x : UInt8) (b : Bytes) :
    toNat (x :: b) = capacity b.length * x.toNat + toNat b := by
  have := foldl_digits b (256 * 0 + x.toNat)
  simpa [toNat] using this

theorem toNat_ofNat (width n : Nat) : toNat (ofNat width n) = n % capacity width := by
  induction width with
  | zero => simp [ofNat, toNat, capacity, Nat.mod_one]
  | succ width ih =>
    have h : n % (capacity width * 256)
        = n % capacity width + capacity width * (n / capacity width % 256) := Nat.mod_mul
    have hx : (UInt8.ofNat (n / capacity width)).toNat = n / capacity width % 256 :=
      UInt8.toNat_ofNat'
    rw [ofNat, toNat_cons, ih, length_ofNat, hx, Nat.add_comm]
    exact h.symm

theorem toNat_lt (b : Bytes) : toNat b < capacity b.length := by
  induction b with
  | nil => simp [toNat, capacity]
  | cons x b ih =>
    rw [toNat_cons, List.length_cons, capacity]
    have hx : x.toNat ≤ 255 := Nat.le_of_lt_succ x.toNat_lt
    calc capacity b.length * x.toNat + toNat b
        < capacity b.length * x.toNat + capacity b.length := by omega
      _ = capacity b.length * (x.toNat + 1) := by rw [Nat.mul_add, Nat.mul_one]
      _ ≤ capacity b.length * 256 := Nat.mul_le_mul_left _ (by omega)

theorem ofNat_add_mul (width n k : Nat) : ofNat width (capacity width * k + n) = ofNat width n := by
  induction width generalizing k n with
  | zero => rfl
  | succ width ih =>
    simp only [ofNat]
    have h : capacity (width + 1) * k + n = capacity width * (256 * k) + n := by
      rw [capacity, Nat.mul_assoc]
    rw [h, ih]
    congr 1
    rw [Nat.mul_add_div (capacity_pos width)]
    apply UInt8.toNat_inj.mp
    have hmod (m : Nat) : (UInt8.ofNat m).toNat = m % 256 := UInt8.toNat_ofNat'
    rw [hmod, hmod]
    omega

theorem ofNat_toNat (b : Bytes) : ofNat b.length (toNat b) = b := by
  induction b with
  | nil => rfl
  | cons x b ih =>
    rw [toNat_cons, List.length_cons, ofNat, ofNat_add_mul, ih]
    congr 1
    rw [Nat.mul_add_div (capacity_pos _), Nat.div_eq_of_lt (toNat_lt b)]
    simp

def block? (n : Nat) (b : Bytes) : Option (Vector UInt8 n) :=
  if h : b.length = n then some ⟨b.toArray, by simpa using h⟩ else none

theorem block?_eq_some_iff {n : Nat} {b : Bytes} {v : Vector UInt8 n} :
    block? n b = some v ↔ v.toList = b := by
  unfold block?
  constructor
  · intro h
    split at h
    · cases Option.some.inj h
      simp [Vector.toList]
    · contradiction
  · rintro rfl
    simp [Vector.toList]

@[simp] theorem block?_toList {n : Nat} (v : Vector UInt8 n) : block? n v.toList = some v :=
  block?_eq_some_iff.mpr rfl

/-- The first `n` bytes, filled up with zeros. -/
def padded (n : Nat) (b : Bytes) : Vector UInt8 n :=
  ⟨(b.take n ++ List.replicate (n - b.length) 0).toArray, by simp; omega⟩

@[simp] theorem toList_padded (n : Nat) (b : Bytes) :
    (padded n b).toList = b.take n ++ List.replicate (n - b.length) 0 := by
  simp [padded, Vector.toList]

/-- Consecutive blocks of `n` bytes; a shorter rest is left out. -/
def blocks (n : Nat) : (count : Nat) → Bytes → List Bytes
  | 0, _ => []
  | count + 1, b => b.take n :: blocks n count (b.drop n)

end Bytes
end TreeShare
