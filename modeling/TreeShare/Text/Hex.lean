import TreeShare.Bytes

/-! Hexadecimal text of byte strings. Writing uses lower case; reading takes either case. -/
namespace TreeShare.Hex

def digit (n : Nat) : Char :=
  if n < 10 then Char.ofNat (48 + n) else Char.ofNat (87 + n)

def value? (c : Char) : Option Nat :=
  if '0' ≤ c ∧ c ≤ '9' then some (c.toNat - 48)
  else if 'a' ≤ c ∧ c ≤ 'f' then some (c.toNat - 87)
  else if 'A' ≤ c ∧ c ≤ 'F' then some (c.toNat - 55)
  else none

def encodeChars : Bytes → List Char
  | [] => []
  | x :: b => digit (x.toNat / 16) :: digit (x.toNat % 16) :: encodeChars b

def decodeChars? : List Char → Option Bytes
  | [] => some []
  | [_] => none
  | hi :: lo :: rest => do
    let h ← value? hi
    let l ← value? lo
    let b ← decodeChars? rest
    pure (UInt8.ofNat (16 * h + l) :: b)

def number? (digits : List Char) : Option Nat :=
  digits.foldl (fun n c => do pure (16 * (← n) + (← value? c))) (some 0)

def encode (b : Bytes) : String :=
  String.ofList (encodeChars b)

def decode? (s : String) : Option Bytes :=
  decodeChars? s.toList

theorem value?_digit {n : Nat} (h : n < 16) : value? (digit n) = some n := by
  have all : ∀ m : Fin 16, value? (digit m.val) = some m.val := by decide
  exact all ⟨n, h⟩

theorem decodeChars?_encodeChars (b : Bytes) : decodeChars? (encodeChars b) = some b := by
  induction b with
  | nil => rfl
  | cons x b ih =>
    have hx : x.toNat < 256 := x.toNat_lt
    have hv : 16 * (x.toNat / 16) + x.toNat % 16 = x.toNat := Nat.div_add_mod ..
    have ho : UInt8.ofNat (16 * (x.toNat / 16) + x.toNat % 16) = x := by rw [hv]; simp
    simp only [encodeChars, decodeChars?, ih, value?_digit (show x.toNat / 16 < 16 by omega),
      value?_digit (show x.toNat % 16 < 16 by omega), Option.bind_eq_bind, Option.bind_some, ho,
      Option.pure_def]

@[simp] theorem decode?_encode (b : Bytes) : decode? (encode b) = some b := by
  simp [decode?, encode, decodeChars?_encodeChars]

theorem length_encodeChars (b : Bytes) : (encodeChars b).length = 2 * b.length := by
  induction b with
  | nil => rfl
  | cons x b ih => simp [encodeChars, ih]; omega

end TreeShare.Hex
