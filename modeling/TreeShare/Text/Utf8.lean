import TreeShare.Bytes

/-! UTF-8: text to bytes and back, and a reading of any bytes that marks what is broken.
`decode? (encode s) = some s`, and bytes that decode are the encoding of what they decode to. -/
namespace TreeShare.Utf8

def encode (s : String) : Bytes :=
  s.toByteArray.data.toList

def decode? (b : Bytes) : Option String :=
  String.fromUTF8? ⟨b.toArray⟩

@[simp] theorem decode?_encode (s : String) : decode? (encode s) = some s := by
  have h : (⟨(encode s).toArray⟩ : ByteArray) = s.toByteArray := by simp [encode]
  unfold decode? String.fromUTF8?
  rw [h, dif_pos s.isValidUTF8]
  rfl

theorem encode_of_decode? {b : Bytes} {s : String} (h : decode? b = some s) : encode s = b := by
  unfold decode? String.fromUTF8? at h
  split at h
  · cases Option.some.inj h
    simp [encode, String.fromUTF8]
  · contradiction

theorem decode?_eq_some_iff {b : Bytes} {s : String} : decode? b = some s ↔ b = encode s :=
  ⟨fun h => (encode_of_decode? h).symm, fun h => h ▸ decode?_encode s⟩

theorem encode_inj {s t : String} (h : encode s = encode t) : s = t :=
  Option.some.inj ((decode?_encode s).symm.trans (h ▸ decode?_encode t))

@[simp] theorem encode_empty : encode "" = [] := rfl

theorem encode_append (s t : String) : encode (s ++ t) = encode s ++ encode t := by
  simp [encode]

/-- What the byte at the start of a character announces: the character itself, or the high bits of
its number and the range of each byte that has to follow. -/
inductive Lead where
  | whole (c : Char)
  | more (high : Nat) (ranges : List (UInt8 × UInt8))
  | broken

def lead (x : UInt8) : Lead :=
  let tail : UInt8 × UInt8 := (0x80, 0xbf)
  if x < 0x80 then .whole (Char.ofNat x.toNat)
  else if x < 0xc2 then .broken
  else if x < 0xe0 then .more (x.toNat - 0xc0) [tail]
  else if x = 0xe0 then .more 0 [(0xa0, 0xbf), tail]
  else if x = 0xed then .more 0xd [(0x80, 0x9f), tail]
  else if x < 0xf0 then .more (x.toNat - 0xe0) [tail, tail]
  else if x = 0xf0 then .more 0 [(0x90, 0xbf), tail, tail]
  else if x < 0xf4 then .more (x.toNat - 0xf0) [tail, tail, tail]
  else if x = 0xf4 then .more 4 [(0x80, 0x8f), tail, tail]
  else .broken

/-- A character of which some bytes have been read: its number so far and the ranges still due. -/
structure Unfinished where
  high : Nat
  due : UInt8 × UInt8
  later : List (UInt8 × UInt8)

def broken : Char := '\uFFFD'

def beginAt (x : UInt8) : List Char × Option Unfinished :=
  match lead x with
  | .whole c => ([c], none)
  | .more high (due :: later) => ([], some ⟨high, due, later⟩)
  | .more _ [] => ([broken], none)
  | .broken => ([broken], none)

def step : Option Unfinished → UInt8 → List Char × Option Unfinished
  | none, x => beginAt x
  | some u, x =>
    if u.due.1 ≤ x ∧ x ≤ u.due.2 then
      let code := u.high * 64 + x.toNat % 64
      match u.later with
      | [] => ([Char.ofNat code], none)
      | due :: later => ([], some ⟨code, due, later⟩)
    else
      let (out, next) := beginAt x
      (broken :: out, next)

def lossyChars : Option Unfinished → Bytes → List Char
  | none, [] => []
  | some _, [] => [broken]
  | state, x :: b => (step state x).1 ++ lossyChars (step state x).2 b

/-- Any bytes as text. Each longest start of a character that is not continued as it has to be,
and each byte that starts none, becomes one replacement character. -/
def lossy (b : Bytes) : String :=
  String.ofList (lossyChars none b)

end TreeShare.Utf8
