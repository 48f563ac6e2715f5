/-! Any characters in letters, digits and hyphens. The ASCII characters come first. For the others, in
ascending order, follow the steps from one to the next over pairs of a code point and a place,
as numbers of variable length with base 36 and thresholds that follow the size of the last step. -/
namespace TreeShare.Domain.Punycode

def digit (n : Nat) : Char :=
  if n < 26 then Char.ofNat (97 + n) else Char.ofNat (22 + n)

def value? (c : Char) : Option Nat :=
  if 'a' ≤ c ∧ c ≤ 'z' then some (c.toNat - 97)
  else if '0' ≤ c ∧ c ≤ '9' then some (c.toNat - 22)
  else none

/-- A digit below the threshold of its position is the last of its number. -/
def threshold (bias position : Nat) : Nat :=
  min 26 (max 1 (position - bias))

theorem threshold_pos (bias position : Nat) : 0 < threshold bias position := by
  unfold threshold; omega

/-- The positions that a step of this size needs, and what is left of it. -/
def reduced (delta positions : Nat) : Nat × Nat :=
  if 455 < delta then reduced (delta / 35) (positions + 36) else (delta, positions)
termination_by delta
decreasing_by omega

/-- The bias after a step, by its size and the number of characters so far. The first step is taken
for much larger than the next will be. -/
def adapted (delta count : Nat) (first : Bool) : Nat :=
  let scaled := if first then delta / 700 else delta / 2
  let (rest, positions) := reduced (scaled + scaled / count) 0
  positions + 36 * rest / (rest + 38)

def firstBias : Nat := 72

def firstCode : Nat := 128

def firstPosition : Nat := 36

def digits (bias position n : Nat) : List Char :=
  let t := threshold bias position
  if n < t then [digit n]
  else digit (t + (n - t) % (36 - t)) :: digits bias (position + 36) ((n - t) / (36 - t))
termination_by n
decreasing_by
  have pos := threshold_pos bias position
  have := Nat.div_le_self (n - threshold bias position) (36 - threshold bias position)
  omega

/-- What has been written: how many characters, the steps not yet written, and the digits. -/
structure Written where
  count : Nat
  delta : Nat
  bias : Nat
  out : List Char

/-- One place of the text, where the code point to write next may stand. -/
def Written.visit (basic code : Nat) (w : Written) (c : Char) : Written :=
  if c.toNat < code then ⟨w.count, w.delta + 1, w.bias, w.out⟩
  else if c.toNat = code then
    ⟨w.count + 1, 0, adapted w.delta (w.count + 1) (w.count = basic),
      w.out ++ digits w.bias firstPosition w.delta⟩
  else w

def writeCodes (chars : List Char) (basic : Nat) : Nat → List Nat → Written → Written
  | _, [], w => w
  | start, code :: codes, w =>
    let before := w.delta + (code - start) * (w.count + 1)
    let after := chars.foldl (Written.visit basic code) ⟨w.count, before, w.bias, w.out⟩
    writeCodes chars basic (code + 1) codes ⟨after.count, after.delta + 1, after.bias, after.out⟩

def encode (chars : List Char) : List Char :=
  let ascii := chars.filter (·.toNat < firstCode)
  let codes := ((chars.filter (firstCode ≤ ·.toNat)).map Char.toNat).mergeSort.eraseReps
  let start : Written := ⟨ascii.length, 0, firstBias, []⟩
  (if ascii.isEmpty then [] else ascii ++ ['-'])
    ++ (writeCodes chars ascii.length firstCode codes start).out

/-- Numbers are read in 32 bits. -/
def word? (n : Nat) : Option Nat :=
  if n < 4294967296 then some n else none

/-- What has been read: the text so far, the code point and the place that the steps have come to, and
the number under way with the weight and the position of its next digit. A number counts on from the
place. -/
structure Reading where
  chars : List Char
  code : Nat
  place : Nat
  bias : Nat
  number : Nat
  weight : Nat
  position : Nat

namespace Reading

def insert? (r : Reading) : Option Reading := do
  let count := r.chars.length + 1
  let place := r.number % count
  let code ← word? (r.code + r.number / count)
  if code.isValidChar then
    pure
      { chars := r.chars.take place ++ Char.ofNat code :: r.chars.drop place
        code
        place := place + 1
        bias := adapted (r.number - r.place) count (r.place = 0)
        number := place + 1
        weight := 1
        position := firstPosition }
  else none

def digit? (r : Reading) (c : Char) : Option Reading := do
  let d ← value? c
  let number ← word? (r.number + d * r.weight)
  let next := { r with number }
  let t := threshold r.bias r.position
  if d < t then next.insert?
  else
    let weight ← word? (r.weight * (36 - t))
    pure { next with weight, position := r.position + 36 }

end Reading

/-- What is before the last hyphen and what is after it, if there is anything before it. -/
def split (text : List Char) : List Char × List Char :=
  let after := (text.reverse.takeWhile (· ≠ '-')).reverse
  let before := text.take (text.length - after.length - 1)
  if before.isEmpty then ([], text) else (before, after)

def decode? (text : List Char) : Option (List Char) := do
  let (ascii, rest) := split text
  let r ← rest.foldlM Reading.digit? ⟨ascii, firstCode, 0, firstBias, 0, 1, firstPosition⟩
  if r.position = firstPosition then some r.chars else none

end TreeShare.Domain.Punycode
