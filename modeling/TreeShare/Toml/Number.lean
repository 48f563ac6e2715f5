import TreeShare.Text.Hex
import TreeShare.Toml.Reader

/-! Integers of 64 bits, and floating-point numbers as far as it takes to tell them apart. -/
namespace TreeShare.Toml

open Reader

/-- Digits with single underscores between them; the underscores are left out. -/
def digitRun (isDigit : Char → Bool) : Reader (List Char) := do
  let first ← one isDigit
  let more ← many (one isDigit <|> (do word "_"; one isDigit))
  pure (first :: more)

def sign : Reader Bool := do
  match ← maybe (one fun c => c = '+' || c = '-') with
  | some c => pure (c = '-')
  | none => pure false

/-- Decimal digits without a leading zero, zero itself apart. -/
def plainDigits : Reader (List Char) :=
  (do ahead (one fun c => c ≠ '0'); digitRun Char.isDigit) <|> (do word "0"; pure ['0'])

def decimal (digits : List Char) : Nat :=
  digits.foldl (fun n c => 10 * n + (c.toNat - '0'.toNat)) 0

def bounded (n : Int) : Reader Int :=
  if -9223372036854775808 ≤ n ∧ n < 9223372036854775808 then pure n else fail

def radixInteger (mark : String) (radix : Nat) : Reader Int := do
  word mark
  let digits ← digitRun fun c => match Hex.value? c with
    | some d => d < radix
    | none => false
  bounded (digits.foldl (fun n c => radix * n + ((Hex.value? c).getD 0 : Nat)) 0)

def decimalInteger : Reader Int := do
  let negative ← sign
  let n := decimal (← plainDigits)
  bounded (if negative then -n else n)

def integerValue : Reader Int :=
  radixInteger "0x" 16 <|> radixInteger "0o" 8 <|> radixInteger "0b" 2 <|> decimalInteger

/-! ## Floating point -/

/-- The least number whose nearest double is infinite: halfway from the largest double to 2^1024. -/
def overflowBound : Nat := (1 <<< 1024) - (1 <<< 970)

/-- Whether `digits` times ten to the `exponent` is too large for a double. A count of digits decides all
but the numbers of about the right size. -/
def overflows (digits : Nat) (exponent : Int) : Bool :=
  let magnitude := (Nat.toDigits 10 digits).length + exponent
  if digits = 0 ∨ magnitude < 300 then false
  else if 320 < magnitude then true
  else if 0 ≤ exponent then overflowBound ≤ digits * Nat.pow 10 exponent.toNat
  else overflowBound * Nat.pow 10 (-exponent).toNat ≤ digits

def exponentPart : Reader Int := do
  discard (one fun c => c = 'e' || c = 'E')
  let negative ← sign
  let n := decimal (← digitRun Char.isDigit)
  pure (if negative then -n else n)

def fractionPart : Reader (List Char) := do
  word "."
  digitRun Char.isDigit

/-- A decimal number with a fraction, an exponent or both. One that is too large is refused, unless it is
negative. -/
def decimalFloat : Reader Unit := do
  let negative ← sign
  let whole ← plainDigits
  let fraction ← maybe fractionPart
  let exponent ← maybe exponentPart
  if fraction.isNone ∧ exponent.isNone then fail
  let fraction := fraction.getD []
  let tooLarge := overflows (decimal (whole ++ fraction)) (exponent.getD 0 - fraction.length)
  if tooLarge ∧ !negative then fail

def namedFloat : Reader Unit := do
  discard sign
  word "inf" <|> word "nan"

def floatValue : Reader Unit := decimalFloat <|> namedFloat

end TreeShare.Toml
