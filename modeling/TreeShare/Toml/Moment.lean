import TreeShare.Toml.Number

/-! Dates and times. -/
namespace TreeShare.Toml

open Reader

def fixedNumber (width : Nat) : Reader Nat := fun input =>
  let digits := input.take width
  if digits.length = width ∧ digits.all Char.isDigit then
    some (decimal digits, input.drop width)
  else none

def within (low high : Nat) (r : Reader Nat) : Reader Nat := do
  let n ← r
  if low ≤ n ∧ n ≤ high then pure n else fail

def isLeapYear (year : Nat) : Bool :=
  year % 4 = 0 && (year % 100 ≠ 0 || year % 400 = 0)

def daysIn (year month : Nat) : Nat :=
  if month = 2 then (if isLeapYear year then 29 else 28)
  else if month ∈ [4, 6, 9, 11] then 30
  else 31

def date : Reader Unit := do
  let year ← fixedNumber 4
  word "-"
  let month ← within 1 12 (fixedNumber 2)
  word "-"
  discard (within 1 (daysIn year month) (fixedNumber 2))

/-- A time of day, which may have a leap second. -/
def time : Reader Unit := do
  discard (within 0 23 (fixedNumber 2))
  word ":"
  discard (within 0 59 (fixedNumber 2))
  word ":"
  discard (within 0 60 (fixedNumber 2))
  discard (maybe (do word "."; run1 Char.isDigit))

def offset : Reader Unit :=
  discard (one fun c => c = 'Z' || c = 'z')
    <|> (do
      discard (one fun c => c = '+' || c = '-')
      discard (within 0 23 (fixedNumber 2))
      word ":"
      discard (within 0 59 (fixedNumber 2)))

def dayTime : Reader Unit := do
  discard (one fun c => c = 'T' || c = 't' || c = ' ')
  time
  discard (maybe offset)

def momentValue : Reader Unit :=
  (do date; discard (maybe dayTime)) <|> time

end TreeShare.Toml
