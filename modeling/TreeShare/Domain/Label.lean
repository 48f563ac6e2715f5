import TreeShare.Domain.Direction
import TreeShare.Domain.Joining
import TreeShare.Domain.Mapping
import TreeShare.Domain.Punycode
import TreeShare.Text.Composed

/-! Labels: the parts of a domain name between points. -/
namespace TreeShare.Domain

/-- A label as it is sent, in ASCII, and the characters that it stands for. -/
structure Label where
  ascii : List Char
  chars : List Char

namespace Label

def isAscii (cs : List Char) : Bool := cs.all (·.toNat < 0x80)

def mark : List Char := ['x', 'n', '-', '-']

def maxEncoded : Nat := 2000

def maxLength : Nat := 1000

/-- Whether characters stand for themselves alone and are composed. -/
def isPlain (cs : List Char) : Bool :=
  cs.all (fun c => image? c == some [c]) && Composed.text cs == cs

def isSound (cs : List Char) : Bool :=
  !cs.head?.any isMark && Joining.fits [] cs && (isAscii cs || cs.length ≤ maxLength)

def decoded? (text : List Char) : Option (List Char) := do
  guard (isAscii text ∧ text ≠ [] ∧ text.getLast? ≠ some '-' ∧ text.length ≤ maxEncoded)
  let cs ← Punycode.decode? text
  guard (isPlain cs)
  pure cs

def read? (cs : List Char) : Option Label := do
  let chars ← if mark.isPrefixOf cs then decoded? (cs.drop mark.length) else some cs
  guard (isSound chars)
  pure ⟨if isAscii cs then cs else mark ++ Punycode.encode cs, chars⟩

def directions (label : Label) : List Direction := label.chars.map Direction.ofChar

end Label
end TreeShare.Domain
