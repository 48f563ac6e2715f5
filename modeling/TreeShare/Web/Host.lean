import TreeShare.Domain
import TreeShare.Net.Address.Text
import TreeShare.Web.Percent

/-! Hosts of URLs: names, and addresses in the spellings that URLs allow. -/
namespace TreeShare.Web

inductive UrlError where
  | relative
  | emptyHost
  | badPort
  | badName
  | badHostCharacter
  | badIp4
  | badIp6
deriving DecidableEq

def UrlError.message : UrlError → String
  | relative => "relative URL without a base"
  | emptyHost => "empty host"
  | badPort => "invalid port number"
  | badName => "invalid international domain name"
  | badHostCharacter => "invalid domain character"
  | badIp4 => "invalid IPv4 address"
  | badIp6 => "invalid IPv6 address"

inductive Host where
  | name (text : String)
  | ip4 (ip : Vector UInt8 4)
  | ip6 (groups : Vector UInt16 8)
deriving DecidableEq

namespace Host

def text : Host → String
  | name t => t
  | ip4 ip => Address.ip4Text ip
  | ip6 gs => "[" ++ Address.ip6Text gs.toList ++ "]"

/-- The number of digits of a radix, if they are all digits of it. No digits make zero. -/
def radixNumber? (radix : Nat) (digits : List Char) : Option Nat :=
  digits.foldl (fun n c => do
    let d ← Hex.value? c
    if d < radix then pure (radix * (← n) + d) else none) (some 0)

/-- A part of an IPv4 address: decimal, octal after `0`, hexadecimal after `0x`. -/
def ip4Part? : List Char → Option Nat
  | [] => none
  | '0' :: 'x' :: digits | '0' :: 'X' :: digits => radixNumber? 16 digits
  | '0' :: d :: digits => radixNumber? 8 (d :: digits)
  | digits => radixNumber? 10 digits

def parts (chars : List Char) : List (List Char) :=
  let ps := chars.splitOn '.'
  if 1 < ps.length ∧ ps.getLast? = some [] then ps.dropLast else ps

/-- Whether a name must be read as an IPv4 address: its last part is a number. -/
def endsInNumber (chars : List Char) : Bool :=
  match (parts chars).getLast? with
  | some last => (!last.isEmpty && last.all Char.isDigit) || (ip4Part? last).isSome
  | none => false

/-- Up to four parts, of which the last fills what the others leave. -/
def parseIp4 (chars : List Char) : Except UrlError Host :=
  match (parts chars).mapM ip4Part? with
  | some numbers =>
    match numbers.getLast? with
    | some last =>
      let front := numbers.dropLast
      let room := Bytes.capacity (4 - front.length)
      if front.length ≤ 3 ∧ front.all (· ≤ 255) ∧ last < room then
        let high := front.foldl (fun n part => 256 * n + part) 0
        .ok (.ip4 (Bytes.padded 4 (Bytes.ofNat 4 (high * room + last))))
      else .error .badIp4
    | none => .error .badIp4
  | none => .error .badIp4

def parseIp6 (chars : List Char) : Except UrlError Host :=
  match Address.ip6? chars with
  | some (groups, [']']) => .ok (.ip6 groups)
  | _ => .error .badIp6

def isForbiddenInName (c : Char) : Bool :=
  c ≤ ' ' || c = '\x7f' || "%#/:<>?@[\\]^|".contains c

def isForbiddenElsewhere (c : Char) : Bool :=
  c = '\x00' || c = ' ' || "#/:<>?@[\\]^|".contains c

def parse (chars : List Char) : Except UrlError Host :=
  match chars with
  | '[' :: rest => parseIp6 rest
  | _ =>
    let plain := Utf8.lossy (decodedBytes (Utf8.encode (String.ofList chars)))
    match Domain.ascii? plain.toList with
    | none => .error .badName
    | some ascii =>
      if ascii.any isForbiddenInName then .error .badName
      else if ascii.isEmpty then .error .emptyHost
      else if endsInNumber ascii then parseIp4 ascii
      else .ok (.name (String.ofList ascii))

def parsePlain (chars : List Char) : Except UrlError Host :=
  match chars with
  | '[' :: rest => parseIp6 rest
  | _ =>
    if chars.any isForbiddenElsewhere then .error .badHostCharacter
    else .ok (.name (encoded inControlSet chars))

end Host
end TreeShare.Web
