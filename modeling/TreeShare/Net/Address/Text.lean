import TreeShare.Net.Address
import TreeShare.Text.Hex

/-! Addresses as text: `1.2.3.4:5`, and `[::1]:5` with the longest run of zero groups left out. Reading
accepts every spelling of an IPv6 address, but no leading zero in an IPv4 one. -/
namespace TreeShare.Address

def ip4Text (ip : Vector UInt8 4) : String :=
  String.intercalate "." (ip.toList.map fun x => toString x.toNat)

def groupText (g : UInt16) : String :=
  String.ofList (Nat.toDigits 16 g.toNat)

def groupsText (gs : List UInt16) : String :=
  String.intercalate ":" (gs.map groupText)

def zerosAhead (gs : List UInt16) : Nat :=
  (gs.takeWhile (· == 0)).length

/-- Start and length of the first longest run of zero groups, from position `start` on. -/
def longestZeros (start : Nat) : List UInt16 → Nat × Nat
  | [] => (start, 0)
  | g :: gs =>
    let later := longestZeros (start + 1) gs
    let here := zerosAhead (g :: gs)
    if later.2 ≤ here then (start, here) else later

/-- An IPv6 address that stands for an IPv4 one shows the latter. -/
def ip6Text (gs : List UInt16) : String :=
  match gs with
  | [0, 0, 0, 0, 0, 0xffff, hi, lo] =>
    "::ffff:" ++ ip4Text
      #v[UInt8.ofNat (hi.toNat / 256), UInt8.ofNat hi.toNat, UInt8.ofNat (lo.toNat / 256),
        UInt8.ofNat lo.toNat]
  | gs =>
    let (start, len) := longestZeros 0 gs
    if len > 1 then groupsText (gs.take start) ++ "::" ++ groupsText (gs.drop (start + len))
    else groupsText gs

def toText : Address → String
  | v4 e => ip4Text e.ip ++ ":" ++ toString e.port.toNat
  | v6 groups port scope =>
    let zone := if scope = 0 then "" else "%" ++ toString scope.toNat
    "[" ++ ip6Text groups.toList ++ zone ++ "]:" ++ toString port.toNat

instance : ToString Address := ⟨toText⟩

/-- A number below `limit` at the front, with at most `width` digits if a width is given. -/
def number? (radix : Nat) (width : Option Nat) (zeros : Bool) (limit : Nat) (cs : List Char) :
    Option (Nat × List Char) :=
  let isDigit (c : Char) := (Hex.value? c).any (· < radix)
  let digits := cs.takeWhile isDigit
  let n := digits.foldl (fun n c => radix * n + (Hex.value? c).getD 0) 0
  if digits.isEmpty || width.any (· < digits.length) then none
  else if !zeros && digits.length > 1 && digits.head? == some '0' then none
  else if n < limit then some (n, cs.dropWhile isDigit)
  else none

def char? (c : Char) : List Char → Option (List Char)
  | d :: cs => if c = d then some cs else none
  | [] => none

def ip4? (cs : List Char) : Option (Vector UInt8 4 × List Char) := do
  let part := number? 10 (some 3) false 256
  let (i, cs) ← part cs
  let (j, cs) ← part (← char? '.' cs)
  let (k, cs) ← part (← char? '.' cs)
  let (l, cs) ← part (← char? '.' cs)
  pure (#v[UInt8.ofNat i, UInt8.ofNat j, UInt8.ofNat k, UInt8.ofNat l], cs)

/-- At most `room` groups; an IPv4 address stands for two and ends the list. -/
def groups (first : Bool) : (room : Nat) → List Char → List UInt16 × Bool × List Char
  | 0, cs => ([], false, cs)
  | room + 1, cs =>
    let ahead := if first then some cs else char? ':' cs
    match room, ahead.bind ip4? with
    | _ + 1, some (ip, rest) =>
      let word (hi lo : UInt8) := UInt16.ofNat (256 * hi.toNat + lo.toNat)
      ([word ip[0] ip[1], word ip[2] ip[3]], true, rest)
    | _, _ =>
      match ahead.bind (number? 16 (some 4) true 65536) with
      | some (g, rest) =>
        let (gs, embedded, rest) := groups false room rest
        (UInt16.ofNat g :: gs, embedded, rest)
      | none => ([], false, cs)

def ip6? (cs : List Char) : Option (Vector UInt16 8 × List Char) := do
  let (front, embedded, cs) := groups true 8 cs
  if h : front.length = 8 then pure (⟨front.toArray, by simpa using h⟩, cs)
  else
    guard (!embedded)
    let cs ← char? ':' (← char? ':' cs)
    let (back, _, cs) := groups true (7 - front.length) cs
    let all := front ++ List.replicate (8 - front.length - back.length) 0 ++ back
    if h : all.length = 8 then pure (⟨all.toArray, by simpa using h⟩, cs) else none

def port? (cs : List Char) : Option (UInt16 × List Char) := do
  let (n, cs) ← number? 10 none true 65536 (← char? ':' cs)
  pure (UInt16.ofNat n, cs)

def endpointOf? (cs : List Char) : Option (Endpoint × List Char) := do
  let (ip, cs) ← ip4? cs
  let (port, cs) ← port? cs
  pure (⟨ip, port⟩, cs)

def v6Of? (cs : List Char) : Option (Address × List Char) := do
  let (gs, cs) ← ip6? (← char? '[' cs)
  let (scope, cs) := ((char? '%' cs).bind (number? 10 none true UInt32.size)).getD (0, cs)
  let (port, cs) ← port? (← char? ']' cs)
  pure (.v6 gs port (UInt32.ofNat scope), cs)

def ofText? (s : String) : Option Address :=
  match (endpointOf? s.toList).map (fun r => (Address.v4 r.1, r.2)) <|> v6Of? s.toList with
  | some (a, []) => some a
  | _ => none

end TreeShare.Address
