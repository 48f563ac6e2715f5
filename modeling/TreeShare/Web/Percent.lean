import TreeShare.Text.Hex
import TreeShare.Text.Utf8

/-! Percent-encoding, with one set of characters to encode for each part of a URL. -/
namespace TreeShare.Web

/-- Controls and everything outside ASCII are encoded wherever they stand. -/
def inControlSet (c : Char) : Bool := c < ' ' || '~' < c

def inFragmentSet (c : Char) : Bool := inControlSet c || " \"<>\x60".contains c

def inPathSet (c : Char) : Bool := inFragmentSet c || "#?\x7b\x7d".contains c

/-- What is encoded in a segment that is given by itself, so that it stays one segment. -/
def inSegmentSet (special : Bool) (c : Char) : Bool :=
  inPathSet c || c = '/' || c = '%' || (special && c = '\\')

def inQuerySet (special : Bool) (c : Char) : Bool :=
  inControlSet c || " \"#<>".contains c || (special && c = '\'')

def inUserSet (c : Char) : Bool := inPathSet c || "/:;=@[\\]^|".contains c

def encodedByte (x : UInt8) : List Char :=
  '%' :: (Hex.encodeChars [x]).map Char.toUpper

def encodedChar (inSet : Char → Bool) (c : Char) : List Char :=
  if inSet c then (Utf8.encode (String.ofList [c])).flatMap encodedByte else [c]

def encoded (inSet : Char → Bool) (chars : List Char) : String :=
  String.ofList (chars.flatMap (encodedChar inSet))

/-- Puts bytes in the place of percent signs with two digits. Other percent signs stay. -/
def decodedBytes : Bytes → Bytes
  | 0x25 :: hi :: lo :: rest =>
    match Hex.value? (Char.ofNat hi.toNat), Hex.value? (Char.ofNat lo.toNat) with
    | some h, some l => UInt8.ofNat (16 * h + l) :: decodedBytes rest
    | _, _ => 0x25 :: decodedBytes (hi :: lo :: rest)
  | x :: rest => x :: decodedBytes rest
  | [] => []

end TreeShare.Web
