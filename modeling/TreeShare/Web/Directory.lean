import TreeShare.Directory
import TreeShare.Net.Address.Text
import TreeShare.Text.Blank
import TreeShare.Web.Url

/-! A peer directory behind HTTP. Under the base URL, `peers/` lists the names, and `peers/NAME/` holds
`addresses`, `root` and `key`. -/
namespace TreeShare.Web

structure Response where
  status : Nat
  body : Bytes

namespace Response

def isSuccess (r : Response) : Bool := 200 ≤ r.status && r.status < 300

def isEmpty (r : Response) : Bool := r.status = 204

/-- The lines of the body without white space around them and without empty ones. A body that is not
UTF-8 has none. -/
def lines (r : Response) : List String :=
  let text := (Utf8.decode? r.body).getD ""
  let rows := (text.toList.splitOn '\n').map fun row => String.ofList (trimmedChars row)
  rows.filter (· ≠ "")

end Response

/-- How requests are answered: a response after all redirections, or a failure that may be a time-out. -/
structure Client where
  get : Url → Except Bool Response

structure PeerServer where
  base : Url
  client : Client

namespace PeerServer

/-- Any base will do that can have further path segments. -/
def connect (base : String) (client : Client) : Except DirectoryError PeerServer :=
  match Url.parse base with
  | .ok (.url u) => .ok ⟨u, client⟩
  | .ok (.pathless text) => .error (.badUrl text)
  | .error e => .error (.badUrl s!"{base}: {e.message}")

def get (s : PeerServer) (segments : List String) : Except DirectoryError Response :=
  (s.client.get (s.base.descend segments)).mapError .exchange

def resource (s : PeerServer) (peer what : String) : Except DirectoryError Response := do
  let r ← s.get ["peers", peer, what]
  if r.status = 404 then .error (.unknownPeer peer)
  else if r.isSuccess then pure r
  else .error (.status r.status)

def peers (s : PeerServer) : Except DirectoryError (List String) := do
  let r ← s.get ["peers", ""]
  if r.isSuccess then pure r.lines else .error (.status r.status)

/-- Lines that are no addresses are passed over. -/
def addresses (s : PeerServer) (peer : String) : Except DirectoryError (List Address) := do
  pure ((← s.resource peer "addresses").lines.filterMap Address.ofText?)

def root (s : PeerServer) (peer : String) : Except DirectoryError (Option Digest) := do
  let r ← s.resource peer "root"
  if r.isEmpty then pure none
  else match Bytes.block? 32 r.body with
    | some h => pure (some h)
    | none => .error (.badBody s!"root of {r.body.length} bytes")

def key (s : PeerServer) (peer : String) : Except DirectoryError (Option PublicKey) := do
  let r ← s.resource peer "key"
  if r.isEmpty then pure none
  else (PublicKey.parse r.body).mapError .badKey

def directory (s : PeerServer) : Directory where
  addresses := s.addresses
  root := s.root
  key := s.key

end PeerServer
end TreeShare.Web
