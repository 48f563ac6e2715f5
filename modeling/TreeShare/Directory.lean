import TreeShare.Table
import TreeShare.Signing
import TreeShare.Net.Address

/-! The peer directory: who exists, where they listen, and what they publish. A directory is what it
answers; the engine asks it and never looks inside. -/
namespace TreeShare

inductive DirectoryError where
  | exchange (timedOut : Bool)
  | badUrl (text : String)
  | unknownPeer (peer : String)
  | status (code : Nat)
  | badBody (text : String)
  | badKey (cause : SignatureError)
deriving DecidableEq

def DirectoryError.message : DirectoryError → String
  | exchange timedOut =>
    "directory request failed: " ++ (if timedOut then "timed out" else "no answer")
  | badUrl text => s!"bad directory url: {text}"
  | unknownPeer peer => s!"{peer} is not known by the directory"
  | status code => s!"directory answered HTTP {code}"
  | badBody text => s!"unexpected directory body: {text}"
  | badKey cause => s!"published key: {cause.message}"

structure Directory where
  addresses : String → Except DirectoryError (List Address)
  root : String → Except DirectoryError (Option Digest)
  key : String → Except DirectoryError (Option PublicKey)

structure PeerRecord where
  addresses : List Address
  root : Option Digest
  key : Option PublicKey
deriving DecidableEq

def PeerRecord.empty : PeerRecord := ⟨[], none, none⟩

/-- A directory that is filled in by hand. -/
structure PeerTable where
  records : Table String PeerRecord
deriving DecidableEq

namespace PeerTable

def empty : PeerTable := ⟨.empty⟩

def peers (t : PeerTable) : List String := t.records.keys

def update (t : PeerTable) (peer : String) (f : PeerRecord → PeerRecord) : PeerTable :=
  ⟨t.records.set peer (f ((t.records.get? peer).getD .empty))⟩

def setAddresses (t : PeerTable) (peer : String) (addresses : List Address) : PeerTable :=
  t.update peer fun r => { r with addresses }

def setRoot (t : PeerTable) (peer : String) (root : Option Digest) : PeerTable :=
  t.update peer fun r => { r with root }

def setKey (t : PeerTable) (peer : String) (key : Option PublicKey) : PeerTable :=
  t.update peer fun r => { r with key }

def record (t : PeerTable) (peer : String) : Except DirectoryError PeerRecord :=
  match t.records.get? peer with
  | some r => .ok r
  | none => .error (.unknownPeer peer)

def directory (t : PeerTable) : Directory where
  addresses peer := (t.record peer).map (·.addresses)
  root peer := (t.record peer).map (·.root)
  key peer := (t.record peer).map (·.key)

end PeerTable
end TreeShare
