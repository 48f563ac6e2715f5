import TreeShare.Config
import TreeShare.Toml.Document
import TreeShare.Toml.Write

/-! Configurations as text: reading one over the defaults, and writing one in full. -/
namespace TreeShare.Config

open Toml

/-- The values of named fields: by name in a table, by place in a list. A date has none of them. -/
def fieldValues (names : List String) : Value → Option (List (Option Value))
  | .table _ rows => some (names.map fun n => rows.lookup n)
  | .tables items => some ((List.range names.length).map fun i => items[i]?.map (.table .written))
  | .list items => some ((List.range names.length).map fun i => items[i]?)
  | .moment => some (names.map fun _ => none)
  | _ => none

/-- A field that may be missing, but not of the wrong kind. -/
def field {α : Type} (read : Value → Option α) (missing : α) : Option Value → Option α
  | some v => read v
  | none => some missing

def text? : Value → Option String
  | .text s => some s
  | _ => none

def path? (v : Value) : Option Path := (text? v).map .ofString

def flag? : Value → Option Bool
  | .boolean b => some b
  | _ => none

def number? (bound : Nat) : Value → Option Nat
  | .integer n => if 0 ≤ n ∧ n < bound then some n.toNat else none
  | _ => none

def port? (v : Value) : Option UInt16 := (number? UInt16.size v).map .ofNat
def count? (v : Value) : Option UInt32 := (number? UInt32.size v).map .ofNat
def span? (v : Value) : Option UInt64 := (number? UInt64.size v).map .ofNat

def identityNames : List String := ["peer_name", "keypair_path"]

def identity? (d : IdentitySection) (v : Value) : Option IdentitySection := do
  match ← fieldValues identityNames v with
  | [name, file] =>
    pure ⟨← field text? d.peerName name, ← field path? d.keyFile file⟩
  | _ => none

def networkNames : List String :=
  ["listen_port", "directory_url", "server_peer_name", "directory_timeout_secs", "relay_traversal"]

def network? (d : NetworkSection) (v : Value) : Option NetworkSection := do
  match ← fieldValues networkNames v with
  | [port, url, server, timeout, relay] =>
    pure ⟨← field port? d.listenPort port, ← field text? d.directoryUrl url,
      ← field text? d.serverName server, ← field span? d.directoryTimeoutSecs timeout,
      ← field flag? d.relayTraversal relay⟩
  | _ => none

def exportNames : List String := ["shared_dir"]

def export? (d : ExportSection) (v : Value) : Option ExportSection := do
  match ← fieldValues exportNames v with
  | [directory] => pure ⟨← field path? d.sharedDirectory directory⟩
  | _ => none

def reliabilityNames : List String :=
  ["reemissions", "reply_timeout_ms", "nat_traversal_retries", "keep_alive_secs", "reap_interval_ms",
    "sign_messages"]

def reliability? (d : ReliabilitySection) (v : Value) : Option ReliabilitySection := do
  match ← fieldValues reliabilityNames v with
  | [reemissions, timeout, rounds, keepAlive, reap, signing] =>
    pure ⟨← field count? d.reemissions reemissions, ← field span? d.replyTimeoutMs timeout,
      ← field count? d.traversalRounds rounds, ← field span? d.keepAliveSecs keepAlive,
      ← field span? d.reapIntervalMs reap, ← field flag? d.signMessages signing⟩
  | _ => none

def sectionNames : List String := ["identity", "network", "export", "reliability"]

/-- Reads a configuration, with defaults for what is not there. Unknown keys do not matter. -/
def parse (standard : Config) (text : String) : Option Config := do
  match ← fieldValues sectionNames (← Toml.parse text) with
  | [identity, network, «export», reliability] =>
    pure ⟨← field (identity? standard.identity) standard.identity identity,
      ← field (network? standard.network) standard.network network,
      ← field (export? standard.export) standard.export «export»,
      ← field (reliability? standard.reliability) standard.reliability reliability⟩
  | _ => none

def sections (c : Config) : List Toml.Section :=
  [⟨"identity", identityNames.zip [.text c.identity.peerName, .text c.identity.keyFile.text]⟩,
   ⟨"network", networkNames.zip [.number c.network.listenPort.toNat, .text c.network.directoryUrl,
      .text c.network.serverName, .number c.network.directoryTimeoutSecs.toNat,
      .boolean c.network.relayTraversal]⟩,
   ⟨"export", exportNames.zip [.text c.export.sharedDirectory.text]⟩,
   ⟨"reliability", reliabilityNames.zip [.number c.reliability.reemissions.toNat,
      .number c.reliability.replyTimeoutMs.toNat, .number c.reliability.traversalRounds.toNat,
      .number c.reliability.keepAliveSecs.toNat, .number c.reliability.reapIntervalMs.toNat,
      .boolean c.reliability.signMessages]⟩]

def written (c : Config) : String := Toml.written c.sections

end TreeShare.Config
