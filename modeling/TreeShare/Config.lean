import TreeShare.Config.Environment
import TreeShare.Settings

/-! The configuration: four sections, their defaults, and what a node makes of them. -/
namespace TreeShare

structure IdentitySection where
  peerName : String
  keyFile : Path
deriving DecidableEq

structure NetworkSection where
  /-- Zero leaves the choice to the system. -/
  listenPort : UInt16
  directoryUrl : String
  serverName : String
  directoryTimeoutSecs : UInt64
  relayTraversal : Bool
deriving DecidableEq

structure ExportSection where
  /-- Published at the start; the empty path publishes nothing. -/
  sharedDirectory : Path
deriving DecidableEq

structure ReliabilitySection where
  reemissions : UInt32
  replyTimeoutMs : UInt64
  traversalRounds : UInt32
  keepAliveSecs : UInt64
  reapIntervalMs : UInt64
  signMessages : Bool
deriving DecidableEq

structure Config where
  identity : IdentitySection
  network : NetworkSection
  «export» : ExportSection
  reliability : ReliabilitySection
deriving DecidableEq

namespace Config

def standard (env : Environment) : Config where
  identity := {
    peerName := "arbor"
    keyFile := env.configDirectory.join (.ofString "keypair") }
  network := {
    listenPort := 8444
    directoryUrl := "https://jch.irif.fr:8443"
    serverName := "jch.irif.fr"
    directoryTimeoutSecs := 10
    relayTraversal := false }
  «export» := { sharedDirectory := ⟨[]⟩ }
  reliability := {
    reemissions := 4
    replyTimeoutMs := 500
    traversalRounds := 10
    keepAliveSecs := 30
    reapIntervalMs := 1000
    signMessages := true }

def settings (c : Config) : Settings where
  peerName := c.identity.peerName
  listenAddress := ⟨#v[0, 0, 0, 0], c.network.listenPort⟩
  serverName := c.network.serverName
  reemissions := c.reliability.reemissions
  replyTimeout := c.reliability.replyTimeoutMs.toNat
  traversalRounds := c.reliability.traversalRounds
  keepAlive := 1000 * c.reliability.keepAliveSecs.toNat
  reapInterval := c.reliability.reapIntervalMs.toNat
  signMessages := c.reliability.signMessages
  relayTraversal := c.network.relayTraversal

/-- Lets variables that are set and well formed replace what the file says. -/
def overridden (env : Environment) (c : Config) : Config :=
  let text (name : String) (old : String) : String := (env.value? name).getD old
  let read {α : Type} (name : String) (f : String → Option α) (old : α) : α :=
    ((env.value? name).bind f).getD old
  { c with
    identity.peerName := text "ARBOR_IDENTITY__PEER_NAME" c.identity.peerName
    network.listenPort := read "ARBOR_NETWORK__LISTEN_PORT"
      (fun s => (Environment.number? UInt16.size s).map UInt16.ofNat) c.network.listenPort
    network.directoryUrl := text "ARBOR_NETWORK__DIRECTORY_URL" c.network.directoryUrl
    network.relayTraversal := read "ARBOR_NETWORK__RELAY_TRAVERSAL" Environment.flag?
      c.network.relayTraversal
    «export».sharedDirectory := (env.path? "ARBOR_EXPORT__SHARED_DIR").getD
      c.export.sharedDirectory
    reliability.reemissions := read "ARBOR_RELIABILITY__REEMISSIONS"
      (fun s => (Environment.number? UInt32.size s).map UInt32.ofNat) c.reliability.reemissions }

end Config
end TreeShare
