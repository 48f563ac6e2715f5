import TreeShare.Config.File
import TreeShare.Signing.KeyFile
import TreeShare.Web.Directory
import TreeShare.Engine

/-! How a node comes up: configuration, key, published tree, directory, engine. -/
namespace TreeShare

inductive StartError where
  | key (path : Path) (cause : KeyFileError)
  | publishing (path : Path) (cause : PublishError)
  | directory (cause : DirectoryError)

structure Host where
  environment : Environment
  /-- The scalar of a key that is made anew. -/
  fresh : Scalar
  ids : Nat → UInt32
  network : Network
  client : Web.Client

namespace Host

/-- The configuration of a host. One that cannot be written or read gives way to the defaults. -/
def config (h : Host) : OnDisk StartError Config := do
  let _ ← (Config.writeIfMissing h.environment).run
  match Config.load h.environment (← get) with
  | .ok c => pure c
  | .error _ => pure (.standard h.environment)

def publication (d : Disk) (p : Path) : Except StartError Publication :=
  if p.bytes = [] then .ok .empty
  else match Publication.empty.exportPath d p with
    | (.ok _, published) => .ok published
    | (.error e, _) => .error (.publishing p e)

def peerServer (h : Host) (c : Config) : Except StartError Web.PeerServer :=
  (Web.PeerServer.connect c.network.directoryUrl h.client).mapError .directory

def node (h : Host) (scheme : SignatureScheme) (keys : Keypair) (c : Config) : Node :=
  ⟨c.settings, scheme, keys, h.ids⟩

def start (h : Host) (scheme : SignatureScheme) : OnDisk StartError (Node × Engine) := do
  let c ← h.config
  let keys ← ExceptT.adapt (.key c.identity.keyFile)
    (Keypair.loadOrGenerate scheme h.fresh c.identity.keyFile)
  let published ← publication (← get) c.export.sharedDirectory
  let server ← h.peerServer c
  let n := h.node scheme keys c
  pure (n, { Engine.start n h.network server.directory (← get) with published })

end Host
end TreeShare
