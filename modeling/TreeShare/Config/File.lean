import TreeShare.Config.Text
import TreeShare.Files.Disk

/-! The configuration file: variables go before the file, and the file before the defaults. -/
namespace TreeShare

inductive ConfigError where
  | readFailed (path : Path) (cause : FileError)
  | parseFailed (path : Path)
  | writeFailed (path : Path) (cause : FileError)
deriving DecidableEq

namespace Config

def fromFile (env : Environment) (d : Disk) (p : Path) : Except ConfigError Config := do
  let text ← (d.readText p).mapError (.readFailed p)
  match parse (standard env) text with
  | some c => pure c
  | none => .error (.parseFailed p)

def load (env : Environment) (d : Disk) : Except ConfigError Config := do
  let p := env.configFile
  let c ← if d.contains p then fromFile env d p else pure (standard env)
  pure (c.overridden env)

def writeIfMissing (env : Environment) : OnDisk ConfigError Path := do
  let p := env.configFile
  if !(← get).contains p then
    ExceptT.adapt (.writeFailed p) do
      match p.parent? with
      | some parent => OnDisk.ensureDirectories parent
      | none => pure ()
      OnDisk.writeFile p (Utf8.encode (standard env).written)
  pure p

end Config
end TreeShare
