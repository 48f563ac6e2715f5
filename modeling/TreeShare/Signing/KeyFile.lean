import TreeShare.Signing
import TreeShare.Files.Disk
import TreeShare.Text.Blank

/-! Files that hold a private scalar as 64 hexadecimal digits, readable by the owner only. -/
namespace TreeShare

inductive KeyFileError where
  | file (path : Path) (cause : FileError)
  | badEncoding
  | invalidScalar
deriving DecidableEq

def KeyFileError.message : KeyFileError → String
  | file path cause => s!"keypair file {path}: {cause.message}"
  | badEncoding => "keypair file is not hex of a 32-byte scalar"
  | invalidScalar => "private scalar is out of range"

namespace Keypair

def ofSecret (scheme : SignatureScheme) (secret : Scalar) : Except KeyFileError Keypair :=
  match ofSecret? scheme secret with
  | some k => .ok k
  | none => .error .invalidScalar

/-- White space around the digits does not count. -/
def load (scheme : SignatureScheme) (d : Disk) (p : Path) : Except KeyFileError Keypair := do
  let text ← (d.readText p).mapError (.file p)
  match (Hex.decode? (trimmed text)).bind (Bytes.block? 32) with
  | some secret => ofSecret scheme secret
  | none => .error .badEncoding

def fileText (k : Keypair) : String := Hex.encode k.secret.toList

def save (k : Keypair) (p : Path) : OnDisk KeyFileError Unit :=
  ExceptT.adapt (.file p) do
    match p.parent? with
    | some parent => OnDisk.ensureDirectories parent
    | none => pure ()
    OnDisk.writeFile p (Utf8.encode k.fileText)
    OnDisk.setMode p 0o600

def loadOrGenerate (scheme : SignatureScheme) (fresh : Scalar) (p : Path) :
    OnDisk KeyFileError Keypair := do
  let d ← get
  if d.contains p then
    load scheme d p
  else
    let k ← ofSecret scheme fresh
    k.save p
    pure k

end Keypair
end TreeShare
