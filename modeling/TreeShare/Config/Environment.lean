import TreeShare.Files.Path

/-! The variables of the environment that the configuration looks at. -/
namespace TreeShare

structure Environment where
  value? : String → Option String

namespace Environment

def path? (env : Environment) (name : String) : Option Path := (env.value? name).map .ofString

/-- A decimal number below a bound, with a plus sign allowed before it and nothing else around it. -/
def number? (bound : Nat) (text : String) : Option Nat :=
  let digits := match text.toList with
    | '+' :: rest => rest
    | chars => chars
  if digits ≠ [] ∧ digits.all Char.isDigit then
    let n := digits.foldl (fun n c => 10 * n + (c.toNat - '0'.toNat)) 0
    if n < bound then some n else none
  else none

def flag? : String → Option Bool
  | "true" => some true
  | "false" => some false
  | _ => none

/-- The directory for settings: under `XDG_CONFIG_HOME`, else under the home directory. -/
def configDirectory (env : Environment) : Path :=
  let base := match env.path? "XDG_CONFIG_HOME" with
    | some p => p
    | none => ((env.path? "HOME").getD (.ofString "/tmp")).join (.ofString ".config")
  base.join (.ofString "arbor")

def configFile (env : Environment) : Path :=
  (env.path? "ARBOR_CONFIG").getD (env.configDirectory.join (.ofString "config.toml"))

end Environment
end TreeShare
