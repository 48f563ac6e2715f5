import TreeShare.Settings
import TreeShare.Signing

/-! What stays the same in a running node: its settings and its key. -/
namespace TreeShare

structure Node where
  settings : Settings
  scheme : SignatureScheme
  keys : Keypair
  /-- The ids that are drawn, in turn. -/
  ids : Nat → UInt32

namespace Node

def prepare (n : Node) (m : Message) : Message :=
  if n.settings.signMessages && m.type.mustBeSigned && !m.isSigned then m.sign n.scheme n.keys
  else m

end Node
end TreeShare
