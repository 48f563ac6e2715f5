import TreeShare.Engine

/-! One schedule among all: tasks run in the order of their numbers until each has to wait. -/
namespace TreeShare.Engine

/-- The first event that changes something without anything new from outside. -/
def ready? (n : Node) (e : Engine) : Option (Engine × List Record) :=
  match e.sweep? n with
  | some e' => some (e', [])
  | none => e.tasks.keys.findSome? (e.run? n)

def settleFrom (n : Node) : (fuel : Nat) → Engine → List Record → Engine × List Record
  | 0, e, before => (e, before.reverse)
  | fuel + 1, e, before =>
    match e.ready? n with
    | some (e', records) => settleFrom n fuel e' (records.reverse ++ before)
    | none => (e, before.reverse)

def settle (n : Node) (fuel : Nat) (e : Engine) : Engine × List Record :=
  settleFrom n fuel e []

end TreeShare.Engine
