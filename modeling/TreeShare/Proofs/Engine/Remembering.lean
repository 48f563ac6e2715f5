import TreeShare.Proofs.Engine.Errands
import TreeShare.Proofs.Engine.Exchanges

/-! Where the programs of a node remember keys. Main statement: `obeys_of_keyOf`, whatever looking up a key
obeys is obeyed by the programs of every errand, if it leaves all other questions free. -/
namespace TreeShare

open Proc

def Op.KeepsKeys : Op → Prop
  | rememberKey .. => False
  | _ => True

namespace Node

section

variable {n : Node} {rule : List Asked → Op → Prop} {m : Message} {log : List Asked}
  (hother : ∀ log (op : Op), op.KeepsKeys → rule log op)
  (hkey : ∀ peer log, (keyOf peer).Obeys rule log)
include hother

theorem obeys_of_free (log : List Asked) (op : Op) (h : op.IsFree) : rule log op := by
  cases op <;> first | exact hother _ _ trivial | exact h.elim

include hkey

theorem checkSender_obeys (source : Address) (m : Message) (log : List Asked) :
    (n.checkSender source m).Obeys rule log := by
  have hname : (senderName source m).Obeys rule log := by
    unfold senderName
    split
    · exact trivial
    · exact obeys_perform (hother _ _ trivial)
  apply hname.bind
  intro name _ _
  cases name with
  | none => exact trivial
  | some peer =>
    apply (hkey peer _).bind
    intro found _ _
    rcases found with _ | _ | key <;> exact trivial

theorem validate_obeys (target : Address) (sent r : Message) (log : List Asked) :
    (n.validate target sent r).run.Obeys rule log := by
  apply Attempt.obeys_bind (Attempt.obeys_ofExcept _)
  intro _ _ _
  refine Attempt.obeys_bind ?_ fun _ _ _ => trivial
  exact (checkSender_obeys hother hkey target r _).bind fun _ _ _ => trivial

theorem sendUpTo_obeys (target : Address) (m : Message) (attempts left : Nat) (t : Ticket)
    (log : List Asked) : (n.sendUpTo target m attempts left t).run.Obeys rule log := by
  induction left generalizing t log with
  | zero => exact ⟨hother _ _ trivial, fun _ => trivial⟩
  | succ left ih =>
    refine ⟨hother _ _ trivial, fun sent => ?_⟩
    cases sent with
    | false => exact ⟨hother _ _ trivial, fun _ => trivial⟩
    | true =>
      refine ⟨hother _ _ trivial, fun start => ⟨hother _ _ trivial, fun wait => ?_⟩⟩
      cases wait with
      | reply r => exact validate_obeys hother hkey target m r _
      | swept => exact ⟨hother _ _ trivial, fun u => ih u _⟩
      | silence => exact ih t _

theorem exchange_obeys (target : Address) (m : Message) (log : List Asked) :
    (n.exchange target m).run.Obeys rule log := by
  unfold exchange
  dsimp only
  cases n.settings.attempts with
  | error cause => exact ⟨hother _ _ trivial, fun answer => answer.elim⟩
  | ok attempts =>
    exact ⟨hother _ _ trivial, fun t => sendUpTo_obeys hother hkey target _ attempts attempts t _⟩

theorem greet_obeys (target : Address) (log : List Asked) : (n.greet target).run.Obeys rule log := by
  refine ⟨hother _ _ trivial, fun id => ?_⟩
  apply Attempt.obeys_bind (Attempt.obeys_ofExcept _)
  intro m _ _
  apply Attempt.obeys_bind (exchange_obeys hother hkey target m _)
  intro reply _ _
  exact Attempt.obeys_bind (Attempt.obeys_ofExcept _) fun _ _ _ => ⟨hother _ _ trivial, fun _ => trivial⟩

theorem sendToKnown_obeys (peer : String) (m : Message) (known : List Address) (log : List Asked) :
    (n.sendToKnown peer m known).run.Obeys rule log := by
  induction known generalizing log with
  | nil => exact trivial
  | cons a rest ih =>
    apply Attempt.obeys_bind (Attempt.obeys_outcome (exchange_obeys hother hkey a m log))
    intro r _ _
    cases r with
    | ok reply => exact trivial
    | error cause =>
      dsimp only
      split
      · exact ⟨hother _ _ trivial, fun _ => ih _⟩
      · exact trivial

theorem reach_obeys_of_keyOf (peer : String) (a : Address) (log : List Asked) :
    (n.reach peer a).run.Obeys rule log :=
  reach_obeys (obeys_of_free hother) (greet_obeys hother hkey) (fun _ _ _ _ => hother _ _ trivial)
    peer a log

theorem sendToFresh_obeys (peer : String) (m : Message) (tried fresh : List Address)
    (log : List Asked) : (n.sendToFresh peer m tried fresh).run.Obeys rule log := by
  induction fresh generalizing tried log with
  | nil => exact trivial
  | cons a rest ih =>
    unfold sendToFresh
    split
    · exact ih tried _
    · apply Attempt.obeys_bind (reach_obeys_of_keyOf hother hkey peer a log)
      intro reached _ _
      split
      · exact ih (a :: tried) _
      · apply Attempt.obeys_bind (Attempt.obeys_outcome (exchange_obeys hother hkey a m _))
        intro r _ _
        cases r with
        | ok reply => exact ⟨hother _ _ trivial, fun _ => trivial⟩
        | error cause =>
          dsimp only
          split
          · exact ⟨hother _ _ trivial, fun _ => ih (a :: tried) _⟩
          · exact trivial

theorem request_obeys (peer : String) (m : Message) (log : List Asked) :
    (n.request peer m).run.Obeys rule log := by
  refine ⟨hother _ _ trivial, fun known => ?_⟩
  apply Attempt.obeys_bind (sendToKnown_obeys hother hkey peer m known _)
  intro reply _ _
  cases reply with
  | some reply => exact trivial
  | none =>
    refine ⟨hother _ _ trivial, fun found => ?_⟩
    cases found with
    | ok fresh => exact sendToFresh_obeys hother hkey peer m known fresh _
    | error cause => exact trivial

theorem download_obeys (peer : String) (hash : Digest) (log : List Asked) :
    (n.download peer hash).run.Obeys rule log := by
  refine ⟨hother _ _ trivial, fun id => ?_⟩
  apply Attempt.obeys_bind (request_obeys hother hkey peer _ _)
  intro reply _ _
  cases reply.type <;> exact trivial

theorem rootOf_obeys (peer : String) (log : List Asked) : (n.rootOf peer).run.Obeys rule log := by
  refine ⟨hother _ _ trivial, fun own => ⟨hother _ _ trivial, fun id => ?_⟩⟩
  apply Attempt.obeys_bind (Attempt.obeys_outcome (request_obeys hother hkey peer _ _))
  intro asked _ _
  cases asked.bind statedRoot with
  | ok h => exact trivial
  | error cause =>
    refine ⟨hother _ _ trivial, fun found => ?_⟩
    rcases found with _ | _ | h <;> exact trivial

theorem publicKeyOf_obeys (peer : String) (log : List Asked) :
    (n.publicKeyOf peer).run.Obeys rule log := by
  refine ⟨hother _ _ trivial, fun id => ?_⟩
  exact Attempt.obeys_bind (request_obeys hother hkey peer _ _) fun _ _ _ => trivial

theorem run_obeys (c : Call) (log : List Asked) : (n.run c).Obeys rule log := by
  cases c with
  | greet target => exact (greet_obeys hother hkey target log).bind fun _ _ _ => trivial
  | send target m => exact (exchange_obeys hother hkey target m log).bind fun _ _ _ => trivial
  | request peer m => exact (request_obeys hother hkey peer m log).bind fun _ _ _ => trivial
  | download peer hash => exact (download_obeys hother hkey peer hash log).bind fun _ _ _ => trivial
  | rootOf peer => exact (rootOf_obeys hother hkey peer log).bind fun _ _ _ => trivial
  | publicKeyOf peer => exact (publicKeyOf_obeys hother hkey peer log).bind fun _ _ _ => trivial
  | traverse peer target =>
    have h := traverse_obeys (n := n) (obeys_of_free hother) (greet_obeys hother hkey)
      (fun _ _ _ _ => hother _ _ trivial) peer target log
    exact h.bind fun _ _ _ => trivial

omit hkey in
theorem answer_obeys (source : Address) (id : UInt32) (r : Request) (log : List Asked) :
    (n.answer source id r).Obeys rule log := by
  have hpost (m : Message) (log : List Asked) : (n.post source m).Obeys rule log :=
    ⟨hother _ _ trivial, fun _ => trivial⟩
  cases r with
  | noOp | error => exact trivial
  | hello h =>
    refine ⟨hother _ _ trivial, fun _ => ?_⟩
    dsimp only [Proc.bind]
    split
    · exact hpost _ _
    · exact trivial
  | publicKey => exact hpost _ _
  | root => exact ⟨hother _ _ trivial, fun root => hpost _ _⟩
  | datum hash =>
    refine ⟨hother _ _ trivial, fun found => ?_⟩
    rcases found with _ | _ | reply <;> exact hpost _ _
  | relay target =>
    cases source with
    | v4 initiator =>
      unfold answer relayTo
      dsimp only
      split
      · exact ⟨hother _ _ trivial, fun id => ⟨hother _ _ trivial, fun _ => trivial⟩⟩
      · exact trivial
    | v6 => exact trivial
  | punch initiator =>
    apply (isServer_obeys (obeys_of_free hother) n source _).bind
    intro known _ _
    cases known with
    | true => exact obeys_perform (hother _ _ trivial)
    | false => exact trivial

theorem serve_obeys (source : Address) (m : Message) (log : List Asked) :
    (n.serve source m).Obeys rule log := by
  unfold serve
  cases Request.ofMessage? m with
  | none => exact trivial
  | some r =>
    apply (checkSender_obeys hother hkey source m log).bind
    intro verdict _ _
    cases verdict with
    | ok => exact answer_obeys hother source m.id r _
    | error cause => exact trivial

theorem greetServers_obeys (servers : List Address) (log : List Asked) :
    (n.greetServers servers).Obeys rule log := by
  induction servers generalizing log with
  | nil => exact trivial
  | cons a rest ih =>
    apply (greet_obeys hother hkey a log).bind
    intro r _ _
    cases r with
    | ok name => exact ⟨hother _ _ trivial, fun _ => ih _⟩
    | error cause =>
      dsimp only
      split
      · exact ⟨hother _ _ trivial, fun _ => ih _⟩
      · exact ih _

theorem keepAliveRound_obeys (due : Nat) (log : List Asked) :
    (n.keepAliveRound due).Obeys rule log := by
  refine ⟨hother _ _ trivial, fun _ => ?_⟩
  exact (serverAddresses_obeys (obeys_of_free hother) n _).bind fun servers _ _ =>
    greetServers_obeys hother hkey servers _

theorem obeys_of_keyOf {errand : Errand} {p : Proc Outcome} (h : errand.Runs n p) (log : List Asked) :
    p.Obeys rule log := by
  cases h with
  | call c => exact run_obeys hother hkey c log
  | serve source m => exact Engine.obeys_silent (serve_obeys hother hkey source m log)
  | punch a => exact Engine.obeys_silent (punchRounds_obeys (greet_obeys hother hkey) a _ log)
  | keepAlive due => exact Engine.obeys_silent (keepAliveRound_obeys hother hkey due log)

end

end Node
end TreeShare
