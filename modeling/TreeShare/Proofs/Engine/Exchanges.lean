import TreeShare.Proofs.Engine.Accepted

/-! What a request to one address was told on its way, however it ended. Main statements: `exchange_inv`, all
the ways in which it can end, and `Exchanged.dead`, those that are hard failures. Programs that do nothing but
greet obey whatever greeting obeys. -/
namespace TreeShare

open Proc

/-- Attempts that came to nothing. The request was sent so many times, and each time the wait for its ticket
ended in silence or because the slot was gone; then it was registered anew, with another ticket. -/
inductive InVain (n : Node) (a : Address) (m : Message) :
    Nat → Ticket → List Asked → Ticket → Prop
  | none (t : Ticket) : InVain n a m 0 t [] t
  | silent {count start : Nat} {t u : Ticket} {log : List Asked} (later : InVain n a m count t log u) :
      InVain n a m (count + 1) t (⟨.transmit a m.encode, true⟩ :: ⟨.now, start⟩ ::
        ⟨.awaitReply t (start + n.settings.replyTimeout), .silence⟩ :: log) u
  | swept {count start : Nat} {t v u : Ticket} {log : List Asked}
      (later : InVain n a m count v log u) :
      InVain n a m (count + 1) t (⟨.transmit a m.encode, true⟩ :: ⟨.now, start⟩ ::
        ⟨.awaitReply t (start + n.settings.replyTimeout), .swept⟩ :: ⟨.register (a, m.id), v⟩ :: log) u

/-- How a request ends that can still be sent so many times: given up, not sent, or with a reply, which is
checked. -/
inductive Ending (n : Node) (a : Address) (m : Message) (attempts : Nat) :
    Nat → Ticket → List Asked → Except RequestError Message → Prop
  | noReply (t : Ticket) : Ending n a m attempts 0 t [⟨.cancel (a, m.id), ()⟩]
      (.error (.noReply a attempts))
  | unsent (left : Nat) (t : Ticket) : Ending n a m attempts (left + 1) t
      [⟨.transmit a m.encode, false⟩, ⟨.cancel (a, m.id), ()⟩] (.error .socket)
  | told {left start : Nat} {t : Ticket} {r : Message} {check : List Asked}
      {result : Except RequestError Message}
      (checked : (n.validate a m r).run.After check (.done result)) :
      Ending n a m attempts (left + 1) t (⟨.transmit a m.encode, true⟩ :: ⟨.now, start⟩ ::
        ⟨.awaitReply t (start + n.settings.replyTimeout), .reply r⟩ :: check) result

inductive Exchanged (n : Node) (a : Address) (m : Message) :
    List Asked → Except RequestError Message → Prop
  | mk {count left : Nat} {t u : Ticket} {vain last : List Asked}
      {result : Except RequestError Message} (limit : n.settings.attempts = .ok (count + left))
      (tried : InVain n a (n.prepare m) count t vain u)
      (ended : Ending n a (n.prepare m) (count + left) left u last result) :
      Exchanged n a m (⟨.register (a, m.id), t⟩ :: (vain ++ last)) result

/-- Nobody was there: all attempts were in vain, or one could not be sent at all. -/
inductive Dead (n : Node) (a : Address) (m : Message) : List Asked → RequestError → Prop
  | noReply {attempts : Nat} {t u : Ticket} {vain : List Asked}
      (limit : n.settings.attempts = .ok attempts)
      (tried : InVain n a (n.prepare m) attempts t vain u) :
      Dead n a m (⟨.register (a, m.id), t⟩ :: (vain ++ [⟨.cancel (a, m.id), ()⟩])) (.noReply a attempts)
  | unsent {count : Nat} {t u : Ticket} {vain : List Asked}
      (tried : InVain n a (n.prepare m) count t vain u) :
      Dead n a m (⟨.register (a, m.id), t⟩ :: (vain ++
        [⟨.transmit a (n.prepare m).encode, false⟩, ⟨.cancel (a, m.id), ()⟩])) .socket

variable {n : Node} {a : Address} {m r : Message} {log : List Asked}
  {result : Except RequestError Message}

namespace Node

theorem sendUpTo_inv {attempts left : Nat} {t : Ticket}
    (h : (n.sendUpTo a m attempts left t).run.After log (.done result)) :
    ∃ count more u vain last, left = count + more ∧ log = vain ++ last ∧
      InVain n a m count t vain u ∧ Ending n a m attempts more u last result := by
  induction left generalizing t log with
  | zero =>
    obtain ⟨⟨⟩, rest, rfl, hrest⟩ := after_ask_done_iff.mp h
    obtain ⟨rfl, hresult⟩ := after_done_iff.mp hrest
    cases hresult
    exact ⟨0, 0, t, [], _, rfl, rfl, .none t, .noReply t⟩
  | succ left ih =>
    obtain ⟨sent, rest, rfl, hsent⟩ := after_ask_done_iff.mp h
    cases sent with
    | false =>
      obtain ⟨⟨⟩, rest, rfl, hrest⟩ := after_ask_done_iff.mp hsent
      obtain ⟨rfl, hresult⟩ := after_done_iff.mp hrest
      cases hresult
      exact ⟨0, left + 1, t, [], _, (Nat.zero_add _).symm, rfl, .none t, .unsent left t⟩
    | true =>
      obtain ⟨start, rest, rfl, htimed⟩ := after_ask_done_iff.mp hsent
      obtain ⟨wait, rest, rfl, hwaited⟩ := after_ask_done_iff.mp htimed
      cases wait with
      | reply told => exact ⟨0, left + 1, t, [], _, (Nat.zero_add _).symm, rfl, .none t, .told hwaited⟩
      | swept =>
        obtain ⟨v, rest, rfl, hrest⟩ := after_ask_done_iff.mp hwaited
        obtain ⟨count, more, u, vain, last, rfl, rfl, htried, hended⟩ := ih hrest
        exact ⟨count + 1, more, u, _, last, Nat.add_right_comm .., rfl, .swept htried, hended⟩
      | silence =>
        obtain ⟨count, more, u, vain, last, rfl, rfl, htried, hended⟩ := ih hwaited
        exact ⟨count + 1, more, u, _, last, Nat.add_right_comm .., rfl, .silent htried, hended⟩

theorem validate_within (n : Node) (a : Address) (sent r : Message) :
    (n.validate a sent r).run.Within Op.IsLookup 4 := by
  cases hcheck : checkReply sent r with
  | error cause =>
    unfold validate
    rw [hcheck]
    exact trivial
  | ok =>
    rw [run_validate_of_ok hcheck]
    exact (checkSender_within n a r).bind (l := 0) fun _ => trivial

theorem exchange_inv (h : (n.exchange a m).run.After log (.done result)) :
    Exchanged n a m log result := by
  unfold exchange at h
  dsimp only at h
  cases hlimit : n.settings.attempts with
  | error cause =>
    rw [hlimit] at h
    obtain ⟨answer, -⟩ := after_ask_done_iff.mp h
    exact answer.elim
  | ok attempts =>
    rw [hlimit] at h
    obtain ⟨t, rest, rfl, hsends⟩ := after_ask_done_iff.mp h
    obtain ⟨count, left, u, vain, last, rfl, rfl, htried, hended⟩ := sendUpTo_inv hsends
    rw [n.prepare_id]
    exact .mk hlimit htried hended

theorem soft_of_checkReply {sent : Message} {cause : RequestError}
    (h : checkReply sent r = .error cause) : cause.isHard = false := by
  unfold checkReply at h
  split at h
  · cases h
    rfl
  · split at h
    · cases h
      rfl
    · split at h
      · split at h
        · cases h
          rfl
        · split at h <;> cases h
          rfl
      · cases h

theorem soft_of_validate {sent : Message} {cause : RequestError}
    (h : (n.validate a sent r).run.After log (.done (.error cause))) : cause.isHard = false := by
  rcases Attempt.after_bind_error h with hreply | ⟨first, _, rest, rfl, -, hrest⟩
  · exact soft_of_checkReply (Proc.done.inj (after_done_iff.mp hreply).2).symm
  · rcases Attempt.after_bind_error hrest with hcheck | ⟨_, _, last, rfl, -, hlast⟩
    · obtain ⟨asking, verdict, last, rfl, -, hverdict⟩ := after_bind_done_iff.mp hcheck
      cases verdict with
      | ok => cases (after_done_iff.mp hverdict).2
      | error e =>
        cases (after_done_iff.mp hverdict).2
        rfl
    · cases (after_done_iff.mp hlast).2

end Node

/-- A request fails hard only if nobody was there. -/
theorem Exchanged.dead {cause : RequestError} (h : Exchanged n a m log (.error cause))
    (hhard : cause.isHard = true) : Dead n a m log cause := by
  generalize hresult : Except.error cause = result at h
  obtain ⟨limit, tried, ended⟩ := h
  rw [← n.prepare_id m]
  cases ended with
  | noReply =>
    cases hresult
    exact n.prepare_id m ▸ .noReply limit tried
  | unsent =>
    cases hresult
    exact n.prepare_id m ▸ .unsent tried
  | told checked =>
    cases hresult
    rw [Node.soft_of_validate checked] at hhard
    contradiction

theorem Exchanged.replied (h : Exchanged n a m log (.ok r)) :
    ∃ count t u vain start check, log = ⟨.register (a, m.id), t⟩ :: (vain ++
        ⟨.transmit a (n.prepare m).encode, true⟩ :: ⟨.now, start⟩ ::
          ⟨.awaitReply u (start + n.settings.replyTimeout), .reply r⟩ :: check) ∧
      InVain n a (n.prepare m) count t vain u ∧
      (n.checkSender a r).After check (.done (.ok ())) := by
  generalize hresult : Except.ok r = result at h
  obtain ⟨limit, tried, ended⟩ := h
  cases ended with
  | noReply => cases hresult
  | unsent => cases hresult
  | told checked =>
    cases hresult
    obtain ⟨rfl, hsender⟩ := Node.validate_after checked
    exact ⟨_, _, _, _, _, _, rfl, tried, hsender⟩

/-- Questions that neither wait nor send, and change nothing but the ids that are left. -/
def Op.IsFree : Op → Prop
  | drawId | now | knownAddresses _ | inBook .. | peerAt _ | findAddresses _ | findRoot _
  | findKey _ | cachedKey _ | publishedRoot | servedDatum .. => True
  | _ => False

namespace Node

section

variable {rule : List Asked → Op → Prop} (hfree : ∀ log (op : Op), op.IsFree → rule log op)
include hfree

theorem serverAddresses_obeys (n : Node) (log : List Asked) : n.serverAddresses.Obeys rule log := by
  refine ⟨hfree _ _ trivial, fun found => ?_⟩
  cases found with
  | ok found => exact trivial
  | error e => exact obeys_perform (hfree _ _ trivial)

theorem isServer_obeys (n : Node) (a : Address) (log : List Asked) : (n.isServer a).Obeys rule log := by
  refine ⟨hfree _ _ trivial, fun known => ?_⟩
  cases known with
  | true => exact trivial
  | false => exact (serverAddresses_obeys hfree n _).bind fun _ _ _ => trivial

omit hfree in
theorem sendToAll_obeys {datagram : Bytes} (hsend : ∀ log a, rule log (.transmit a datagram))
    (targets : List Address) (log : List Asked) : (sendToAll datagram targets).Obeys rule log := by
  induction targets generalizing log with
  | nil => exact trivial
  | cons a rest ih => exact ⟨hsend _ _, fun _ => ih _⟩

variable (hgreet : ∀ a log, (n.greet a).run.Obeys rule log)
include hgreet

theorem traverseRounds_obeys {request : Message}
    (hsend : ∀ log a, rule log (.transmit a request.encode)) (peer : String) (target : Address)
    (rounds : Nat) (log : List Asked) :
    (n.traverseRounds peer target request rounds).run.Obeys rule log := by
  induction rounds generalizing log with
  | zero => exact trivial
  | succ rounds ih =>
    apply Attempt.obeys_bind (Attempt.obeys_lift (serverAddresses_obeys hfree n log))
    intro servers _ _
    apply Attempt.obeys_bind (Attempt.obeys_lift (sendToAll_obeys hsend servers _))
    intro _ _ _
    apply Attempt.obeys_bind (Attempt.obeys_outcome (hgreet target _))
    intro r _ _
    cases r with
    | ok name => exact trivial
    | error e =>
      dsimp only
      split
      · exact trivial
      · refine ⟨hfree _ _ trivial, fun known => ?_⟩
        cases known with
        | true => exact trivial
        | false => exact ih _

variable (hsend : ∀ log a id e,
  rule log (.transmit a (Message.ofEndpoint id .natTraversalRequest e).encode))

include hsend in
theorem traverse_obeys (peer : String) (target : Address) (log : List Asked) :
    (n.traverse peer target).run.Obeys rule log := by
  cases target with
  | v4 e =>
    exact ⟨hfree _ _ trivial, fun id =>
      traverseRounds_obeys hfree hgreet (fun log a => hsend log a id e) peer (.v4 e) _ _⟩
  | v6 => exact trivial

include hsend in
theorem reach_obeys (peer : String) (a : Address) (log : List Asked) :
    (n.reach peer a).run.Obeys rule log := by
  apply Attempt.obeys_bind (Attempt.obeys_outcome (hgreet a log))
  intro r _ _
  cases r with
  | ok name => exact trivial
  | error e =>
    dsimp only
    split
    · apply Attempt.obeys_bind (Attempt.obeys_outcome (traverse_obeys hfree hgreet hsend peer a _))
      intro r _ _
      cases r <;> exact trivial
    · exact trivial

omit hfree in
theorem punchRounds_obeys (initiator : Address) (rounds : Nat) (log : List Asked) :
    (n.punchRounds initiator rounds).Obeys rule log := by
  induction rounds generalizing log with
  | zero => exact trivial
  | succ rounds ih =>
    apply (hgreet initiator log).bind
    intro r _ _
    cases r with
    | ok name => exact trivial
    | error e =>
      dsimp only
      split
      · exact trivial
      · exact ih _

end

end Node
end TreeShare
