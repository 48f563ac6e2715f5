import TreeShare.Engine.Search
import TreeShare.Proofs.Engine.Checks

/-! What a request that has come to a reply was told and has checked on its way, at whatever address it was
answered. Main statement: `request_after`. -/
namespace TreeShare

open Proc

/-- A reply in a dialogue: it ended a wait for an id at an address, and passed the check of its sender,
which comes next. -/
def Accepted (n : Node) (source : Address) (id : UInt32) (r : Message) (check log : List Asked) :
    Prop :=
  ∃ past t deadline later, log = past ++ ⟨.awaitReply t deadline, .reply r⟩ :: (check ++ later) ∧
    ⟨.register (source, id), t⟩ ∈ past ∧ (n.checkSender source r).After check (.done (.ok ()))

variable {n : Node} {a : Address} {m r : Message} {id : UInt32} {check log : List Asked}

theorem Accepted.later (h : Accepted n a id r check log) (before : List Asked) :
    Accepted n a id r check (before ++ log) := by
  obtain ⟨past, t, deadline, later, rfl, ht, hcheck⟩ := h
  exact ⟨before ++ past, t, deadline, later, by rw [List.append_assoc], by simp [ht], hcheck⟩

theorem Accepted.earlier (h : Accepted n a id r check log) (after : List Asked) :
    Accepted n a id r check (log ++ after) := by
  obtain ⟨past, t, deadline, later, rfl, ht, hcheck⟩ := h
  exact ⟨past, t, deadline, later ++ after, by simp, ht, hcheck⟩

namespace Node

theorem validate_after {sent told : Message}
    (h : (n.validate a sent told).run.After log (.done (.ok r))) :
    told = r ∧ (n.checkSender a r).After log (.done (.ok ())) := by
  obtain ⟨first, _, rest, rfl, hreply, hrest⟩ := Attempt.after_bind_ok h
  obtain ⟨rfl, -⟩ := after_done_iff.mp hreply
  obtain ⟨check, _, last, rfl, hcheck, hlast⟩ := Attempt.after_bind_ok hrest
  obtain ⟨rfl, hr⟩ := after_done_iff.mp hlast
  cases hr
  obtain ⟨asking, verdict, last, rfl, hsender, hverdict⟩ := after_bind_done_iff.mp hcheck
  obtain ⟨rfl, hv⟩ := after_done_iff.mp hverdict
  cases verdict with
  | ok =>
    refine ⟨rfl, ?_⟩
    rw [List.append_nil, List.nil_append, List.append_nil]
    exact hsender
  | error cause => cases hv

theorem sendUpTo_after {attempts left : Nat} {t : Ticket}
    (h : (n.sendUpTo a m attempts left t).run.After log (.done (.ok r))) (past : List Asked)
    (ht : ⟨.register (a, m.id), t⟩ ∈ past) : ∃ check, Accepted n a m.id r check (past ++ log) := by
  induction left generalizing t log past with
  | zero =>
    obtain ⟨_, rest, rfl, hrest⟩ := after_ask_done_iff.mp h
    cases (after_done_iff.mp hrest).2
  | succ left ih =>
    obtain ⟨sent, rest, rfl, hsent⟩ := after_ask_done_iff.mp h
    cases sent with
    | false =>
      obtain ⟨_, rest, rfl, hrest⟩ := after_ask_done_iff.mp hsent
      cases (after_done_iff.mp hrest).2
    | true =>
      obtain ⟨start, rest, rfl, htimed⟩ := after_ask_done_iff.mp hsent
      obtain ⟨wait, rest, rfl, hwaited⟩ := after_ask_done_iff.mp htimed
      cases wait with
      | reply told =>
        obtain ⟨rfl, hcheck⟩ := validate_after hwaited
        exact ⟨rest, past ++ [⟨.transmit a m.encode, true⟩, ⟨.now, start⟩], t,
          start + n.settings.replyTimeout, [], by simp, List.mem_append_left _ ht, hcheck⟩
      | swept =>
        obtain ⟨u, rest, rfl, hrest⟩ := after_ask_done_iff.mp hwaited
        have hlog := ih hrest (past ++ [⟨.transmit a m.encode, true⟩, ⟨.now, start⟩,
          ⟨.awaitReply t (start + n.settings.replyTimeout), .swept⟩, ⟨.register (a, m.id), u⟩])
          (by simp)
        simpa using hlog
      | silence =>
        have hlog := ih hwaited (past ++ [⟨.transmit a m.encode, true⟩, ⟨.now, start⟩,
          ⟨.awaitReply t (start + n.settings.replyTimeout), .silence⟩]) (by simp [ht])
        simpa using hlog

theorem exchange_after (h : (n.exchange a m).run.After log (.done (.ok r))) :
    ∃ check, Accepted n a m.id r check log := by
  obtain ⟨first, attempts, rest, rfl, -, hrest⟩ := Attempt.after_bind_ok h
  obtain ⟨t, rest, rfl, hsends⟩ := after_ask_done_iff.mp hrest
  obtain ⟨check, hcheck⟩ := sendUpTo_after hsends [_] (List.mem_singleton.mpr rfl)
  rw [← n.prepare_id m]
  exact ⟨check, hcheck.later first⟩

theorem sendToKnown_after {peer : String} {known : List Address}
    (h : (n.sendToKnown peer m known).run.After log (.done (.ok (some r)))) :
    ∃ a check, Accepted n a m.id r check log := by
  induction known generalizing log with
  | nil => cases (after_done_iff.mp h).2
  | cons a rest ih =>
    obtain ⟨first, outcome, second, rfl, hexchange, hrest⟩ := Attempt.after_bind_ok h
    cases outcome with
    | ok reply =>
      obtain ⟨rfl, hr⟩ := after_done_iff.mp hrest
      cases hr
      obtain ⟨check, hcheck⟩ := exchange_after (Attempt.after_outcome hexchange)
      exact ⟨a, check, hcheck.earlier []⟩
    | error cause =>
      dsimp only at hrest
      split at hrest
      · obtain ⟨_, later, rfl, hlater⟩ := after_ask_done_iff.mp hrest
        obtain ⟨b, check, hcheck⟩ := ih hlater
        exact ⟨b, check, (hcheck.later [_]).later first⟩
      · cases (after_done_iff.mp hrest).2

theorem sendToFresh_after {peer : String} {tried fresh : List Address}
    (h : (n.sendToFresh peer m tried fresh).run.After log (.done (.ok r))) :
    ∃ a check, Accepted n a m.id r check log := by
  induction fresh generalizing tried log with
  | nil => cases (after_done_iff.mp h).2
  | cons a rest ih =>
    unfold sendToFresh at h
    split at h
    · exact ih h
    · obtain ⟨first, reached, second, rfl, -, hreached⟩ := Attempt.after_bind_ok h
      split at hreached
      · obtain ⟨b, check, hcheck⟩ := ih hreached
        exact ⟨b, check, hcheck.later first⟩
      · obtain ⟨asking, outcome, last, rfl, hexchange, hrest⟩ := Attempt.after_bind_ok hreached
        cases outcome with
        | ok reply =>
          obtain ⟨_, later, rfl, hlater⟩ := after_ask_done_iff.mp hrest
          obtain ⟨rfl, hr⟩ := after_done_iff.mp hlater
          cases hr
          obtain ⟨check, hcheck⟩ := exchange_after (Attempt.after_outcome hexchange)
          exact ⟨a, check, (hcheck.earlier [_]).later first⟩
        | error cause =>
          dsimp only at hrest
          split at hrest
          · obtain ⟨_, later, rfl, hlater⟩ := after_ask_done_iff.mp hrest
            obtain ⟨b, check, hcheck⟩ := ih hlater
            exact ⟨b, check, ((hcheck.later [_]).later asking).later first⟩
          · cases (after_done_iff.mp hrest).2

/-- A request to a peer was answered at one of its addresses, and that reply was checked there. -/
theorem request_after {peer : String} (h : (n.request peer m).run.After log (.done (.ok r))) :
    ∃ a check, Accepted n a m.id r check log := by
  obtain ⟨known, rest, rfl, hknown⟩ := after_ask_done_iff.mp h
  obtain ⟨first, reply, second, rfl, hsends, hrest⟩ := Attempt.after_bind_ok hknown
  cases reply with
  | some reply =>
    obtain ⟨rfl, hr⟩ := after_done_iff.mp hrest
    cases hr
    obtain ⟨a, check, hcheck⟩ := sendToKnown_after hsends
    exact ⟨a, check, (hcheck.earlier []).later [_]⟩
  | none =>
    obtain ⟨found, later, rfl, hfound⟩ := after_ask_done_iff.mp hrest
    cases found with
    | ok fresh =>
      obtain ⟨a, check, hcheck⟩ := sendToFresh_after hfound
      exact ⟨a, check, ((hcheck.later [_]).later first).later [_]⟩
    | error cause => cases (after_done_iff.mp hfound).2

end Node
end TreeShare
