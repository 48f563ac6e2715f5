import TreeShare.Proofs.Engine.Policy

/-! The checks of a reply, one after the other. Main statement: `exact_acceptance`, a reply is taken if and
only if it passes all of them, and the first that it does not pass says why. -/
namespace TreeShare

open Proc

inductive ReplyCheck where
  /-- The reply does not refuse the request. -/
  | refusal
  /-- It is of a type that answers the request. -/
  | pairing
  /-- A datum is well formed and has the hash that it states. -/
  | integrity
  /-- A datum is the one that was asked for. -/
  | identity
  /-- The sender keeps to its published key. -/
  | policy
deriving DecidableEq

namespace ReplyCheck

/-- The checks that only read the reply and the request, in the order in which they are made. -/
def byItself : List ReplyCheck := [refusal, pairing, integrity, identity]

def order : List ReplyCheck := byItself ++ [policy]

section

variable (scheme : SignatureScheme) (sent reply : Message) (found : Finding)

def Passes : ReplyCheck → Prop
  | refusal => ¬ (reply.type = .errorReply ∧ sent.type ≠ .error)
  | pairing => reply.type.answers sent.type = true
  | integrity => reply.type = .datum → Datum.checkIntegrity reply.body = .ok ()
  | identity => reply.type = .datum → reply.body.take 32 = sent.body
  | policy => reply.Admissible scheme found

/-- How a check reports a reply that does not pass it. -/
inductive Reports : ReplyCheck → RequestError → Prop
  | refusal : Reports refusal (.errorReply (Utf8.lossy reply.body))
  | pairing : Reports pairing (.unexpectedReply sent.type reply.type)
  | integrity {cause : DatumError} (flaw : Datum.checkIntegrity reply.body = .error cause) :
      Reports integrity (.corrupted cause)
  | identity :
      Reports identity (.hashMismatch (Bytes.padded 32 sent.body) (Bytes.padded 32 reply.body))
  | policy {cause : SignatureError} (fault : reply.Faulty scheme found cause) :
      Reports policy (.signature cause)

/-- The first of some checks that does not pass is the one that reports. -/
def FirstFailure (checks : List ReplyCheck) (cause : RequestError) : Prop :=
  ∃ passed check rest, checks = passed ++ check :: rest ∧
    (∀ earlier ∈ passed, earlier.Passes scheme sent reply found) ∧
      ¬ check.Passes scheme sent reply found ∧ check.Reports scheme sent reply found cause

structure Judged (r : Except RequestError Message) : Prop where
  accepts : (∃ m, r = .ok m) ↔ ∀ check : ReplyCheck, check.Passes scheme sent reply found
  returned : ∀ m, r = .ok m → m = reply
  refuses : ∀ cause, r = .error cause →
    cause.isSoft = true ∧ FirstFailure scheme sent reply found order cause

end

variable {scheme : SignatureScheme} {sent reply : Message} {found : Finding} {cause : RequestError}

theorem passes_all_iff : (∀ check : ReplyCheck, check.Passes scheme sent reply found) ↔
    (∀ check ∈ byItself, check.Passes scheme sent reply found) ∧ reply.Admissible scheme found := by
  constructor
  · exact fun h => ⟨fun check _ => h check, h policy⟩
  · rintro ⟨hitself, hpolicy⟩ check
    cases check with
    | policy => exact hpolicy
    | _ => exact hitself _ (by decide)

theorem Reports.soft {check : ReplyCheck} (h : check.Reports scheme sent reply found cause) :
    cause.isSoft = true := by
  cases h <;> rfl

theorem FirstFailure.soft {checks : List ReplyCheck}
    (h : FirstFailure scheme sent reply found checks cause) : cause.isSoft = true := by
  obtain ⟨passed, check, rest, -, -, -, hreports⟩ := h
  exact hreports.soft

theorem FirstFailure.later {checks more : List ReplyCheck}
    (h : FirstFailure scheme sent reply found checks cause) :
    FirstFailure scheme sent reply found (checks ++ more) cause := by
  obtain ⟨passed, check, rest, rfl, hrest⟩ := h
  exact ⟨passed, check, rest ++ more, by simp, hrest⟩

theorem FirstFailure.exists_fails {checks : List ReplyCheck}
    (h : FirstFailure scheme sent reply found checks cause) :
    ∃ check ∈ checks, ¬ check.Passes scheme sent reply found := by
  obtain ⟨passed, check, rest, rfl, -, hfails, -⟩ := h
  exact ⟨check, by simp, hfails⟩

end ReplyCheck

namespace Node

open ReplyCheck

theorem checkReply_spec (scheme : SignatureScheme) (sent reply : Message) (found : Finding) :
    checkReply sent reply = .ok () ∧ (∀ check ∈ byItself, check.Passes scheme sent reply found) ∨
      ∃ cause, checkReply sent reply = .error cause ∧
        FirstFailure scheme sent reply found byItself cause := by
  unfold checkReply
  by_cases hrefusal : reply.type = .errorReply ∧ sent.type ≠ .error
  · rw [if_pos hrefusal]
    exact .inr ⟨_, rfl, [], refusal, _, rfl, by simp, fun h => h hrefusal, .refusal⟩
  · rw [if_neg hrefusal]
    have hpassed : Passes scheme sent reply found refusal := hrefusal
    cases hpairing : reply.type.answers sent.type with
    | false =>
      refine .inr ⟨_, rfl, [refusal], pairing, _, rfl, by simpa, fun h => ?_, .pairing⟩
      rw [Passes, hpairing] at h
      contradiction
    | true =>
      have hpaired : Passes scheme sent reply found pairing := hpairing
      simp only [Bool.not_true, Bool.false_eq_true, if_false]
      by_cases hdatum : reply.type = .datum
      · rw [if_pos hdatum]
        cases hintegrity : Datum.checkIntegrity reply.body with
        | error cause =>
          refine .inr ⟨_, rfl, [refusal, pairing], integrity, _, rfl, by simp [hpassed, hpaired],
            fun h => ?_, .integrity hintegrity⟩
          rw [h hdatum] at hintegrity
          contradiction
        | ok =>
          have hintact : Passes scheme sent reply found integrity := fun _ => hintegrity
          by_cases hidentity : sent.body = reply.body.take 32
          · have hsame : Passes scheme sent reply found identity := fun _ => hidentity.symm
            exact .inl ⟨if_pos hidentity, by simp [byItself, hpassed, hpaired, hintact, hsame]⟩
          · refine .inr ⟨_, if_neg hidentity, [refusal, pairing, integrity], identity, _, rfl,
              by simp [hpassed, hpaired, hintact], fun h => hidentity (h hdatum).symm, .identity⟩
      · have hintact : Passes scheme sent reply found integrity := fun h => absurd h hdatum
        have hsame : Passes scheme sent reply found identity := fun h => absurd h hdatum
        exact .inl ⟨if_neg hdatum, by simp [byItself, hpassed, hpaired, hintact, hsame]⟩

theorem passes_of_checkReply {sent reply : Message} (h : checkReply sent reply = .ok ())
    (scheme : SignatureScheme) (found : Finding) :
    ∀ check ∈ byItself, check.Passes scheme sent reply found := by
  rcases checkReply_spec scheme sent reply found with ⟨-, hpassed⟩ | ⟨cause, herror, -⟩
  · exact hpassed
  · rw [h] at herror
    contradiction

theorem failure_of_checkReply {sent reply : Message} {cause : RequestError}
    (h : checkReply sent reply = .error cause) (scheme : SignatureScheme) (found : Finding) :
    FirstFailure scheme sent reply found byItself cause := by
  rcases checkReply_spec scheme sent reply found with ⟨hok, -⟩ | ⟨cause', herror, hfailure⟩
  · rw [hok] at h
    contradiction
  · cases herror.symm.trans h
    exact hfailure

def conclude (n : Node) (sent reply : Message) (found : Finding) : Except RequestError Message := do
  checkReply sent reply
  (n.ruling reply found).mapError .signature
  pure reply

theorem conclude_of_ok {sent reply : Message} (h : checkReply sent reply = .ok ()) (n : Node)
    (found : Finding) : n.conclude sent reply found =
      ((n.ruling reply found).mapError .signature).map fun _ => reply := by
  unfold conclude
  rw [h]
  cases n.ruling reply found <;> rfl

theorem conclude_of_error {sent reply : Message} {cause : RequestError}
    (h : checkReply sent reply = .error cause) (n : Node) (found : Finding) :
    n.conclude sent reply found = .error cause := by
  unfold conclude
  rw [h]
  rfl

theorem judged_conclude (n : Node) (sent reply : Message) (found : Finding) :
    Judged n.scheme sent reply found (n.conclude sent reply found) := by
  cases hreply : checkReply sent reply with
  | ok =>
    have hpassed := passes_of_checkReply hreply n.scheme found
    rw [conclude_of_ok hreply]
    rcases n.ruling_spec reply found with ⟨hverdict, hadmissible⟩ | ⟨fault, hverdict, hfaulty⟩
    · rw [hverdict]
      refine ⟨iff_of_true ⟨reply, rfl⟩ (passes_all_iff.mpr ⟨hpassed, hadmissible⟩), ?_, nofun⟩
      rintro m ⟨⟩
      rfl
    · rw [hverdict]
      refine ⟨iff_of_false nofun fun h => hfaulty.not_admissible (h policy), nofun, ?_⟩
      rintro cause ⟨⟩
      exact ⟨rfl, byItself, policy, [], rfl, hpassed, hfaulty.not_admissible, .policy hfaulty⟩
  | error cause =>
    have hfailure := failure_of_checkReply hreply n.scheme found
    rw [conclude_of_error hreply]
    refine ⟨iff_of_false nofun fun h => ?_, nofun, ?_⟩
    · obtain ⟨check, -, hfails⟩ := hfailure.exists_fails
      exact hfails (h check)
    · rintro cause ⟨⟩
      exact ⟨hfailure.soft, hfailure.later⟩

variable {n : Node} {source : Address} {sent reply : Message}

theorem run_validate_of_error {cause : RequestError} (h : checkReply sent reply = .error cause)
    (n : Node) (source : Address) :
    (n.validate source sent reply).run = .done (.error cause) := by
  unfold validate
  rw [h]
  rfl

theorem alone_validate (n : Node) (e : Engine) (source : Address) (sent reply : Message) :
    ∃ keys, e.alone n (n.validate source sent reply).run =
        some (n.conclude sent reply (e.finding source reply), { e with keyCache := keys }, []) ∧
      (keys = e.keyCache ∨ keys = e.keysAfter source reply) := by
  cases hreply : checkReply sent reply with
  | error cause =>
    rw [run_validate_of_error hreply, conclude_of_error hreply]
    exact ⟨e.keyCache, rfl, .inl rfl⟩
  | ok =>
    rw [run_validate_of_ok hreply, conclude_of_ok hreply]
    exact ⟨_, Engine.alone_bind (Engine.alone_checkSender n e source reply) rfl, .inr rfl⟩

theorem validate_judged {log : List Asked} {r : Except RequestError Message}
    (h : (n.validate source sent reply).run.After log (.done r)) :
    ∃ found, Judged n.scheme sent reply found r ∧
      ((∀ check ∈ byItself, check.Passes n.scheme sent reply found) ∧
          reply.LookedUp source log found ∨
        (∃ check ∈ byItself, ¬ check.Passes n.scheme sent reply found) ∧ log = []) := by
  cases hreply : checkReply sent reply with
  | ok =>
    rw [run_validate_of_ok hreply] at h
    obtain ⟨check, verdict, rest, rfl, hcheck, hdone⟩ := after_bind_done_iff.mp h
    obtain ⟨rfl, hr⟩ := after_done_iff.mp hdone
    obtain ⟨found, hfound, rfl⟩ := checkSender_after_iff.mp hcheck
    have hjudged := n.judged_conclude sent reply found
    rw [conclude_of_ok hreply] at hjudged
    cases hr
    rw [List.append_nil]
    exact ⟨found, hjudged, .inl ⟨passes_of_checkReply hreply n.scheme found, hfound⟩⟩
  | error cause =>
    rw [run_validate_of_error hreply] at h
    obtain ⟨rfl, hr⟩ := after_done_iff.mp h
    have hjudged := n.judged_conclude sent reply none
    rw [conclude_of_error hreply] at hjudged
    cases hr
    exact ⟨none, hjudged, .inr ⟨(failure_of_checkReply hreply n.scheme none).exists_fails, rfl⟩⟩

theorem validate_asks {log : List Asked} {op : Op}
    {next : op.Answer → Proc (Except RequestError Message)}
    (h : (n.validate source sent reply).run.After log (.ask op next)) :
    op.IsLookup ∧ op.OnMiss log :=
  ⟨(h.within (validate_within n source sent reply)).2.2.asks,
    ((validate_obeys onMiss_of_keepsKeys keyOf_onMiss source sent reply []).after h).1⟩

end Node

namespace Engine

open ReplyCheck

/-- What validating a reply comes to, and what it changes. In any one state of an engine the result is what
the checks come to, and nothing is sent and nothing changed but that one key that was not cached and that
the directory told may be remembered. If other tasks go on in between the result is what the checks come to
with what was found on the way. Every question is answered at once and sends and changes nothing either, up
to remembering a key right after the cache had none and the directory told it. -/
theorem exact_acceptance (n : Node) (source : Address) (sent reply : Message) :
    (∀ e : Engine, ∃ r keys,
      e.alone n (n.validate source sent reply).run = some (r, { e with keyCache := keys }, []) ∧
      Judged n.scheme sent reply (e.finding source reply) r ∧
      (keys = e.keyCache ∨
        ∃ peer key, reply.claimedName?.or (e.book.peerAt? source) = some peer ∧
          e.keyCache.cached? peer = none ∧ e.directory.key peer = .ok key ∧
            keys = e.keyCache.insert peer key)) ∧
    (∀ log r, (n.validate source sent reply).run.After log (.done r) →
      ∃ found, Judged n.scheme sent reply found r ∧
        ((∀ check ∈ byItself, check.Passes n.scheme sent reply found) ∧
            reply.LookedUp source log found ∨
          (∃ check ∈ byItself, ¬ check.Passes n.scheme sent reply found) ∧ log = [])) ∧
    ∀ log op next, (n.validate source sent reply).run.After log (.ask op next) →
      op.OnMiss log ∧ ∀ e : Engine, ∃ answer keys,
        e.perform n op = some (answer, { e with keyCache := keys }, []) ∧
          (keys = e.keyCache ∨
            ∃ peer key, op = .rememberKey peer key ∧ keys = e.keyCache.insert peer key) := by
  refine ⟨fun e => ?_, fun log r => Node.validate_judged, fun log op next h => ?_⟩
  · obtain ⟨keys, halone, hkeys⟩ := Node.alone_validate n e source sent reply
    refine ⟨_, keys, halone, n.judged_conclude sent reply _, ?_⟩
    rcases hkeys with rfl | rfl
    · exact .inl rfl
    · exact e.keysAfter_spec source reply
  · obtain ⟨hlookup, hmiss⟩ := Node.validate_asks h
    exact ⟨hmiss, perform_lookup_spec hlookup n⟩

/-- A HelloReply without a signature, in the name of a peer whose key the directory has. -/
theorem unsigned_hello_refused :
    let key : PublicKey := Vector.replicate 64 1
    let e := start Node.plain .ip4 (PeerTable.empty.setKey "bob" (some key)).directory ⟨⟨[]⟩⟩
    let source : Address := .v4 ⟨#v[10, 0, 0, 1], 1000⟩
    let sent : Message := ⟨7, .hello, Hello.toBody ⟨0, "alice"⟩, none, by decide⟩
    let reply : Message := ⟨7, .helloReply, Hello.toBody ⟨0, "bob"⟩, none, by decide⟩
    ∃ keys, e.alone Node.plain (Node.plain.validate source sent reply).run =
        some (.error (.signature .missing), { e with keyCache := keys }, []) ∧
      FirstFailure .p256 sent reply (some (.ok (some key))) order (.signature .missing) := by
  intro key e source sent reply
  obtain ⟨r, keys, halone, hjudged, -⟩ := (exact_acceptance Node.plain source sent reply).1 e
  have hresult : (e.alone Node.plain (Node.plain.validate source sent reply).run).map Prod.fst =
      some (.error (.signature .missing)) := by decide +kernel
  have hfinding : e.finding source reply = some (.ok (some key)) := by decide +kernel
  rw [halone] at hresult
  cases hresult
  rw [hfinding] at hjudged
  exact ⟨keys, halone, (hjudged.refuses _ rfl).2⟩

end Engine
end TreeShare
