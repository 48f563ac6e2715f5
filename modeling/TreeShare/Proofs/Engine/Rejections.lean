import TreeShare.Proofs.Engine.Listening
import TreeShare.Proofs.Engine.Policy

/-! Requests that are dropped without an answer: those that do not have the form that their type asks for,
and those whose sender does not keep to its key. Main statement: `rejected_without_trace`. -/
namespace TreeShare

open Proc

namespace Message

def WellFormed (m : Message) : Prop :=
  match m.type with
  | .noOp | .error | .publicKey => True
  | .hello => 4 < m.body.length ∧ ∃ name, m.body.drop 4 = Utf8.encode name
  | .root => m.body.length = 0 ∨ m.body.length = 32
  | .getDatum => m.body.length = 32
  | .natTraversalRequest | .natTraversal => m.body.length = 6
  | _ => False

end Message

theorem Hello.isSome_parse_iff {body : Bytes} : (Hello.parse body).toOption.isSome ↔
    4 < body.length ∧ ∃ name, body.drop 4 = Utf8.encode name := by
  unfold Hello.parse
  by_cases hlength : body.length ≤ 4
  · rw [if_pos hlength]
    exact iff_of_false (by simp [Except.toOption]) fun h => Nat.not_le.mpr h.1 hlength
  · rw [if_neg hlength, and_iff_right (Nat.not_le.mp hlength)]
    simp only [← Utf8.decode?_eq_some_iff]
    cases Utf8.decode? (body.drop 4) <;> simp [Except.toOption]

theorem Endpoint.eq_of_length_six {b : Bytes} (h : b.length = 6) :
    ∃ i j k l p q, b = [i, j, k, l, p, q] :=
  match b, h with
  | [i, j, k, l, p, q], _ => ⟨i, j, k, l, p, q, rfl⟩

theorem Endpoint.isSome_ofBytes_iff {b : Bytes} :
    (Endpoint.ofBytes b).toOption.isSome ↔ b.length = 6 := by
  unfold Endpoint.ofBytes
  split
  · exact iff_of_true rfl rfl
  · rename_i hshape
    refine iff_of_false (by split <;> simp [Except.toOption]) fun h => ?_
    obtain ⟨i, j, k, l, p, q, hb⟩ := Endpoint.eq_of_length_six h
    exact hshape i j k l p q hb

theorem Bytes.isSome_block?_iff {size : Nat} {b : Bytes} :
    (Bytes.block? size b).isSome ↔ b.length = size := by
  unfold Bytes.block?
  split <;> simp_all

theorem Request.isSome_ofMessage?_iff {m : Message} :
    (Request.ofMessage? m).isSome ↔ m.WellFormed := by
  unfold Request.ofMessage? Message.WellFormed
  cases m.type with
  | hello => simpa only [Option.isSome_map] using Hello.isSome_parse_iff
  | root => dsimp only; split <;> simp_all
  | getDatum => simpa only [Option.isSome_map] using Bytes.isSome_block?_iff
  | natTraversalRequest | natTraversal =>
    simpa only [Option.isSome_map] using Endpoint.isSome_ofBytes_iff
  | _ => simp

inductive Rejected (n : Node) (source : Address) (m : Message) (log : List Asked) : Prop
  | malformed (form : ¬ m.WellFormed)
  | unlawful {found : Finding} (looked : m.LookedUp source log found)
      (refused : ¬ m.Admissible n.scheme found)

namespace Node

variable {n : Node} {source : Address} {m : Message}

theorem serve_of_malformed (h : ¬ m.WellFormed) (n : Node) (source : Address) :
    n.serve source m = .done () := by
  have hnone : Request.ofMessage? m = none := by
    rw [← Request.isSome_ofMessage?_iff] at h
    exact Option.not_isSome_iff_eq_none.mp h
  unfold serve
  simp only [hnone]
  rfl

theorem serve_of_wellFormed (h : m.WellFormed) (n : Node) (source : Address) :
    ∃ r, Request.ofMessage? m = some r ∧
      n.serve source m = (n.checkSender source m).bind fun verdict =>
        match verdict with
        | .ok () => n.answer source m.id r
        | .error _ => .done () := by
  obtain ⟨r, hr⟩ := Option.isSome_iff_exists.mp (Request.isSome_ofMessage?_iff.mpr h)
  refine ⟨r, hr, ?_⟩
  unfold serve
  simp only [hr]
  rfl

theorem ruling_of_refused {found : Finding} (h : ¬ m.Admissible n.scheme found) :
    ∃ cause, n.ruling m found = .error cause := by
  rcases n.ruling_spec m found with ⟨-, hadmissible⟩ | ⟨cause, herror, -⟩
  · exact absurd hadmissible h
  · exact ⟨cause, herror⟩

theorem alone_serve_of_rejected {e : Engine}
    (h : ¬ m.WellFormed ∨ ¬ m.Admissible n.scheme (e.finding source m)) :
    ∃ keys, e.alone n (n.serve source m) = some ((), { e with keyCache := keys }, []) ∧
      (¬ m.WellFormed → keys = e.keyCache) := by
  by_cases hform : m.WellFormed
  · obtain ⟨cause, hverdict⟩ := ruling_of_refused (h.resolve_left fun hno => hno hform)
    obtain ⟨r, -, hserve⟩ := serve_of_wellFormed hform n source
    have hcheck := Engine.alone_checkSender n e source m
    rw [hverdict] at hcheck
    rw [hserve]
    exact ⟨_, Engine.alone_bind hcheck rfl, fun hno => absurd hform hno⟩
  · rw [serve_of_malformed hform]
    exact ⟨e.keyCache, rfl, fun _ => rfl⟩

/-- The task of a request that comes to be rejected asks nothing but what the check of its sender asks, and
nothing at all if the request is malformed. -/
theorem lookup_of_rejected {log more : List Asked} {op : Op} {next : op.Answer → Proc Outcome}
    (h : (Engine.silent (n.serve source m)).After log (.ask op next))
    (hrejected : Rejected n source m (log ++ more)) : op.IsLookup ∧ m.WellFormed := by
  by_cases hform : m.WellFormed
  · refine ⟨?_, hform⟩
    obtain ⟨r, -, hserve⟩ := serve_of_wellFormed hform n source
    have h : ((n.checkSender source m).bind fun verdict => Engine.silent
        (match verdict with
          | .ok () => n.answer source m.id r
          | .error _ => .done ())).After log (.ask op next) := by
      unfold Engine.silent at h ⊢
      rw [hserve] at h
      exact (bind_bind (n.checkSender source m) _ _) ▸ h
    rcases after_bind h with ⟨op', next', hcheck, hask⟩ | ⟨first, verdict, second, rfl, hcheck, hrest⟩
    · cases hask
      exact (checkSender_asks hcheck).1
    · -- The check has ended. Its verdict is bad, so that there is nothing left to ask.
      cases hrejected with
      | malformed hno => exact absurd hform hno
      | unlawful looked refused =>
        obtain ⟨cause, hverdict⟩ := ruling_of_refused refused
        have hwhole := checkSender_after_iff.mpr ⟨_, looked, hverdict.symm⟩
        rw [List.append_assoc] at hwhole
        cases (hcheck.ended hwhole).2
        cases (after_done_iff.mp hrest).2
  · rw [serve_of_malformed hform] at h
    cases (after_done_iff.mp h).2

end Node

namespace Engine

variable {n : Node} {e : Engine} {k : Nat}

/-- A step of a task that leaves no trace: it sends nothing, and changes only the task itself and the keys
that are remembered. -/
structure Traceless (k : Nat) (e : Engine) (after : Engine × List Record) : Prop where
  silent : after.2 = []
  same : ∃ keys tasks, after.1 = { e with keyCache := keys, tasks := tasks }
  others : ∀ j, j ≠ k → after.1.tasks.get? j = e.tasks.get? j

theorem traceless_of_lookup {duty : Duty} {ticket : Option Ticket} {op : Op}
    {next : op.Answer → Proc Outcome} (htask : e.tasks.get? k = some ⟨duty, ticket, .ask op next⟩)
    (h : op.IsLookup) (n : Node) : Traceless k e (e.step n (.run k)) := by
  obtain ⟨answer, keys, hanswer, -⟩ := perform_lookup_spec h n e
  rw [step_run_of_answer htask hanswer]
  refine ⟨rfl, ⟨keys, _, rfl⟩, fun j hj => ?_⟩
  rw [get?_setTask, if_neg hj]

theorem traceless_of_done {ticket : Option Ticket} {o : Outcome}
    (htask : e.tasks.get? k = some ⟨.service, ticket, .done o⟩) (n : Node) :
    Traceless k e (e.step n (.run k)) ∧ (e.step n (.run k)).1.keyCache = e.keyCache := by
  rw [step_run_of_done htask]
  refine ⟨⟨rfl, ⟨e.keyCache, _, rfl⟩, fun j hj => ?_⟩, rfl⟩
  unfold finish
  rw [get?_endTask, if_neg hj]

theorem traceless_of_none (htask : e.tasks.get? k = none) (n : Node) :
    Traceless k e (e.step n (.run k)) ∧ (e.step n (.run k)).1.keyCache = e.keyCache := by
  rw [step_run_of_none htask]
  exact ⟨⟨rfl, ⟨e.keyCache, e.tasks, rfl⟩, fun _ _ => rfl⟩, rfl⟩

/-- Whatever else goes on, a step of the task of a request that comes to be rejected leaves no trace. If
the request is malformed it leaves the remembered keys alone too. -/
theorem traceless_of_rejected {source : Address} {m : Message} (hk : k < e.nextTask)
    (htask : e.tasks.get? k = some ⟨.service, none, silent (n.serve source m)⟩)
    {past later : List Event}
    (h : Rejected n source m (e.dialogue n k (past ++ .run k :: later))) :
    let before := (e.steps n past).1
    Traceless k before (before.step n (.run k)) ∧
      (¬ m.WellFormed → (before.step n (.run k)).1.keyCache = before.keyCache) := by
  intro before
  rw [dialogue_append] at h
  have hduty : ∀ next, Duty.service ≠ .keepAlive next := nofun
  have hfate := fate (n := n) hduty hk htask past
  cases hnow : before.tasks.get? k with
  | none =>
    obtain ⟨htrace, hkeys⟩ := traceless_of_none hnow n
    exact ⟨htrace, fun _ => hkeys⟩
  | some t =>
    have hlive : (e.steps n past).1.tasks.get? k = some t := hnow
    rw [hlive] at hfate
    cases hfate with
    | @live ticket q path =>
      cases q with
      | done o =>
        obtain ⟨htrace, hkeys⟩ := traceless_of_done hnow n
        exact ⟨htrace, fun _ => hkeys⟩
      | ask op next =>
        obtain ⟨hlookup, hform⟩ := Node.lookup_of_rejected path h
        exact ⟨traceless_of_lookup hnow hlookup n, fun hno => absurd hform hno⟩

theorem dialogue_of_malformed {source : Address} {m : Message} (hk : k < e.nextTask)
    (htask : e.tasks.get? k = some ⟨.service, none, silent (n.serve source m)⟩)
    (h : ¬ m.WellFormed) (events : List Event) : e.dialogue n k events = [] := by
  have hduty : ∀ next, Duty.service ≠ .keepAlive next := nofun
  have hfate := fate (n := n) hduty hk htask events
  rw [Node.serve_of_malformed h] at hfate
  generalize (e.steps n events).1.tasks.get? k = t at hfate
  cases hfate with
  | live path | done path | aborted path => exact (after_done_iff.mp path).1

/-- A rejected request leaves no trace. `alone` is for a request that is served with nothing beside it,
`turns` for one that is served while other tasks go on: it gets a task, every step of which is traceless. A
malformed one asks nothing, so that neither the directory is consulted nor a key remembered. -/
structure WithoutTrace (n : Node) (source : Address) (m : Message) : Prop where
  alone : ∀ e : Engine, ¬ m.WellFormed ∨ ¬ m.Admissible n.scheme (e.finding source m) →
    ∃ keys, e.alone n (n.serve source m) = some ((), { e with keyCache := keys }, []) ∧
      (¬ m.WellFormed → keys = e.keyCache)
  turns : ∀ (e : Engine) (datagram : Bytes) (after : List Event),
    heard? datagram = some m → m.type.isRequest = true →
      let run := (e.step n (.receive source datagram)).1
      e.step n (.receive source datagram) = (run, []) ∧
      (∃ tasks, run = { e with tasks := tasks, nextTask := e.nextTask + 1 } ∧
        ∀ j, j ≠ e.nextTask → tasks.get? j = e.tasks.get? j) ∧
      (Rejected n source m (run.dialogue n e.nextTask after) →
        ∀ past later, after = past ++ .run e.nextTask :: later →
          let before := (run.steps n past).1
          Traceless e.nextTask before (before.step n (.run e.nextTask)) ∧
            (¬ m.WellFormed →
              (before.step n (.run e.nextTask)).1.keyCache = before.keyCache)) ∧
      (¬ m.WellFormed → run.dialogue n e.nextTask after = [])

/-- A request that is malformed or whose sender does not keep to its key leaves no trace, and to be well
formed is exactly to be a request that can be read. -/
theorem rejected_without_trace (n : Node) (source : Address) (m : Message) :
    ((Request.ofMessage? m).isSome ↔ m.WellFormed) ∧ WithoutTrace n source m := by
  refine ⟨Request.isSome_ofMessage?_iff, fun e => Node.alone_serve_of_rejected, ?_⟩
  intro e datagram after hheard hrequest run
  have hstep : e.step n (.receive source datagram) =
      ((e.spawn .service (silent (n.serve source m))).2, []) := by
    rw [step_receive, hheard]
    exact Prod.ext (if_pos hrequest) rfl
  have hrun : run = (e.spawn .service (silent (n.serve source m))).2 := congrArg Prod.fst hstep
  have htask : run.tasks.get? e.nextTask = some ⟨.service, none, silent (n.serve source m)⟩ := by
    rw [hrun]
    exact get?_spawn e _ _
  have hk : e.nextTask < run.nextTask := by
    rw [hrun]
    exact Nat.lt_succ_self _
  refine ⟨hstep.trans (hrun ▸ rfl), ⟨_, hrun, fun j hj => ?_⟩, ?_, fun hform => ?_⟩
  · rw [Table.get?_set, if_neg hj]
  · rintro hrejected past later rfl
    exact traceless_of_rejected hk htask hrejected
  · exact dialogue_of_malformed hk htask hform after

/-- A Hello without a signature, in the name of a peer whose key the directory has. -/
theorem unsigned_hello_without_trace :
    let key : PublicKey := Vector.replicate 64 1
    let source : Address := .v4 ⟨#v[10, 0, 0, 1], 1000⟩
    let m : Message := ⟨7, .hello, Hello.toBody ⟨0, "bob"⟩, none, by decide⟩
    let e := start Node.plain .ip4 (PeerTable.empty.setKey "bob" (some key)).directory ⟨⟨[]⟩⟩
    let run := (e.step Node.plain (.receive source m.encode)).1
    let after := List.replicate 5 (Event.run 0)
    Rejected Node.plain source m (run.dialogue Node.plain 0 after) ∧
      ∀ past later, after = past ++ .run 0 :: later →
        let before := (run.steps Node.plain past).1
        Traceless 0 before (before.step Node.plain (.run 0)) := by
  intro key source m e run after
  have hheard : heard? m.encode = some m := by decide +kernel
  have hresult : (Node.plain.checkSender source m).result? (run.dialogue Node.plain 0 after) =
      some (.error .missing) := by decide +kernel
  have hrejected : Rejected Node.plain source m (run.dialogue Node.plain 0 after) := by
    obtain ⟨found, hlooked, hverdict⟩ := Node.checkSender_after_iff.mp (after_of_result? hresult)
    exact .unlawful hlooked (Node.faulty_of_ruling hverdict.symm).not_admissible
  have hturns := (rejected_without_trace Node.plain source m).2.turns e m.encode after hheard rfl
  exact ⟨hrejected, fun past later hafter => (hturns.2.2.1 hrejected past later hafter).1⟩

end Engine
end TreeShare
