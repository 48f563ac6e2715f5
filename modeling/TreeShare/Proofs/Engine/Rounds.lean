import TreeShare.Proofs.Engine.Agreement
import TreeShare.Proofs.Engine.Resolution
import TreeShare.Proofs.Engine.Traversals

/-! Programs that go in rounds until one settles them, or until as many as they may have were in vain. Main
statements: `series_of_after`, on all programs that have this form, and `traversal_rounds`, on the rounds of
a traversal. -/
namespace TreeShare

open Proc

inductive Turnout (ρ : Type) where
  | going
  | vain
  | settled (result : ρ)

structure Round (ρ : Type) where
  log : List Asked
  turnout : Turnout ρ

section

variable {ρ : Type}

/-- Rounds in turn, and not more than a limit: each of them but the last was in vain. -/
structure Series (made : Round ρ → Prop) (limit : Nat) (rounds : List (Round ρ)) : Prop where
  made : ∀ r ∈ rounds, made r
  few : rounds.length ≤ limit
  vain : ∀ r ∈ rounds.dropLast, r.turnout = .vain

/-- What rounds come to: what the last of them has settled, or the failure if all that there may be were in
vain. -/
inductive Comes (limit : Nat) (failure : ρ) (rounds : List (Round ρ)) : ρ → Prop
  | settled {earlier : List (Round ρ)} {log : List Asked} {result : ρ}
      (last : rounds = earlier ++ [⟨log, .settled result⟩]) : Comes limit failure rounds result
  | spent (all : rounds.length = limit) (vain : ∀ r ∈ rounds, r.turnout = .vain) :
      Comes limit failure rounds failure

variable {made : Round ρ → Prop} {limit : Nat} {failure result : ρ} {rounds : List (Round ρ)}
  {log : List Asked}

theorem series_nil (made : Round ρ → Prop) : Series made 0 [] :=
  ⟨List.forall_mem_nil _, Nat.le_refl _, List.forall_mem_nil _⟩

theorem series_singleton {round : Round ρ} (h : made round) (limit : Nat) :
    Series made (limit + 1) [round] :=
  ⟨List.forall_mem_singleton.mpr h, Nat.le_add_left .., List.forall_mem_nil _⟩

theorem Series.cons_vain (h : Series made limit rounds) (hmade : made ⟨log, .vain⟩) :
    Series made (limit + 1) (⟨log, .vain⟩ :: rounds) where
  made := List.forall_mem_cons.mpr ⟨hmade, h.made⟩
  few := Nat.succ_le_succ h.few
  vain := by
    cases rounds with
    | nil => exact List.forall_mem_nil _
    | cons => exact List.forall_mem_cons.mpr ⟨rfl, h.vain⟩

@[simp] theorem comes_nil : Comes 0 failure [] result ↔ result = failure := by
  constructor
  · rintro (hlast | _)
    · simp at hlast
    · rfl
  · rintro rfl
    exact .spent rfl (List.forall_mem_nil _)

theorem not_comes_going : ¬ Comes limit failure [⟨log, .going⟩] result := by
  rintro (⟨hlast⟩ | ⟨-, hvain⟩)
  · simpa using congrArg List.getLast? hlast
  · cases hvain _ List.mem_cons_self

theorem comes_settled {found : ρ} :
    Comes limit failure [⟨log, .settled found⟩] result ↔ result = found := by
  constructor
  · rintro (⟨hlast⟩ | ⟨-, hvain⟩)
    · have h := congrArg List.getLast? hlast
      simp only [List.getLast?_singleton, List.getLast?_concat, Option.some.injEq, Round.mk.injEq,
        Turnout.settled.injEq] at h
      exact h.2.symm
    · cases hvain _ List.mem_cons_self
  · rintro rfl
    exact .settled (List.nil_append _).symm

theorem comes_cons_vain : Comes (limit + 1) failure (⟨log, .vain⟩ :: rounds) result ↔
    Comes limit failure rounds result := by
  constructor
  · rintro (@⟨earlier, last, _, hlast⟩ | ⟨hall, hvain⟩)
    · cases earlier with
      | nil => cases hlast
      | cons first earlier =>
        obtain ⟨-, rfl⟩ := List.cons.inj hlast
        exact .settled rfl
    · exact .spent (Nat.succ.inj hall) (List.forall_mem_cons.mp hvain).2
  · rintro (⟨rfl⟩ | ⟨hall, hvain⟩)
    · exact .settled (List.cons_append ..).symm
    · exact .spent (congrArg Nat.succ hall) (List.forall_mem_cons.mpr ⟨rfl, hvain⟩)

theorem Series.of_comes (h : Series made limit rounds) (hcomes : Comes limit failure rounds result) :
    (∃ log, made ⟨log, .settled result⟩) ∨
      result = failure ∧ rounds.length = limit ∧ ∀ r ∈ rounds, r.turnout = .vain := by
  cases hcomes with
  | @settled earlier log _ last =>
    exact .inl ⟨log, h.made _ (last ▸ List.mem_append_right _ List.mem_cons_self)⟩
  | spent all vain => exact .inr ⟨rfl, all, vain⟩

inductive RoundsOn (made : Round ρ → Prop) (program : Proc ρ) (log : List Asked) (q : Proc ρ) : Prop
  | going (made : made ⟨log, .going⟩) (waits : q.value? = none)
  | settled {result : ρ} (made : made ⟨log, .settled result⟩) (done : q = .done result)
  | vain {first rest : List Asked} (made : made ⟨first, .vain⟩) (split : log = first ++ rest)
      (later : program.After rest q)

/-- A program that goes in rounds, up to any moment. -/
theorem series_of_after (program : Nat → Proc ρ) (hzero : program 0 = .done failure)
    (hround : ∀ count log q, (program (count + 1)).After log q → RoundsOn made (program count) log q)
    {q : Proc ρ} (h : (program limit).After log q) :
    ∃ rounds, Series made limit rounds ∧ log = rounds.flatMap Round.log ∧
      ∀ result, q.value? = some result ↔ Comes limit failure rounds result := by
  induction limit generalizing log with
  | zero =>
    rw [hzero] at h
    obtain ⟨rfl, rfl⟩ := after_done_iff.mp h
    refine ⟨[], series_nil made, rfl, fun result => ?_⟩
    rw [comes_nil]
    exact Option.some_inj.trans eq_comm
  | succ limit ih =>
    cases hround limit log q h with
    | going made waits =>
      refine ⟨[⟨log, .going⟩], series_singleton made limit, (List.append_nil _).symm, fun result => ?_⟩
      rw [waits]
      exact iff_of_false nofun not_comes_going
    | @settled found made done =>
      refine ⟨[⟨log, .settled found⟩], series_singleton made limit, (List.append_nil _).symm,
        fun result => ?_⟩
      rw [done, comes_settled]
      exact Option.some_inj.trans eq_comm
    | @vain first rest made split later =>
      obtain ⟨rounds, hseries, rfl, hcomes⟩ := ih later
      refine ⟨⟨first, .vain⟩ :: rounds, hseries.cons_vain made, split, fun result => ?_⟩
      rw [hcomes, comes_cons_vain]

end

/-! Rounds of a traversal. -/

/-- The node has looked up where the server is, and has then sent a datagram to each of these addresses, in
their order and whatever became of it. -/
inductive Summoned (n : Node) (datagram : Bytes) : List Asked → Prop
  | mk {looking sending : List Asked} {servers : List Address}
      (found : n.serverAddresses.After looking (.done servers))
      (sent : sending.map Asked.op = servers.map (.transmit · datagram)) :
      Summoned n datagram (looking ++ sending)

/-- A round of a traversal: the server is summoned, the target is greeted, and if that fails hard, the book
is looked into. A soft failure settles the matter whatever the book has. -/
inductive TraversalRound (n : Node) (peer : String) (target : Address) (datagram : Bytes) :
    Round (Except RequestError Unit) → Prop
  | looking {log : List Asked} {op : Op} {next : op.Answer → Proc (List Address)}
      (path : n.serverAddresses.After log (.ask op next)) :
      TraversalRound n peer target datagram ⟨log, .going⟩
  | summoning {looking sending : List Asked} {servers : List Address}
      (found : n.serverAddresses.After looking (.done servers))
      (sent : sending.map Asked.op <+: servers.map (.transmit · datagram))
      (left : sending.length < servers.length) :
      TraversalRound n peer target datagram ⟨looking ++ sending, .going⟩
  | greeting {summons log : List Asked} {op : Op} {next : op.Answer → Proc (Except RequestError String)}
      (summoned : Summoned n datagram summons) (path : (n.greet target).run.After log (.ask op next)) :
      TraversalRound n peer target datagram ⟨summons ++ log, .going⟩
  | answered {summons log : List Asked} {name : String} (summoned : Summoned n datagram summons)
      (path : (n.greet target).run.After log (.done (.ok name))) :
      TraversalRound n peer target datagram ⟨summons ++ log, .settled (.ok ())⟩
  | soft {summons log : List Asked} {cause : RequestError} (summoned : Summoned n datagram summons)
      (path : (n.greet target).run.After log (.done (.error cause))) (soft : cause.isSoft = true) :
      TraversalRound n peer target datagram ⟨summons ++ log, .settled (.error cause)⟩
  | struck {summons log : List Asked} {cause : RequestError} (summoned : Summoned n datagram summons)
      (path : (n.greet target).run.After log (.done (.error cause))) (hard : cause.isSoft = false) :
      TraversalRound n peer target datagram ⟨summons ++ log, .going⟩
  | present {summons log : List Asked} {cause : RequestError} (summoned : Summoned n datagram summons)
      (path : (n.greet target).run.After log (.done (.error cause))) (hard : cause.isSoft = false) :
      TraversalRound n peer target datagram
        ⟨summons ++ (log ++ [⟨.inBook peer target, true⟩]), .settled (.ok ())⟩
  | absent {summons log : List Asked} {cause : RequestError} (summoned : Summoned n datagram summons)
      (path : (n.greet target).run.After log (.done (.error cause))) (hard : cause.isSoft = false) :
      TraversalRound n peer target datagram
        ⟨summons ++ (log ++ [⟨.inBook peer target, false⟩]), .vain⟩

/-- A whole traversal so far. An IPv6 target is given up at once; for an IPv4 one an id is drawn, and all
rounds send the request that has this id. -/
inductive Traversed (n : Node) (peer : String) (target : Address) :
    List Asked → List (Round (Except RequestError Unit)) → Option (Except RequestError Unit) → Prop
  | unfit (six : target.isV4 = false) :
      Traversed n peer target [] [] (some (.error (.unreachable peer)))
  | unbegun (four : target.isV4 = true) : Traversed n peer target [] [] none
  | begun {endpoint : Endpoint} {id : UInt32} {rounds : List (Round (Except RequestError Unit))}
      {result : Option (Except RequestError Unit)} (four : target = .v4 endpoint)
      (series : Series (TraversalRound n peer target
        (Message.ofEndpoint id .natTraversalRequest endpoint).encode)
        n.settings.traversalRounds.toNat rounds)
      (comes : ∀ r, result = some r ↔
        Comes n.settings.traversalRounds.toNat (.error (.unreachable peer)) rounds r) :
      Traversed n peer target (⟨.drawId, id⟩ :: rounds.flatMap Round.log) rounds result

namespace Node

variable {n : Node} {peer : String} {target : Address} {log : List Asked}

theorem sendToAll_after {datagram : Bytes} {servers : List Address} {q : Proc Unit}
    (h : (sendToAll datagram servers).After log q) :
    q.value? = none ∧ log.map Asked.op <+: servers.map (.transmit · datagram) ∧
        log.length < servers.length ∨
      q = .done () ∧ log.map Asked.op = servers.map (.transmit · datagram) := by
  induction servers generalizing log with
  | nil =>
    obtain ⟨rfl, rfl⟩ := after_done_iff.mp h
    exact .inr ⟨rfl, rfl⟩
  | cons a rest ih =>
    rcases h with _ | @⟨_, _, sent, later, _, h⟩
    · exact .inl ⟨rfl, List.nil_prefix, Nat.succ_pos _⟩
    · rcases ih h with ⟨hwaits, hsent, hleft⟩ | ⟨hdone, hsent⟩
      · exact .inl ⟨hwaits, List.cons_prefix_cons.mpr ⟨rfl, hsent⟩, Nat.succ_lt_succ hleft⟩
      · exact .inr ⟨hdone, List.cons_eq_cons.mpr ⟨rfl, hsent⟩⟩

theorem traverseRounds_after {request : Message} {count : Nat} {q : Proc (Except RequestError Unit)}
    (h : (n.traverseRounds peer target request (count + 1)).run.After log q) :
    RoundsOn (TraversalRound n peer target request.encode)
      (n.traverseRounds peer target request count).run log q := by
  unfold traverseRounds at h
  rw [run_liftM_bind] at h
  rcases after_bind h with ⟨op, next, hlooking, rfl⟩ | ⟨looking, servers, log, rfl, hfound, h⟩
  · exact .going (.looking hlooking) rfl
  rw [run_liftM_bind] at h
  rcases after_bind h with ⟨op, next, hsending, rfl⟩ | ⟨sending, _, log, rfl, hsent, h⟩
  · rcases sendToAll_after hsending with ⟨-, hsent, hleft⟩ | ⟨hdone, -⟩
    · exact .going (.summoning hfound hsent hleft) rfl
    · cases hdone
  have hsummoned : Summoned n request.encode (looking ++ sending) := by
    rcases sendToAll_after hsent with ⟨hwaits, -⟩ | ⟨-, hsent⟩
    · cases hwaits
    · exact .mk hfound hsent
  rw [run_outcome_bind] at h
  rw [← List.append_assoc]
  rcases after_bind h with ⟨op, next, hgreeting, rfl⟩ | ⟨greeting, r, log, rfl, hgreeted, h⟩
  · exact .going (.greeting hsummoned hgreeting) rfl
  cases r with
  | ok name =>
    obtain ⟨rfl, rfl⟩ := after_done_iff.mp h
    rw [List.append_nil]
    exact .settled (.answered hsummoned hgreeted) rfl
  | error cause =>
    dsimp only at h
    cases hcause : cause.isSoft with
    | true =>
      rw [hcause, if_pos rfl] at h
      obtain ⟨rfl, rfl⟩ := after_done_iff.mp h
      rw [List.append_nil]
      exact .settled (.soft hsummoned hgreeted hcause) rfl
    | false =>
      rw [hcause, if_neg Bool.false_ne_true] at h
      rcases h with _ | @⟨_, _, found, log, _, h⟩
      · rw [List.append_nil]
        exact .going (.struck hsummoned hgreeted hcause) rfl
      · cases found with
        | true =>
          obtain ⟨rfl, rfl⟩ := after_done_iff.mp h
          exact .settled (.present hsummoned hgreeted hcause) rfl
        | false =>
          refine .vain (.absent hsummoned hgreeted hcause) ?_ h
          simp only [List.append_assoc, List.singleton_append]

theorem traversed_of_after {q : Proc (Except RequestError Unit)}
    (h : (n.traverse peer target).run.After log q) :
    ∃ rounds, Traversed n peer target log rounds q.value? := by
  cases target with
  | v6 =>
    obtain ⟨rfl, rfl⟩ := after_done_iff.mp h
    exact ⟨[], .unfit rfl⟩
  | v4 endpoint =>
    rcases h with _ | @⟨_, _, id, log, _, h⟩
    · exact ⟨[], .unbegun rfl⟩
    · let request := Message.ofEndpoint id .natTraversalRequest endpoint
      let rounds (count : Nat) := (n.traverseRounds peer (.v4 endpoint) request count).run
      have h : (rounds n.settings.traversalRounds.toNat).After log q := h
      obtain ⟨rounds, hseries, rfl, hcomes⟩ :=
        series_of_after rounds rfl (fun _ _ _ => traverseRounds_after) h
      exact ⟨rounds, .begun rfl hseries hcomes⟩

end Node

section

variable {n : Node} {peer : String} {target : Address} {log : List Asked}
  {rounds : List (Round (Except RequestError Unit))} {result : Option (Except RequestError Unit)}

theorem TraversalRound.soft_of_settled {datagram : Bytes} {cause : RequestError}
    (h : TraversalRound n peer target datagram ⟨log, .settled (.error cause)⟩) :
    cause.isSoft = true := by
  cases h
  assumption

theorem Traversed.spent {p : String}
    (h : Traversed n peer target log rounds (some (.error (.unreachable p)))) :
    p = peer ∧ (target.isV4 = true →
      rounds.length = n.settings.traversalRounds.toNat ∧ ∀ r ∈ rounds, r.turnout = .vain) := by
  cases h with
  | unfit six => exact ⟨rfl, fun four => absurd four (by simp [six])⟩
  | begun four series comes =>
    rcases series.of_comes ((comes _).mp rfl) with ⟨log, hround⟩ | ⟨hfailure, hspent⟩
    · cases hround.soft_of_settled
    · cases hfailure
      exact ⟨rfl, fun _ => hspent⟩

theorem Traversed.silent (h : Traversed n peer target log rounds result)
    (hnone : n.settings.traversalRounds.toNat = 0 ∨ target.isV4 = false) :
    transmissions log = [] := by
  cases h with
  | unfit | unbegun => rfl
  | begun four series =>
    rcases hnone with hzero | hsix
    · have hfew := series.few
      rw [hzero] at hfew
      rw [List.eq_nil_of_length_eq_zero (Nat.le_zero.mp hfew)]
      rfl
    · rw [four] at hsix
      contradiction

end

namespace Engine

/-- A traversal towards a target, up to any moment, with any budget of rounds and whatever the directory, the
server and the target do. What it has done is told in rounds, and it ends with what these come to; it gives
up only after as many rounds in vain as its budget has. Without a budget, or towards an IPv6 address, it
sends nothing. The network decides what becomes of each datagram, and the book was looked into, each as it
was then. -/
theorem traversal_rounds (n : Node) (e : Engine) (peer : String) (target : Address)
    (after : List Event) :
    let k := e.nextTask
    let call : Event := .call (.traverse peer target)
    let log := e.dialogue n k (call :: after)
    let limit := n.settings.traversalRounds.toNat
    ∃ rounds result, Traversed n peer target log rounds result ∧
      (∀ o, .ended k o ∈ (e.steps n (call :: after)).2 →
        ∃ r, result = some r ∧ o = .of (fun _ => .done) r) ∧
      (∀ r, result = some r → .abort k ∉ after →
        .ended k (.of (fun _ => .done) r) ∈ (e.steps n (call :: (after ++ [.run k]))).2) ∧
      (∀ p, result = some (.error (.unreachable p)) → p = peer ∧ (target.isV4 = true →
        rounds.length = limit ∧ ∀ r ∈ rounds, r.turnout = .vain)) ∧
      (limit = 0 ∨ target.isV4 = false → transmissions log = []) ∧
      (∀ before a datagram sent rest, log = before ++ ⟨.transmit a datagram, sent⟩ :: rest →
        ∃ past later, after = past ++ .run k :: later ∧ e.dialogue n k (call :: past) = before ∧
          (e.steps n (call :: past)).1.network.carries a datagram = sent) ∧
      ∀ before found rest, log = before ++ ⟨.inBook peer target, found⟩ :: rest →
        ∃ past later, after = past ++ .run k :: later ∧ e.dialogue n k (call :: past) = before ∧
          (e.steps n (call :: past)).1.book.contains peer target = found := by
  intro k call log limit
  obtain ⟨q, hpath, hended, hends⟩ := call_fate n e (.traverse peer target) after
  obtain ⟨traversal, htraversal, rfl⟩ := after_map hpath
  obtain ⟨rounds, htraversed⟩ := Node.traversed_of_after htraversal
  refine ⟨rounds, traversal.value?, htraversed, fun o ho => ?_, fun r hr hno => ?_, fun p hp => ?_,
    htraversed.silent, fun before a datagram sent rest hlog => ?_, fun before found rest hlog => ?_⟩
  · have hdone := hended o ho
    cases traversal with
    | ask op next => cases hdone
    | done r =>
      cases hdone
      exact ⟨r, rfl, rfl⟩
  · cases traversal with
    | ask op next => cases hr
    | done r' =>
      cases hr
      exact hends _ rfl hno
  · rw [hp] at htraversed
    exact htraversed.spent
  · obtain ⟨past, later, hevents, hbefore, hasked⟩ := exists_of_dialogue_eq hlog
    obtain ⟨past, rfl, rfl⟩ := call_cons_of_eq hevents
    exact ⟨past, later, rfl, hbefore, (carries_of_asked hasked).symm⟩
  · obtain ⟨past, later, hevents, hbefore, hasked⟩ := exists_of_dialogue_eq hlog
    obtain ⟨past, rfl, rfl⟩ := call_cons_of_eq hevents
    exact ⟨past, later, rfl, hbefore, contains_of_inBook hasked⟩

/-- Two rounds towards a silent target. The directory lists the server at one address and then at two others,
of which only one is an IPv4 address. -/
theorem traversal_rounds_of_silent_target :
    let n : Node := { Node.plain with settings := { Node.plain.settings with traversalRounds := 2 } }
    let target : Address := .v4 ⟨#v[10, 0, 0, 1], 1000⟩
    let first : Address := .v4 ⟨#v[10, 0, 0, 2], 1000⟩
    let second : Address := .v4 ⟨#v[10, 0, 0, 3], 1000⟩
    let six : Address := .v6 (Vector.replicate 8 0) 1000 0
    let listing (as : List Address) : Directory := (PeerTable.empty.setAddresses "server" as).directory
    let e := start n .ip4 (listing [first]) ⟨⟨[]⟩⟩
    let runs : List Event := List.replicate 12 (.run 0)
    let silence : List Event := .pass 100 100 :: runs
    let after := runs ++ .directory (listing [six, second]) :: silence ++ silence ++ silence ++ silence
    let log := e.dialogue n 0 (.call (.traverse "bob" target) :: after)
    .ended 0 (.failed (.unreachable "bob")) ∈
        (e.steps n (.call (.traverse "bob" target) :: after)).2 ∧
      (transmissions log).map Prod.fst = [first, target, target, second, target, target] ∧
      ∃ rounds, Traversed n "bob" target log rounds (some (.error (.unreachable "bob"))) ∧
        rounds.length = 2 ∧ ∀ r ∈ rounds, r.turnout = .vain := by
  intro n target first second six listing e runs silence after log
  have hended : .ended 0 (.failed (.unreachable "bob")) ∈
      (e.steps n (.call (.traverse "bob" target) :: after)).2 := by decide +kernel
  refine ⟨hended, by decide +kernel, ?_⟩
  obtain ⟨rounds, result, htraversed, hresult, -, hspent, -⟩ := traversal_rounds n e "bob" target after
  obtain ⟨r, rfl, hr⟩ := hresult _ hended
  rcases r with cause | ok <;> cases hr
  exact ⟨rounds, htraversed, (hspent "bob" rfl).2 rfl⟩

end Engine

end TreeShare
