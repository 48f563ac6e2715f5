import Mathlib.Algebra.BigOperators.Group.Finset.Piecewise
import TreeShare.Proofs.Engine.Errands
import TreeShare.Proofs.Engine.Exchanges

/-! How much an engine sends that only answers what it receives. Main statement: `emission_budget`. -/
namespace TreeShare

open Proc

/-- How often a request is sent at most. If that does not fit its type it is never sent. -/
def Node.tries (n : Node) : Nat := n.settings.attempts.toOption.getD 0

def Node.punchCost (n : Node) : Nat := n.settings.traversalRounds.toNat * n.tries

/-- What a question may cost, in datagrams; a punch is paid for when it begins. -/
def Op.cost (n : Node) : Op → Nat
  | transmit .. => 1
  | beginPunch _ => n.punchCost
  | _ => 0

/-- How many datagrams a message may be worth. A notice is worth a punch if it came from the server. -/
def Node.allowance (n : Node) (source : Address) (m : Message) (fromServer : Bool) : Nat :=
  match m.type with
  | .hello | .publicKey | .root | .getDatum => 1
  | .natTraversalRequest => if n.settings.relayTraversal && source.isV4 then 1 else 0
  | .natTraversal => if fromServer then n.punchCost else 0
  | _ => 0

/-- A program spends no more than it has, whatever it is told that it can be told. -/
def Proc.Spends {α : Type} (n : Node) (possible : Asked → Prop) : Proc α → (left : Nat) → Prop
  | .done _, _ => True
  | .ask op next, left =>
    op.cost n ≤ left ∧ ∀ answer, possible ⟨op, answer⟩ →
      (next answer).Spends n possible (left - op.cost n)

section

variable {α β : Type} {n : Node} {possible possible' : Asked → Prop} {left more : Nat}

namespace Proc

theorem Spends.mono (hle : left ≤ more) {p : Proc α} (h : p.Spends n possible left) :
    p.Spends n possible more := by
  induction p generalizing left more with
  | done => exact trivial
  | ask op next ih =>
    refine ⟨Nat.le_trans h.1 hle, fun answer hanswer => ?_⟩
    exact ih answer (Nat.sub_le_sub_right hle _) (h.2 answer hanswer)

theorem Spends.imp (himp : ∀ asked, possible' asked → possible asked) {p : Proc α}
    (h : p.Spends n possible left) : p.Spends n possible' left := by
  induction p generalizing left with
  | done => exact trivial
  | ask op next ih => exact ⟨h.1, fun answer hanswer => ih answer (h.2 answer (himp _ hanswer))⟩

theorem Spends.bind {p : Proc α} (hp : p.Spends n possible left) {f : α → Proc β}
    (hf : ∀ a, (f a).Spends n possible more) {total : Nat} (htotal : left + more ≤ total) :
    (p.bind f).Spends n possible total := by
  induction p generalizing left total with
  | done a => exact (hf a).mono (by omega)
  | ask op next ih =>
    obtain ⟨hcost, hnext⟩ := hp
    refine ⟨by omega, fun answer hanswer => ih answer (hnext answer hanswer) ?_⟩
    omega

theorem Within.spends {kind : Op → Prop} (hkind : ∀ op, kind op → op.cost n = 0) {count : Nat}
    {p : Proc α} (h : p.Within kind count) : p.Spends n possible 0 := by
  induction p generalizing count with
  | done => exact trivial
  | ask op next ih =>
    cases count with
    | zero => exact h.elim
    | succ count =>
      have hcost := hkind op h.1
      refine ⟨Nat.le_of_eq hcost, fun answer _ => ?_⟩
      rw [hcost]
      exact ih answer (h.2 answer)

end Proc

namespace Attempt

theorem spends_bind {x : Attempt α} (hx : x.run.Spends n possible left) {f : α → Attempt β}
    (hf : ∀ a, (f a).run.Spends n possible more) {total : Nat} (htotal : left + more ≤ total) :
    (x >>= f).run.Spends n possible total := by
  refine Proc.Spends.bind hx (fun r => ?_) htotal
  cases r with
  | ok a => exact hf a
  | error e => exact trivial

theorem spends_ofExcept (r : Except RequestError α) :
    (ofExcept r).run.Spends n possible 0 := trivial

end Attempt

/-! What the programs cost that receiving can start. -/

namespace Node

theorem cost_of_lookup (op : Op) (h : op.IsLookup) : op.cost n = 0 := by
  cases op <;> first | rfl | exact h.elim

theorem checkSender_spends (source : Address) (m : Message) :
    (n.checkSender source m).Spends n possible 0 :=
  (checkSender_within n source m).spends cost_of_lookup

theorem sendUpTo_spends (a : Address) (m : Message) (attempts count : Nat) (t : Ticket) :
    (n.sendUpTo a m attempts count t).run.Spends n possible count := by
  induction count generalizing t with
  | zero => exact ⟨Nat.zero_le _, fun _ _ => trivial⟩
  | succ count ih =>
    refine ⟨Nat.le_add_left _ _, fun sent _ => ?_⟩
    cases sent with
    | false => exact ⟨Nat.zero_le _, fun _ _ => trivial⟩
    | true =>
      refine ⟨Nat.zero_le _, fun start _ => ⟨Nat.zero_le _, fun wait _ => ?_⟩⟩
      cases wait with
      | reply r =>
        exact ((validate_within n a m r).spends cost_of_lookup).mono (Nat.zero_le _)
      | swept => exact ⟨Nat.zero_le _, fun u _ => ih u⟩
      | silence => exact ih t

theorem exchange_spends (a : Address) (m : Message) :
    (n.exchange a m).run.Spends n possible n.tries := by
  unfold exchange tries
  dsimp only
  cases n.settings.attempts with
  | error cause => exact ⟨Nat.le_refl _, fun answer _ => answer.elim⟩
  | ok attempts => exact ⟨Nat.zero_le _, fun t _ => sendUpTo_spends a (n.prepare m) attempts attempts t⟩

theorem greet_spends (a : Address) : (n.greet a).run.Spends n possible n.tries := by
  refine ⟨Nat.zero_le _, fun id _ => ?_⟩
  refine Attempt.spends_bind (Attempt.spends_ofExcept _) (fun m => ?_) (Nat.zero_add _).le
  refine Attempt.spends_bind (exchange_spends a m) (fun reply => ?_) (Nat.add_zero _).le
  refine Attempt.spends_bind (Attempt.spends_ofExcept _) (fun hello => ?_) (Nat.zero_add 0).le
  exact ⟨Nat.zero_le _, fun _ _ => trivial⟩

theorem punchRounds_spends (initiator : Address) (rounds : Nat) :
    (n.punchRounds initiator rounds).Spends n possible (rounds * n.tries) := by
  induction rounds with
  | zero => exact trivial
  | succ rounds ih =>
    have htotal : n.tries + rounds * n.tries ≤ (rounds + 1) * n.tries := by
      rw [Nat.succ_mul, Nat.add_comm]
    refine (greet_spends initiator).bind (fun r => ?_) htotal
    cases r with
    | ok name => exact trivial
    | error e =>
      dsimp only
      split
      · exact trivial
      · exact ih

theorem post_spends (target : Address) (m : Message) : (n.post target m).Spends n possible 1 :=
  ⟨Nat.le_refl _, fun _ _ => trivial⟩

theorem relayTo_spends (source : Address) (target : Endpoint) :
    (n.relayTo source target).Spends n possible
      (if n.settings.relayTraversal && source.isV4 then 1 else 0) := by
  cases source with
  | v4 e =>
    unfold relayTo
    dsimp only
    split
    · rename_i hrelay
      rw [if_pos (by simp [hrelay, Address.isV4, Address.endpoint?])]
      exact ⟨Nat.zero_le _, fun id _ => ⟨Nat.le_refl _, fun _ _ => trivial⟩⟩
    · exact trivial
  | v6 => exact trivial

end Node

def Request.type : Request → MessageType
  | noOp => .noOp
  | error => .error
  | hello _ => .hello
  | publicKey => .publicKey
  | root => .root
  | datum _ => .getDatum
  | relay _ => .natTraversalRequest
  | punch _ => .natTraversal

theorem Request.type_of_ofMessage? {m : Message} {r : Request} (h : ofMessage? m = some r) :
    m.type = r.type := by
  unfold ofMessage? at h
  cases htype : m.type <;> simp only [htype] at h
  case root =>
    split at h <;> cases h
    rfl
  all_goals
    first
    | contradiction
    | (cases h; rfl)
    | (obtain ⟨x, -, rfl⟩ := Option.map_eq_some_iff.mp h; rfl)

def Asked.SaysServer (n : Node) (a : Address) : Asked → Prop
  | ⟨.inBook peer b, known⟩ => peer = n.settings.serverName ∧ b = a ∧ known = true
  | ⟨.findAddresses peer, found⟩ =>
    peer = n.settings.serverName ∧ ∃ listed, found = .ok listed ∧ a ∈ listed.filter Address.isV4
  | ⟨.knownAddresses peer, known⟩ => peer = n.settings.serverName ∧ a ∈ known
  | _ => False

namespace Node

theorem isServer_bind_spends {a : Address} {f : Bool → Proc β}
    (hyes : (∃ asked, possible asked ∧ asked.SaysServer n a) → (f true).Spends n possible left)
    (hno : (f false).Spends n possible left) : ((n.isServer a).bind f).Spends n possible left := by
  have hsame (servers : List Address)
      (hserver : a ∈ servers → ∃ asked, possible asked ∧ asked.SaysServer n a) :
      (f (servers.contains a)).Spends n possible left := by
    cases hcontains : servers.contains a with
    | true => exact hyes (hserver (List.contains_iff_mem.mp hcontains))
    | false => exact hno
  refine ⟨Nat.zero_le _, fun known hknown => ?_⟩
  cases known with
  | true => exact hyes ⟨_, hknown, rfl, rfl, rfl⟩
  | false =>
    refine ⟨Nat.zero_le _, fun found hfound => ?_⟩
    cases found with
    | ok listed => exact hsame (listed.filter Address.isV4) fun ha => ⟨_, hfound, rfl, listed, rfl, ha⟩
    | error e =>
      refine ⟨Nat.zero_le _, fun servers hservers => ?_⟩
      exact hsame servers fun ha => ⟨_, hservers, rfl, ha⟩

theorem answer_spends {source : Address} {m : Message} {fromServer : Bool} {r : Request}
    (hserver : ∀ asked, possible asked → asked.SaysServer n source → fromServer = true)
    (hr : Request.ofMessage? m = some r) :
    (n.answer source m.id r).Spends n possible (n.allowance source m fromServer) := by
  have htype := Request.type_of_ofMessage? hr
  unfold allowance
  cases r with
  | noOp => exact trivial
  | error => exact trivial
  | hello h =>
    rw [htype]
    refine ⟨Nat.zero_le _, fun _ _ => ?_⟩
    dsimp only [Proc.bind]
    split
    · exact post_spends source _
    · exact trivial
  | publicKey =>
    rw [htype]
    exact post_spends source _
  | root =>
    rw [htype]
    exact ⟨Nat.zero_le _, fun root _ => post_spends source _⟩
  | datum hash =>
    rw [htype]
    refine ⟨Nat.zero_le _, fun served _ => ?_⟩
    rcases served with _ | _ | reply <;> exact post_spends source _
  | relay target =>
    rw [htype]
    exact relayTo_spends source target
  | punch initiator =>
    rw [htype]
    apply isServer_bind_spends
    · rintro ⟨asked, hpossible, hstates⟩
      rw [hserver asked hpossible hstates]
      exact ⟨Nat.le_refl _, fun _ _ => trivial⟩
    · exact trivial

theorem serve_spends {source : Address} {m : Message} {fromServer : Bool}
    (hserver : ∀ asked, possible asked → asked.SaysServer n source → fromServer = true) :
    (n.serve source m).Spends n possible (n.allowance source m fromServer) := by
  unfold serve
  cases hr : Request.ofMessage? m with
  | none => exact trivial
  | some r =>
    refine (checkSender_spends source m).bind (fun verdict => ?_) (Nat.zero_add _).le
    cases verdict with
    | ok => exact answer_spends hserver hr
    | error cause => exact trivial

end Node

theorem spends_silent {p : Proc Unit} (h : p.Spends n possible left) :
    (Engine.silent p).Spends n possible left := by
  have hdone : ∀ _ : Unit, (Proc.done Outcome.done).Spends n possible 0 := fun _ => trivial
  exact Proc.Spends.bind h hdone (Nat.add_zero _).le

end
def Record.isSent : Record → Bool
  | sent .. => true
  | ended .. => false

/-- No call is made, and the server is not greeted at intervals. -/
def Event.IsPassive : Event → Prop
  | call _ | keepAlive => False
  | _ => True

instance : DecidablePred Event.IsPassive
  | .call _ | .keepAlive => isFalse id
  | .receive .. | .abort _ | .run _ | .sweep | .pass .. | .network _ | .directory _ | .disk _
  | .exportPath _ | .register .. | .evict .. => isTrue trivial

namespace Engine

/-- For the moment an address is the server's: the book has it, or the directory lists it for IPv4. -/
def listsServer (n : Node) (e : Engine) (a : Address) : Bool :=
  e.book.contains n.settings.serverName a ||
    match e.directory.addresses n.settings.serverName with
    | .ok listed => (listed.filter Address.isV4).contains a
    | .error _ => false

def fromServer (n : Node) (k : Nat) (source : Address) (e : Engine) : List Event → Bool
  | [] => false
  | event :: events =>
    ((e.turnOf n k event).isSome && e.listsServer n source) ||
      fromServer n k source (e.step n event).1 events

/-- What an event is worth in a run that goes on with others. A message that is heard gets the next task. -/
def worth (n : Node) (e : Engine) (event : Event) (later : List Event) : Nat :=
  match event with
  | .receive source datagram =>
    match heard? datagram with
    | some m => n.allowance source m ((e.step n event).1.fromServer n e.nextTask source later)
    | none => 0
  | _ => 0

theorem worth_receive {n : Node} {e : Engine} {source : Address} {datagram : Bytes} {m : Message}
    (hm : heard? datagram = some m) (later : List Event) :
    e.worth n (.receive source datagram) later = n.allowance source m
      ((e.step n (.receive source datagram)).1.fromServer n e.nextTask source later) := by
  unfold worth
  dsimp only
  rw [hm]

def budget (n : Node) (e : Engine) : List Event → Nat
  | [] => 0
  | event :: events => e.worth n event events + budget n (e.step n event).1 events

/-- A task can pay for all that it will send, if it is told that an address is the server's only when it is. -/
def Pays (n : Node) (e : Engine) (events : List Event) (k left : Nat) (t : Task) : Prop :=
  (∀ next, t.duty ≠ .keepAlive next) ∧ ∃ source, t.program.Spends n (fun asked =>
    asked.SaysServer n source → e.fromServer n k source events = true) left

/-- All tasks can pay, each from its own purse. -/
structure Paid (n : Node) (e : Engine) (events : List Event) (purse : Nat → Nat) : Prop where
  numbered : Numbered e
  tasks : ∀ k t, e.tasks.get? k = some t → Pays n e events k (purse k) t

def total (e : Engine) (purse : Nat → Nat) : Nat := ∑ k ∈ Finset.range e.nextTask, purse k

def sentCount (records : List Record) : Nat := records.countP Record.isSent

variable {n : Node} {e e' : Engine} {event : Event} {events : List Event} {k left : Nat} {t : Task}
  {purse : Nat → Nat}

theorem fromServer_cons {source : Address}
    (h : (e.step n event).1.fromServer n k source events = true) :
    e.fromServer n k source (event :: events) = true := by
  rw [fromServer, h, Bool.or_true]

theorem listsServer_of_says {op : Op} {answer : op.Answer} {records : List Record} {a : Address}
    (hanswer : e.perform n op = some (answer, e', records)) (h : Asked.SaysServer n a ⟨op, answer⟩) :
    e.listsServer n a = true := by
  unfold listsServer
  cases op <;> try exact h.elim
  case inBook peer b =>
    cases hanswer
    obtain ⟨rfl, rfl, hknown⟩ := h
    rw [hknown, Bool.true_or]
  case knownAddresses peer =>
    cases hanswer
    obtain ⟨rfl, hmem⟩ := h
    unfold PeerBook.contains
    rw [decide_eq_true hmem, Bool.true_or]
  case findAddresses peer =>
    cases hanswer
    obtain ⟨rfl, listed, hlisted, hmem⟩ := h
    rw [hlisted]
    simp only [List.contains_iff_mem.mpr hmem, Bool.or_true]

theorem Pays.later (h : Pays n e (event :: events) k left t) :
    Pays n (e.step n event).1 events k left t :=
  ⟨h.1, h.2.imp fun _ hspends => hspends.imp fun _ hstates hserver => fromServer_cons (hstates hserver)⟩

theorem Pays.answered {duty : Duty} {ticket ticket' : Option Ticket} {op : Op}
    {next : op.Answer → Proc Outcome} {answer : op.Answer} {records : List Record}
    (h : Pays n e (.run k :: events) k left ⟨duty, ticket, .ask op next⟩)
    (htask : e.tasks.get? k = some ⟨duty, ticket, .ask op next⟩)
    (hanswer : e.perform n op = some (answer, e', records)) :
    op.cost n ≤ left ∧
      Pays n (e.step n (.run k)).1 events k (left - op.cost n) ⟨duty, ticket', next answer⟩ := by
  obtain ⟨hduty, source, hcost, hnext⟩ := h
  refine ⟨hcost, hduty, source, (hnext answer fun hstates => ?_).imp fun _ hlater hserver => ?_⟩
  · rw [fromServer, turnOf_of_answer htask hanswer, listsServer_of_says hanswer hstates]
    rfl
  · exact fromServer_cons (hlater hserver)

theorem spent_perform {op : Op} {answer : op.Answer} {records : List Record}
    (hanswer : e.perform n op = some (answer, e', records)) :
    (e'.nextTask = e.nextTask ∧ sentCount records ≤ op.cost n) ∨
      (e'.nextTask = e.nextTask + 1 ∧ sentCount records = 0 ∧ op.cost n = n.punchCost) := by
  have hafter := eq_afterOp_of_perform hanswer
  cases op
  case transmit target datagram =>
    unfold perform at hanswer
    dsimp only at hanswer
    split at hanswer <;> cases hanswer
    · exact .inl ⟨rfl, Nat.le_refl 1⟩
    · exact .inl ⟨rfl, Nat.zero_le 1⟩
  case beginPunch a =>
    cases hanswer
    unfold Engine.beginPunch
    split
    · exact .inl ⟨rfl, Nat.zero_le _⟩
    · exact .inr ⟨rfl, rfl, rfl⟩
  case awaitReply t deadline =>
    obtain ⟨x, -, hx⟩ := Option.map_eq_some_iff.mp hanswer
    cases hx
    exact .inl ⟨rfl, Nat.zero_le _⟩
  case awaitTime due =>
    unfold perform at hanswer
    dsimp only at hanswer
    split at hanswer <;> cases hanswer
    exact .inl ⟨rfl, Nat.zero_le _⟩
  case halt => cases hanswer
  all_goals
    cases hanswer
    exact .inl ⟨rfl, Nat.zero_le _⟩

theorem sum_update_le {purse : Nat → Nat} {count rest spent : Nat} (hk : k < count)
    (hle : rest + spent ≤ purse k) :
    ∑ j ∈ Finset.range count, Function.update purse k rest j + spent ≤
      ∑ j ∈ Finset.range count, purse j := by
  have hmem := Finset.mem_range.mpr hk
  rw [Finset.sum_update_of_mem hmem, Finset.sum_eq_add_sum_sdiff_singleton_of_mem hmem purse]
  omega

theorem sum_update_new (purse : Nat → Nat) (count new : Nat) :
    ∑ j ∈ Finset.range (count + 1), Function.update purse count new j =
      ∑ j ∈ Finset.range count, purse j + new := by
  rw [Finset.sum_range_succ, Function.update_self]
  congr 1
  apply Finset.sum_congr rfl
  intro j hj
  rw [Function.update_of_ne (Nat.ne_of_lt (Finset.mem_range.mp hj))]

theorem Paid.fewer (h : Paid n e (event :: events) purse)
    (htasks : ∀ k t, (e.step n event).1.tasks.get? k = some t → e.tasks.get? k = some t) :
    Paid n (e.step n event).1 events purse :=
  ⟨h.numbered.step event, fun k t ht => (h.tasks k t (htasks k t ht)).later⟩

theorem Paid.spawn (h : Paid n e (event :: events) purse) {duty : Duty} {p : Proc Outcome} {new : Nat}
    (hstep : (e.step n event).1 = (e.spawn duty p).2)
    (hnew : Pays n (e.step n event).1 events e.nextTask new ⟨duty, none, p⟩) :
    Paid n (e.step n event).1 events (Function.update purse e.nextTask new) := by
  refine ⟨h.numbered.step event, fun k t ht => ?_⟩
  rw [hstep] at ht
  unfold Engine.spawn at ht
  rw [Table.get?_set] at ht
  split at ht
  · rename_i hk
    cases ht
    rw [hk, Function.update_self]
    exact hnew
  · rename_i hk
    rw [Function.update_of_ne hk]
    exact (h.tasks k t ht).later

theorem tasks_finish {duty : Duty} (hduty : ∀ next, duty ≠ .keepAlive next) {o : Outcome} {j : Nat}
    (ht : (e.finish n k duty o).1.tasks.get? j = some t) : e.tasks.get? j = some t := by
  have hend {e : Engine} (ht : (e.endTask k).tasks.get? j = some t) : e.tasks.get? j = some t := by
    rw [get?_endTask] at ht
    split at ht
    · contradiction
    · exact ht
  cases duty with
  | keepAlive next => exact absurd rfl (hduty next)
  | _ => exact hend ht

theorem Paid.answered (h : Paid n e (.run k :: events) purse) {duty : Duty} {ticket : Option Ticket}
    {op : Op} {next : op.Answer → Proc Outcome}
    (htask : e.tasks.get? k = some ⟨duty, ticket, .ask op next⟩) {answer : op.Answer}
    {records : List Record} (hanswer : e.perform n op = some (answer, e', records)) :
    ∃ purse', Paid n (e.step n (.run k)).1 events purse' ∧
      (e.step n (.run k)).1.total purse' + sentCount (e.step n (.run k)).2 ≤ e.total purse := by
  have hstep := step_run_of_answer htask hanswer
  have hk := h.numbered k _ htask
  obtain ⟨hcost, hpays⟩ := (h.tasks k _ htask).answered htask hanswer
  let rest := Function.update purse k (purse k - op.cost n)
  refine ⟨Function.update rest e.nextTask n.punchCost, ⟨h.numbered.step _, fun j t ht => ?_⟩, ?_⟩
  · rw [hstep, get?_setTask] at ht
    split at ht
    · rename_i hj
      cases ht
      rw [hj, Function.update_of_ne (Nat.ne_of_lt hk)]
      unfold rest
      rw [Function.update_self]
      exact hpays
    · rename_i hj
      obtain rfl := eq_afterOp_of_perform hanswer
      rcases tasks_afterOp ht with hold | ⟨a, -, -, rfl, rfl⟩
      · rw [Function.update_of_ne (Nat.ne_of_lt (h.numbered j t hold))]
        unfold rest
        rw [Function.update_of_ne hj]
        exact (h.tasks j t hold).later
      · rw [Function.update_self]
        refine ⟨?_, a, spends_silent (Node.punchRounds_spends a _)⟩
        rintro _ ⟨⟩
  · rw [hstep]
    change ∑ j ∈ Finset.range e'.nextTask, _ + sentCount records ≤ e.total purse
    rcases spent_perform hanswer with ⟨hnext, hsent⟩ | ⟨hnext, hsent, hpunch⟩
    · rw [hnext, Finset.sum_update_of_notMem Finset.notMem_range_self]
      exact sum_update_le hk (by omega)
    · rw [hnext, hsent, sum_update_new]
      exact sum_update_le hk (by omega)

theorem Paid.run (h : Paid n e (.run k :: events) purse) :
    ∃ purse', Paid n (e.step n (.run k)).1 events purse' ∧
      (e.step n (.run k)).1.total purse' + sentCount (e.step n (.run k)).2 ≤ e.total purse := by
  have hrest (hstep : e.step n (.run k) = (e, [])) :
      ∃ purse', Paid n (e.step n (.run k)).1 events purse' ∧
        (e.step n (.run k)).1.total purse' + sentCount (e.step n (.run k)).2 ≤ e.total purse := by
    refine ⟨purse, h.fewer fun j t ht => by rwa [hstep] at ht, ?_⟩
    rw [hstep]
    exact Nat.le_refl _
  cases htask : e.tasks.get? k with
  | none => exact hrest (step_run_of_none htask)
  | some t =>
    obtain ⟨duty, ticket, program⟩ := t
    cases program with
    | done o =>
      have hduty := (h.tasks k _ htask).1
      have hstep := step_run_of_done (n := n) htask
      refine ⟨purse, h.fewer fun j t ht => ?_, ?_⟩
      · rw [hstep] at ht
        exact tasks_finish hduty ht
      · have hsilent : sentCount (e.finish n k duty o).2 = 0 := by cases duty <;> rfl
        rw [hstep, hsilent]
        unfold total
        rw [nextTask_finish]
        exact Nat.le_refl _
    | ask op next =>
      cases hanswer : e.perform n op with
      | none => exact hrest (step_run_of_waits htask hanswer)
      | some x =>
        obtain ⟨answer, e', records⟩ := x
        exact h.answered htask hanswer

theorem Paid.receive {source : Address} {datagram : Bytes}
    (h : Paid n e (.receive source datagram :: events) purse) :
    ∃ purse', Paid n (e.step n (.receive source datagram)).1 events purse' ∧
      (e.step n (.receive source datagram)).1.total purse' ≤
        e.total purse + e.worth n (.receive source datagram) events := by
  have hstep := congrArg Prod.fst (step_receive n e source datagram)
  have hrest (htasks : (e.step n (.receive source datagram)).1.tasks = e.tasks)
      (hnext : (e.step n (.receive source datagram)).1.nextTask = e.nextTask) :
      ∃ purse', Paid n (e.step n (.receive source datagram)).1 events purse' ∧
        (e.step n (.receive source datagram)).1.total purse' ≤
          e.total purse + e.worth n (.receive source datagram) events := by
    refine ⟨purse, h.fewer fun j t ht => htasks ▸ ht, ?_⟩
    unfold total
    rw [hnext]
    exact Nat.le_add_right _ _
  cases hm : heard? datagram with
  | none =>
    rw [hm] at hstep
    exact hrest (by rw [hstep]; rfl) (by rw [hstep]; rfl)
  | some m =>
    rw [hm, Option.elim_some] at hstep
    unfold accept at hstep
    split at hstep
    · have hpays : Pays n (e.step n (.receive source datagram)).1 events e.nextTask
          (e.worth n (.receive source datagram) events)
          ⟨.service, none, silent (n.serve source m)⟩ := by
        rw [worth_receive hm]
        refine ⟨nofun, source, spends_silent (Node.serve_spends fun asked hpossible hstates => ?_)⟩
        exact hpossible hstates
      refine ⟨_, h.spawn hstep hpays, ?_⟩
      unfold total
      simp only [hstep]
      exact (sum_update_new purse e.nextTask _).le
    · exact hrest (by rw [hstep]) (by rw [hstep])

theorem Paid.step (h : Paid n e (event :: events) purse) (hpassive : event.IsPassive) :
    ∃ purse', Paid n (e.step n event).1 events purse' ∧
      (e.step n event).1.total purse' + sentCount (e.step n event).2 ≤
        e.total purse + e.worth n event events := by
  cases event with
  | call c => exact hpassive.elim
  | keepAlive => exact hpassive.elim
  | run k => exact h.run
  | receive source datagram => exact h.receive
  | abort k =>
    have hchange := change_step n e (.abort k)
    have hkept : (∀ j t, (e.step n (.abort k)).1.tasks.get? j = some t → e.tasks.get? j = some t) ∧
        (e.step n (.abort k)).1.nextTask = e.nextTask ∧ (e.step n (.abort k)).2 = [] := by
      generalize e.step n (.abort k) = after at hchange
      cases hchange with
      | noTask => exact ⟨fun _ _ ht => ht, rfl, rfl⟩
      | abort =>
        refine ⟨fun j t ht => ?_, rfl, rfl⟩
        rw [get?_endTask] at ht
        split at ht
        · contradiction
        · exact ht
    obtain ⟨htasks, hnext, hsilent⟩ := hkept
    refine ⟨purse, h.fewer htasks, ?_⟩
    unfold total
    rw [hnext, hsilent]
    exact Nat.le_refl _
  | sweep =>
    have hchange := change_step n e .sweep
    have hkept : (e.step n .sweep).1.tasks = e.tasks ∧ (e.step n .sweep).1.nextTask = e.nextTask ∧
        (e.step n .sweep).2 = [] := by
      generalize e.step n .sweep = after at hchange
      cases hchange <;> exact ⟨rfl, rfl, rfl⟩
    obtain ⟨htasks, hnext, hsilent⟩ := hkept
    refine ⟨purse, h.fewer fun j t ht => htasks ▸ ht, ?_⟩
    unfold total
    rw [hnext, hsilent]
    exact Nat.le_refl _
  | _ => exact ⟨purse, h.fewer fun j t ht => ht, Nat.le_refl _⟩

theorem sentCount_append (first later : List Record) :
    sentCount (first ++ later) = sentCount first + sentCount later :=
  List.countP_append ..

/-- What is sent is paid from the purses of the tasks that there are and from what the datagrams are worth
that come. -/
theorem Paid.steps (h : Paid n e events purse) (hpassive : ∀ event ∈ events, event.IsPassive) :
    sentCount (e.steps n events).2 ≤ e.total purse + e.budget n events := by
  induction events generalizing e purse with
  | nil => exact Nat.zero_le _
  | cons event events ih =>
    obtain ⟨purse', hpaid, hle⟩ := h.step (hpassive event (by simp))
    have hlater := ih hpaid fun x hx => hpassive x (by simp [hx])
    rw [steps_cons, sentCount_append, budget]
    omega

/-- An engine that has no tasks and gets none but for what it receives sends no more than that is worth: one
datagram for a Hello or a request for a key, a root or a datum, one for a request to be introduced if it
introduces and was asked over IPv4, a punch for a notice that came from the server, and nothing for anything
else. -/
theorem emission_budget (n : Node) {e : Engine} (hidle : Idle e) {events : List Event}
    (hpassive : ∀ event ∈ events, event.IsPassive) :
    sentCount (e.steps n events).2 ≤ e.budget n events := by
  have hpaid : Paid n e events fun _ => 0 := by
    refine ⟨hidle.numbered, fun k t ht => ?_⟩
    rw [hidle k] at ht
    contradiction
  have hle := hpaid.steps hpassive
  unfold total at hle
  rwa [Finset.sum_const_zero, Nat.zero_add] at hle

/-- A Hello, a reply that nobody waits for, and a notice from the server, to whose initiator nothing gets
through: a HelloReply and two Hellos are sent, and no more than that was to be had. -/
theorem emission_budget_of_notice :
    let server : Address := .v4 ⟨#v[10, 0, 0, 1], 1000⟩
    let a : Address := .v4 ⟨#v[10, 0, 0, 2], 1000⟩
    let hello : Message := ⟨7, .hello, [0, 0, 0, 0, 0x65, 0x76, 0x65], none, by decide⟩
    let notice := Message.ofEndpoint 8 .natTraversal ⟨#v[10, 0, 0, 9], 2000⟩
    let e := ((start .plain .ip4 PeerTable.empty.directory ⟨⟨[]⟩⟩).steps .plain
      [.register "server" server]).1
    let events := .receive server notice.encode :: (List.replicate 8 (.run 0) ++
      .receive a hello.encode :: .receive a (Message.empty 9 .rootReply).encode ::
        (List.replicate 8 (.run 2) ++ List.replicate 4 (.run 1) ++ .pass 100 100 ::
          (List.replicate 4 (.run 1) ++ .pass 100 100 :: List.replicate 4 (.run 1))))
    (Idle e ∧ (∀ event ∈ events, event.IsPassive)) ∧
      sentCount (e.steps .plain events).2 ≤ e.budget .plain events ∧
      sentCount (e.steps .plain events).2 = 3 ∧ e.budget .plain events = 3 := by
  intro server a hello notice e events
  have hidle : Idle e := fun _ => rfl
  have hpassive : ∀ event ∈ events, event.IsPassive := by decide +kernel
  exact ⟨⟨hidle, hpassive⟩, emission_budget .plain hidle hpassive, by decide +kernel,
    by decide +kernel⟩

end Engine
end TreeShare
