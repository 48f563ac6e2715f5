import TreeShare.Proofs.Engine.Handshake
import TreeShare.Proofs.Engine.Searching

/-! The itinerary of a search for a peer: which addresses it visits, in which order, and with what outcome.
Main statements: `itinerary_of_request`, that every search has an itinerary, and `Searching.orderly`, that it
is in order. -/
namespace TreeShare

open Proc

/-- The request is sent to an address, the address is greeted, or a traversal towards it is tried. -/
inductive Approach where
  | send
  | greet
  | traverse
deriving DecidableEq

structure Visit where
  approach : Approach
  target : Address
  log : List Asked
  /-- None while the visit goes on, else how it failed if it did. -/
  outcome : Option (Option RequestError)

/-- What a search does in turn: questions of its own, and visits. -/
inductive Leg where
  | own (asked : Asked)
  | visit (v : Visit)

abbrev Itinerary := List Leg

namespace Leg

def log : Leg → List Asked
  | own asked => [asked]
  | visit v => v.log

def visit? : Leg → Option Visit
  | own _ => none
  | visit v => some v

def AsksDirectory (peer : String) : Leg → Prop
  | own asked => asked.op = .findAddresses peer
  | visit _ => False

end Leg

namespace Itinerary

def log (legs : Itinerary) : List Asked := legs.flatMap Leg.log

def visits (legs : Itinerary) : List Visit := legs.filterMap Leg.visit?

def targets (approach : Approach) (legs : Itinerary) : List Address :=
  (legs.visits.filter (·.approach = approach)).map Visit.target

def AsksDirectory (peer : String) (legs : Itinerary) : Prop := ∃ leg ∈ legs, leg.AsksDirectory peer

variable {legs more : Itinerary} {leg : Leg} {asked : Asked} {v : Visit} {approach : Approach} {peer : String}

@[simp] theorem log_nil : log [] = [] := rfl

@[simp] theorem log_cons : log (leg :: legs) = leg.log ++ log legs := rfl

@[simp] theorem log_append : log (legs ++ more) = log legs ++ log more := List.flatMap_append

@[simp] theorem visits_nil : visits [] = [] := rfl

@[simp] theorem visits_own : visits (.own asked :: legs) = visits legs := rfl

@[simp] theorem visits_visit : visits (.visit v :: legs) = v :: visits legs := rfl

@[simp] theorem visits_append : visits (legs ++ more) = visits legs ++ visits more := List.filterMap_append

@[simp] theorem targets_nil : targets approach [] = [] := rfl

@[simp] theorem targets_own : targets approach (.own asked :: legs) = targets approach legs := rfl

@[simp] theorem targets_visit : targets approach (.visit v :: legs) =
    if v.approach = approach then v.target :: targets approach legs else targets approach legs := by
  unfold targets
  rw [visits_visit, List.filter_cons]
  split <;> simp_all

@[simp] theorem targets_append :
    targets approach (legs ++ more) = targets approach legs ++ targets approach more := by
  simp [targets]

@[simp] theorem asksDirectory_nil : ¬ AsksDirectory peer [] := by
  rintro ⟨_, hleg, -⟩
  exact absurd hleg List.not_mem_nil

@[simp] theorem asksDirectory_cons :
    AsksDirectory peer (leg :: legs) ↔ leg.AsksDirectory peer ∨ AsksDirectory peer legs := by
  simp [AsksDirectory]

@[simp] theorem asksDirectory_append :
    AsksDirectory peer (legs ++ more) ↔ AsksDirectory peer legs ∨ AsksDirectory peer more := by
  simp [AsksDirectory, List.mem_append, or_and_right, exists_or]

end Itinerary

/-- How far an attempt has come: it goes on, or it has ended. -/
inductive Attempt.Reaches {α : Type} (x : Attempt α) (log : List Asked) :
    Option (Option RequestError) → Prop
  | going {op : Op} {next : op.Answer → Proc (Except RequestError α)}
      (path : x.run.After log (.ask op next)) : Reaches x log none
  | ended {r : Except RequestError α} (path : x.run.After log (.done r)) :
      Reaches x log (some (failureOf r))

def Op.IsOwn (peer : String) : Op → Prop
  | knownAddresses p | findAddresses p | registerPeer p _ | evictPeer p _ => p = peer
  | _ => False

def Visit.Made (n : Node) (peer : String) (m : Message) (v : Visit) : Prop :=
  match v.approach with
  | .send => (n.exchange v.target m).Reaches v.log v.outcome
  | .greet => (n.greet v.target).Reaches v.log v.outcome
  | .traverse => (n.traverse peer v.target).Reaches v.log v.outcome

def Visit.FailedHard (v : Visit) : Prop := ∃ cause, v.outcome = some (some cause) ∧ cause.isHard = true

def Leg.Made (n : Node) (peer : String) (m : Message) : Leg → Prop
  | own asked => asked.op.IsOwn peer
  | visit v => v.Made n peer m

/-- How a search stands with some addresses: at one of them, through with all, or at its result. -/
inductive Headway where
  | going
  | through
  | settled (r : Except RequestError Message)

namespace Headway

def ofBook : Option (Except RequestError (Option Message)) → Headway
  | none => going
  | some (.ok none) => through
  | some (.ok (some r)) => settled (.ok r)
  | some (.error cause) => settled (.error cause)

/-- What a search comes to after the directory: when it is through, nobody is left. -/
def last (peer : String) : Headway → Option (Except RequestError Message)
  | going => none
  | through => some (.error (.unreachable peer))
  | settled r => some r

end Headway

section

variable (n : Node) (peer : String) (m : Message)

inductive Sending (a : Address) : Itinerary → Headway → Prop
  | going {log : List Asked} (reach : (n.exchange a m).Reaches log none) :
      Sending a [.visit ⟨.send, a, log, none⟩] .going
  | replied {log : List Asked} {r : Message} (path : (n.exchange a m).run.After log (.done (.ok r))) :
      Sending a [.visit ⟨.send, a, log, some none⟩] (.settled (.ok r))
  | soft {log : List Asked} {cause : RequestError}
      (path : (n.exchange a m).run.After log (.done (.error cause))) (soft : cause.isHard = false) :
      Sending a [.visit ⟨.send, a, log, some (some cause)⟩] (.settled (.error cause))
  | dead {log : List Asked} {cause : RequestError}
      (path : (n.exchange a m).run.After log (.done (.error cause))) (hard : cause.isHard = true) :
      Sending a [.visit ⟨.send, a, log, some (some cause)⟩] .going
  | evicted {log : List Asked} {cause : RequestError}
      (path : (n.exchange a m).run.After log (.done (.error cause))) (hard : cause.isHard = true) :
      Sending a [.visit ⟨.send, a, log, some (some cause)⟩, .own ⟨.evictPeer peer a, ()⟩] .through

inductive InBook : List Address → Itinerary → Headway → Prop
  | nil : InBook [] [] .through
  | here {a : Address} {rest : List Address} {legs : Itinerary} {headway : Headway}
      (sending : Sending n peer m a legs headway) (stays : headway ≠ .through) :
      InBook (a :: rest) legs headway
  | next {a : Address} {rest : List Address} {legs more : Itinerary} {headway : Headway}
      (sending : Sending n peer m a legs .through) (later : InBook rest more headway) :
      InBook (a :: rest) (legs ++ more) headway

/-- A Hello to a fresh address, and a traversal if it failed hard. -/
inductive Reaching (a : Address) : Itinerary → Option (Except RequestError Bool) → Prop
  | greeting {log : List Asked} (reach : (n.greet a).Reaches log none) :
      Reaching a [.visit ⟨.greet, a, log, none⟩] none
  | greeted {log : List Asked} {name : String} (path : (n.greet a).run.After log (.done (.ok name))) :
      Reaching a [.visit ⟨.greet, a, log, some none⟩] (some (.ok true))
  | soft {log : List Asked} {cause : RequestError}
      (path : (n.greet a).run.After log (.done (.error cause))) (soft : cause.isHard = false) :
      Reaching a [.visit ⟨.greet, a, log, some (some cause)⟩] (some (.error cause))
  | traversing {log more : List Asked} {cause : RequestError}
      (path : (n.greet a).run.After log (.done (.error cause))) (hard : cause.isHard = true)
      (reach : (n.traverse peer a).Reaches more none) :
      Reaching a [.visit ⟨.greet, a, log, some (some cause)⟩, .visit ⟨.traverse, a, more, none⟩] none
  | traversed {log more : List Asked} {cause : RequestError} {r : Except RequestError Unit}
      (path : (n.greet a).run.After log (.done (.error cause))) (hard : cause.isHard = true)
      (last : (n.traverse peer a).run.After more (.done r)) :
      Reaching a
        [.visit ⟨.greet, a, log, some (some cause)⟩, .visit ⟨.traverse, a, more, some (failureOf r)⟩]
        (some (.ok r.isOk))

/-- A fresh address, which gets the request once it is reached. -/
inductive Trying (a : Address) : Itinerary → Headway → Prop
  | reaching {legs : Itinerary} (reach : Reaching n peer a legs none) : Trying a legs .going
  | soft {legs : Itinerary} {cause : RequestError} (reach : Reaching n peer a legs (some (.error cause))) :
      Trying a legs (.settled (.error cause))
  | blocked {legs : Itinerary} (reach : Reaching n peer a legs (some (.ok false))) : Trying a legs .through
  | sent {legs more : Itinerary} {headway : Headway} (reach : Reaching n peer a legs (some (.ok true)))
      (sending : Sending n peer m a more headway) (failed : ∀ r, headway ≠ .settled (.ok r)) :
      Trying a (legs ++ more) headway
  | replied {legs more : Itinerary} {r : Message} (reach : Reaching n peer a legs (some (.ok true)))
      (sending : Sending n peer m a more (.settled (.ok r))) : Trying a (legs ++ more) .going
  | registered {legs more : Itinerary} {r : Message} (reach : Reaching n peer a legs (some (.ok true)))
      (sending : Sending n peer m a more (.settled (.ok r))) :
      Trying a (legs ++ (more ++ [.own ⟨.registerPeer peer a, ()⟩])) (.settled (.ok r))

inductive InDirectory : List Address → List Address → Itinerary → Headway → Prop
  | nil {tried : List Address} : InDirectory tried [] [] .through
  | skip {tried rest : List Address} {a : Address} {legs : Itinerary} {headway : Headway}
      (skipped : ¬ (a.isV4 = true ∧ a ∉ tried)) (later : InDirectory tried rest legs headway) :
      InDirectory tried (a :: rest) legs headway
  | here {tried rest : List Address} {a : Address} {legs : Itinerary} {headway : Headway}
      (fresh : a.isV4 = true ∧ a ∉ tried) (trying : Trying n peer m a legs headway)
      (stays : headway ≠ .through) : InDirectory tried (a :: rest) legs headway
  | next {tried rest : List Address} {a : Address} {legs more : Itinerary} {headway : Headway}
      (fresh : a.isV4 = true ∧ a ∉ tried) (trying : Trying n peer m a legs .through)
      (later : InDirectory (a :: tried) rest more headway) :
      InDirectory tried (a :: rest) (legs ++ more) headway

/-- A whole search, for a peer that the book has at these addresses. -/
inductive Searching (known : List Address) : Itinerary → Option (Except RequestError Message) → Prop
  | inBook {legs : Itinerary} (first : InBook n peer m known legs .going) : Searching known legs none
  | settled {legs : Itinerary} {r : Except RequestError Message}
      (first : InBook n peer m known legs (.settled r)) : Searching known legs (some r)
  | through {legs : Itinerary} (first : InBook n peer m known legs .through) : Searching known legs none
  | unlisted {legs : Itinerary} (first : InBook n peer m known legs .through) (cause : DirectoryError) :
      Searching known (legs ++ [.own ⟨.findAddresses peer, .error cause⟩])
        (some (.error (.directory cause)))
  | listed {legs more : Itinerary} {found : List Address} {headway : Headway}
      (first : InBook n peer m known legs .through)
      (second : InDirectory n peer m known found more headway) :
      Searching known (legs ++ .own ⟨.findAddresses peer, .ok found⟩ :: more) (headway.last peer)

end

/-! Every search has an itinerary. -/

def Proc.value? {α : Type} : Proc α → Option α
  | done a => some a
  | ask .. => none

section

variable {n : Node} {peer : String} {m : Message} {a : Address} {α β : Type} {log : List Asked}

theorem Attempt.after_bind {x : Attempt α} {f : α → Attempt β} {q : Proc (Except RequestError β)}
    (h : (x >>= f).run.After log q) :
    (∃ p, x.run.After log p ∧ p.value? = none ∧ q.value? = none) ∨
    (∃ cause, x.run.After log (.done (.error cause)) ∧ q = .done (.error cause)) ∨
    ∃ first b second, log = first ++ second ∧ x.run.After first (.done (.ok b)) ∧
      (f b).run.After second q := by
  rcases Proc.after_bind h with ⟨op, next, hx, rfl⟩ | ⟨first, r, second, rfl, hx, hf⟩
  · exact .inl ⟨_, hx, rfl, rfl⟩
  · cases r with
    | ok b => exact .inr (.inr ⟨first, b, second, rfl, hx, hf⟩)
    | error cause =>
      obtain ⟨rfl, rfl⟩ := after_done_iff.mp hf
      rw [List.append_nil]
      exact .inr (.inl ⟨cause, hx, rfl⟩)

/-- What the search does after the request was sent to an address: it stands where it is, comes to a result,
or evicts the address and goes on with the later ones. -/
def Headway.Leads (onReply : Message → Attempt α) (later : Attempt α) (rest : List Asked)
    (q : Proc (Except RequestError α)) : Headway → Prop
  | going => rest = [] ∧ q.value? = none
  | settled (.ok r) => (onReply r).run.After rest q
  | settled (.error cause) => rest = [] ∧ q = .done (.error cause)
  | through => later.run.After rest q

theorem sending_of_after {k : Except RequestError Message → Attempt α} (later : Attempt α)
    (hhard : ∀ cause, cause.isHard = true →
      (k (.error cause)).run = .ask (.evictPeer peer a) fun _ => later.run)
    (hsoft : ∀ cause, cause.isHard = false → (k (.error cause)).run = .done (.error cause))
    {q : Proc (Except RequestError α)} (h : ((n.exchange a m).outcome >>= k).run.After log q) :
    ∃ legs headway rest, Sending n peer m a legs headway ∧ log = legs.log ++ rest ∧
      headway.Leads (fun r => k (.ok r)) later rest q := by
  rw [run_outcome_bind] at h
  rcases Proc.after_bind h with ⟨op, next, hpath, rfl⟩ | ⟨first, r, second, rfl, hpath, hrest⟩
  · exact ⟨_, _, [], .going (.going hpath), by simp [Leg.log], rfl, rfl⟩
  · cases r with
    | ok r => exact ⟨_, _, second, .replied hpath, by simp [Leg.log], hrest⟩
    | error cause =>
      cases hcause : cause.isHard with
      | false =>
        rw [hsoft cause hcause] at hrest
        obtain ⟨rfl, rfl⟩ := after_done_iff.mp hrest
        exact ⟨_, _, [], .soft hpath hcause, by simp [Leg.log], rfl, rfl⟩
      | true =>
        rw [hhard cause hcause] at hrest
        rcases hrest with _ | @⟨_, _, ⟨⟩, second, _, hlater⟩
        · exact ⟨_, _, [], .dead hpath hcause, by simp [Leg.log], rfl, rfl⟩
        · exact ⟨_, _, second, .evicted hpath hcause, by simp [Leg.log], hlater⟩

theorem inBook_of_after {known : List Address} {q : Proc (Except RequestError (Option Message))}
    (h : (n.sendToKnown peer m known).run.After log q) :
    ∃ legs : Itinerary, InBook n peer m known legs (.ofBook q.value?) ∧ legs.log = log := by
  induction known generalizing log with
  | nil =>
    obtain ⟨rfl, rfl⟩ := after_done_iff.mp h
    exact ⟨[], .nil, rfl⟩
  | cons a rest ih =>
    obtain ⟨legs, headway, more, hsending, rfl, hleads⟩ :=
      sending_of_after (n.sendToKnown peer m rest)
        (fun cause hcause => by simp only [hcause, if_true]; rfl)
        (fun cause hcause => by simp only [hcause]; rfl) h
    cases headway with
    | going =>
      obtain ⟨rfl, hq⟩ := hleads
      rw [hq, List.append_nil]
      exact ⟨legs, .here hsending nofun, rfl⟩
    | settled r =>
      cases r with
      | ok r =>
        obtain ⟨rfl, rfl⟩ := after_done_iff.mp hleads
        rw [List.append_nil]
        exact ⟨legs, .here hsending nofun, rfl⟩
      | error cause =>
        obtain ⟨rfl, rfl⟩ := hleads
        rw [List.append_nil]
        exact ⟨legs, .here hsending nofun, rfl⟩
    | through =>
      obtain ⟨later, hlater, rfl⟩ := ih hleads
      exact ⟨legs ++ later, .next hsending hlater, Itinerary.log_append⟩

theorem reaching_of_after {q : Proc (Except RequestError Bool)} (h : (n.reach peer a).run.After log q) :
    ∃ legs : Itinerary, Reaching n peer a legs q.value? ∧ legs.log = log := by
  unfold Node.reach at h
  rw [run_outcome_bind] at h
  rcases Proc.after_bind h with ⟨op, next, hgreet, rfl⟩ | ⟨first, r, second, rfl, hgreet, hrest⟩
  · exact ⟨_, .greeting (.going hgreet), by simp [Leg.log]⟩
  · cases r with
    | ok name =>
      obtain ⟨rfl, rfl⟩ := after_done_iff.mp hrest
      exact ⟨_, .greeted hgreet, by simp [Leg.log]⟩
    | error cause =>
      dsimp only at hrest
      split at hrest
      · rename_i hhard
        rw [run_outcome_bind] at hrest
        rcases Proc.after_bind hrest with ⟨op, next, hgoes, rfl⟩ | ⟨more, r, last, rfl, hdone, hlast⟩
        · exact ⟨_, .traversing hgreet hhard (.going hgoes), by simp [Leg.log]⟩
        · have hreached : last = [] ∧ q = .done (.ok r.isOk) := by
            cases r <;> exact after_done_iff.mp hlast
          obtain ⟨rfl, rfl⟩ := hreached
          exact ⟨_, .traversed hgreet hhard hdone, by simp [Leg.log]⟩
      · rename_i hsoft
        obtain ⟨rfl, rfl⟩ := after_done_iff.mp hrest
        exact ⟨_, .soft hgreet (Bool.eq_false_iff.mpr hsoft), by simp [Leg.log]⟩

theorem inDirectory_of_after {tried found : List Address} {q : Proc (Except RequestError Message)}
    (h : (n.sendToFresh peer m tried found).run.After log q) :
    ∃ (legs : Itinerary) (headway : Headway), InDirectory n peer m tried found legs headway ∧
      headway.last peer = q.value? ∧ legs.log = log := by
  induction found generalizing tried log with
  | nil =>
    obtain ⟨rfl, rfl⟩ := after_done_iff.mp h
    exact ⟨[], _, .nil, rfl, rfl⟩
  | cons a rest ih =>
    unfold Node.sendToFresh at h
    split at h
    · rename_i hskip
      obtain ⟨legs, headway, hlater, hlast, rfl⟩ := ih h
      exact ⟨legs, headway, .skip (by simpa [or_iff_not_imp_left] using hskip) hlater, hlast, rfl⟩
    · rename_i hskip
      have hfresh : a.isV4 = true ∧ a ∉ tried := by simpa using hskip
      rcases Attempt.after_bind h with ⟨p, hreach, hp, hq⟩ | ⟨cause, hreach, rfl⟩ |
        ⟨first, reached, second, rfl, hreach, hrest⟩
      · obtain ⟨legs, hreaching, rfl⟩ := reaching_of_after hreach
        rw [hp] at hreaching
        exact ⟨legs, .going, .here hfresh (.reaching hreaching) (by simp), hq.symm, rfl⟩
      · obtain ⟨legs, hreaching, rfl⟩ := reaching_of_after hreach
        exact ⟨legs, _, .here hfresh (.soft hreaching) (by simp), rfl, rfl⟩
      · obtain ⟨legs, hreaching, rfl⟩ := reaching_of_after hreach
        cases reached with
        | false =>
          obtain ⟨more, headway, hlater, hlast, rfl⟩ := ih hrest
          exact ⟨legs ++ more, headway, .next hfresh (.blocked hreaching) hlater, hlast,
            Itinerary.log_append⟩
        | true =>
          obtain ⟨more, headway, later, hsending, rfl, hleads⟩ :=
            sending_of_after (n.sendToFresh peer m (a :: tried) rest)
              (fun cause hcause => by simp only [hcause, if_true]; rfl)
              (fun cause hcause => by simp only [hcause]; rfl) hrest
          cases headway with
          | going =>
            obtain ⟨rfl, hq⟩ := hleads
            exact ⟨_, .going, .here hfresh (.sent hreaching hsending (by simp)) (by simp), hq.symm, by simp⟩
          | settled r =>
            cases r with
            | ok r =>
              rcases hleads with _ | @⟨_, _, ⟨⟩, _, _, hdone⟩
              · exact ⟨_, .going, .here hfresh (.replied hreaching hsending) (by simp), rfl, by simp⟩
              · obtain ⟨rfl, rfl⟩ := after_done_iff.mp hdone
                exact ⟨_, _, .here hfresh (.registered hreaching hsending) (by simp), rfl,
                  by simp [Leg.log]⟩
            | error cause =>
              obtain ⟨rfl, rfl⟩ := hleads
              exact ⟨_, _, .here hfresh (.sent hreaching hsending (by simp)) (by simp), rfl, by simp⟩
          | through =>
            obtain ⟨last, headway, hlater, hlast, rfl⟩ := ih hleads
            exact ⟨_, headway, .next hfresh (.sent hreaching hsending (by simp)) hlater, hlast, by simp⟩

/-- A search that has asked anything has asked the book first, and then it follows an itinerary. -/
theorem itinerary_of_request {q : Proc (Except RequestError Message)}
    (h : (n.request peer m).run.After log q) :
    log = [] ∧ q.value? = none ∨
      ∃ (known : List Address) (legs : Itinerary), log = ⟨.knownAddresses peer, known⟩ :: legs.log ∧
        Searching n peer m known legs q.value? := by
  rcases h with _ | @⟨_, _, known, rest, _, h⟩
  · exact .inl ⟨rfl, rfl⟩
  · refine .inr ⟨known, ?_⟩
    rcases Attempt.after_bind h with ⟨p, hsends, hp, hq⟩ | ⟨cause, hsends, rfl⟩ |
      ⟨first, reply, second, rfl, hsends, hrest⟩
    · obtain ⟨legs, hbook, rfl⟩ := inBook_of_after hsends
      rw [hp] at hbook
      rw [hq]
      exact ⟨legs, rfl, .inBook hbook⟩
    · obtain ⟨legs, hbook, rfl⟩ := inBook_of_after hsends
      exact ⟨legs, rfl, .settled hbook⟩
    · obtain ⟨legs, hbook, rfl⟩ := inBook_of_after hsends
      cases reply with
      | some r =>
        obtain ⟨rfl, rfl⟩ := after_done_iff.mp hrest
        exact ⟨legs, by rw [List.append_nil], .settled hbook⟩
      | none =>
        rcases hrest with _ | @⟨_, _, answer, _, _, hrest⟩
        · exact ⟨legs, by rw [List.append_nil], .through hbook⟩
        · cases answer with
          | error cause =>
            obtain ⟨rfl, rfl⟩ := after_done_iff.mp hrest
            exact ⟨_, by simp [Leg.log], .unlisted hbook cause⟩
          | ok found =>
            obtain ⟨more, headway, hdirectory, hlast, rfl⟩ := inDirectory_of_after hrest
            rw [← hlast]
            exact ⟨_, by simp [Leg.log], .listed hbook hdirectory⟩

end

/-! The legs of an itinerary are real. -/

section

variable {n : Node} {peer : String} {m : Message} {a : Address} {known tried found : List Address}
  {legs : Itinerary} {headway : Headway}

theorem Sending.made (h : Sending n peer m a legs headway) : ∀ leg ∈ legs, leg.Made n peer m := by
  cases h with
  | going reach => exact List.forall_mem_singleton.mpr reach
  | replied path | soft path | dead path => exact List.forall_mem_singleton.mpr (.ended path)
  | evicted path => exact List.forall_mem_cons.mpr ⟨.ended path, List.forall_mem_singleton.mpr rfl⟩

theorem InBook.made (h : InBook n peer m known legs headway) : ∀ leg ∈ legs, leg.Made n peer m := by
  induction h with
  | nil => exact List.forall_mem_nil _
  | here sending => exact sending.made
  | next sending _ ih => exact List.forall_mem_append.mpr ⟨sending.made, ih⟩

theorem Reaching.made {reached : Option (Except RequestError Bool)}
    (h : Reaching n peer a legs reached) (m : Message) : ∀ leg ∈ legs, leg.Made n peer m := by
  cases h with
  | greeting reach => exact List.forall_mem_singleton.mpr reach
  | greeted path | soft path => exact List.forall_mem_singleton.mpr (.ended path)
  | traversing path _ reach =>
    exact List.forall_mem_cons.mpr ⟨.ended path, List.forall_mem_singleton.mpr reach⟩
  | traversed path _ last =>
    exact List.forall_mem_cons.mpr ⟨.ended path, List.forall_mem_singleton.mpr (.ended last)⟩

theorem Trying.made (h : Trying n peer m a legs headway) : ∀ leg ∈ legs, leg.Made n peer m := by
  cases h with
  | reaching reach | soft reach | blocked reach => exact reach.made m
  | sent reach sending | replied reach sending =>
    exact List.forall_mem_append.mpr ⟨reach.made m, sending.made⟩
  | registered reach sending =>
    refine List.forall_mem_append.mpr ⟨reach.made m, List.forall_mem_append.mpr ⟨sending.made, ?_⟩⟩
    exact List.forall_mem_singleton.mpr rfl

theorem InDirectory.made (h : InDirectory n peer m tried found legs headway) :
    ∀ leg ∈ legs, leg.Made n peer m := by
  induction h with
  | nil => exact List.forall_mem_nil _
  | skip _ _ ih => exact ih
  | here _ trying => exact trying.made
  | next _ trying _ ih => exact List.forall_mem_append.mpr ⟨trying.made, ih⟩

theorem Searching.made {result : Option (Except RequestError Message)}
    (h : Searching n peer m known legs result) : ∀ leg ∈ legs, leg.Made n peer m := by
  cases h with
  | inBook first | settled first | through first => exact first.made
  | unlisted first => exact List.forall_mem_append.mpr ⟨first.made, List.forall_mem_singleton.mpr rfl⟩
  | listed first second =>
    exact List.forall_mem_append.mpr ⟨first.made, List.forall_mem_cons.mpr ⟨rfl, second.made⟩⟩

/-! The order of an itinerary. -/

/-- The request goes to known addresses in their order, and nothing else is visited. -/
structure ThroughBook (peer : String) (known : List Address) (legs : Itinerary) : Prop where
  sends : ∀ v ∈ legs.visits, v.approach = .send
  order : legs.targets .send <+: known
  silent : ¬ legs.AsksDirectory peer

/-- IPv4 addresses of a list that were not tried are visited in their order, in each way once at most. -/
structure ThroughList (peer : String) (tried found : List Address) (legs : Itinerary) : Prop where
  order : ∀ approach, (legs.targets approach).Sublist found
  once : ∀ approach, (legs.targets approach).Nodup
  fresh : ∀ v ∈ legs.visits, v.target.isV4 = true ∧ v.target ∉ tried
  silent : ¬ legs.AsksDirectory peer

/-- The known addresses come first. Only when all of them have failed hard the directory is asked, once, and
then the addresses that it lists come. -/
inductive Orderly (peer : String) (known : List Address) : Itinerary → Prop
  | book {legs : Itinerary} (first : ThroughBook peer known legs) : Orderly peer known legs
  | unlisted {legs : Itinerary} (first : ThroughBook peer known legs) (all : legs.targets .send = known)
      (hard : ∀ v ∈ legs.visits, v.FailedHard) (cause : DirectoryError) :
      Orderly peer known (legs ++ [.own ⟨.findAddresses peer, .error cause⟩])
  | listed {legs more : Itinerary} {found : List Address} (first : ThroughBook peer known legs)
      (all : legs.targets .send = known) (hard : ∀ v ∈ legs.visits, v.FailedHard)
      (second : ThroughList peer known found more) :
      Orderly peer known (legs ++ .own ⟨.findAddresses peer, .ok found⟩ :: more)

theorem Itinerary.mem_targets {legs : Itinerary} {v : Visit} (h : v ∈ legs.visits) :
    v.target ∈ legs.targets v.approach :=
  List.mem_map_of_mem (List.mem_filter.mpr ⟨h, decide_eq_true rfl⟩)

theorem Sending.visits (h : Sending n peer m a legs headway) :
    ∃ log outcome, legs.visits = [⟨.send, a, log, outcome⟩] := by
  cases h <;> exact ⟨_, _, rfl⟩

theorem Sending.targets (h : Sending n peer m a legs headway) (approach : Approach) :
    legs.targets approach = if approach = .send then [a] else [] := by
  obtain ⟨log, outcome, hvisits⟩ := h.visits
  unfold Itinerary.targets
  rw [hvisits]
  cases approach <;> rfl

theorem Sending.silent (h : Sending n peer m a legs headway) : ¬ legs.AsksDirectory peer := by
  cases h <;> simp [Leg.AsksDirectory]

theorem Sending.failedHard (h : Sending n peer m a legs .through) : ∀ v ∈ legs.visits, v.FailedHard := by
  cases h with
  | evicted path hard => exact List.forall_mem_singleton.mpr ⟨_, rfl, hard⟩

theorem InBook.throughBook (h : InBook n peer m known legs headway) : ThroughBook peer known legs := by
  induction h with
  | nil => exact ⟨List.forall_mem_nil _, List.prefix_rfl, Itinerary.asksDirectory_nil⟩
  | here sending =>
    obtain ⟨log, outcome, hvisits⟩ := sending.visits
    refine ⟨fun v hv => ?_, ?_, sending.silent⟩
    · rw [hvisits] at hv
      exact List.mem_singleton.mp hv ▸ rfl
    · rw [sending.targets]
      exact ⟨_, rfl⟩
  | next sending _ ih =>
    obtain ⟨log, outcome, hvisits⟩ := sending.visits
    refine ⟨fun v hv => ?_, ?_, ?_⟩
    · rw [Itinerary.visits_append, hvisits] at hv
      rcases List.mem_cons.mp hv with rfl | hv
      · rfl
      · exact ih.sends v hv
    · rw [Itinerary.targets_append, sending.targets]
      exact List.cons_prefix_cons.mpr ⟨rfl, ih.order⟩
    · rw [Itinerary.asksDirectory_append]
      exact not_or.mpr ⟨sending.silent, ih.silent⟩

theorem InBook.all (h : InBook n peer m known legs .through) :
    legs.targets .send = known ∧ ∀ v ∈ legs.visits, v.FailedHard := by
  generalize hthrough : Headway.through = headway at h
  induction h with
  | nil => exact ⟨rfl, List.forall_mem_nil _⟩
  | here _ stays => exact absurd hthrough.symm stays
  | next sending _ ih =>
    obtain ⟨htargets, hhard⟩ := ih hthrough
    rw [Itinerary.targets_append, Itinerary.visits_append, sending.targets, htargets]
    exact ⟨rfl, List.forall_mem_append.mpr ⟨sending.failedHard, hhard⟩⟩

theorem Reaching.targets {reached : Option (Except RequestError Bool)}
    (h : Reaching n peer a legs reached) :
    legs.targets .send = [] ∧ ∀ approach, (legs.targets approach).Sublist [a] := by
  cases h <;> exact ⟨rfl, fun approach => by cases approach <;> simp⟩

theorem Reaching.silent {reached : Option (Except RequestError Bool)}
    (h : Reaching n peer a legs reached) : ¬ legs.AsksDirectory peer := by
  cases h <;> simp [Leg.AsksDirectory]

theorem Reaching.append_targets {reached : Option (Except RequestError Bool)} {more : Itinerary}
    (h : Reaching n peer a legs reached) (hsending : Sending n peer m a more headway)
    (approach : Approach) : ((legs ++ more).targets approach).Sublist [a] := by
  rw [Itinerary.targets_append, hsending.targets]
  split
  · rename_i hsend
    rw [hsend, h.targets.1]
    exact .refl _
  · rw [List.append_nil]
    exact h.targets.2 approach

theorem Trying.targets (h : Trying n peer m a legs headway) (approach : Approach) :
    (legs.targets approach).Sublist [a] := by
  cases h with
  | reaching reach | soft reach | blocked reach => exact reach.targets.2 approach
  | sent reach sending | replied reach sending => exact reach.append_targets sending approach
  | registered reach sending =>
    have htargets := reach.append_targets sending approach
    rw [Itinerary.targets_append] at htargets ⊢
    rwa [Itinerary.targets_append, Itinerary.targets_own, Itinerary.targets_nil, List.append_nil]

theorem Trying.silent (h : Trying n peer m a legs headway) : ¬ legs.AsksDirectory peer := by
  cases h with
  | reaching reach | soft reach | blocked reach => exact reach.silent
  | sent reach sending | replied reach sending => simp [reach.silent, sending.silent]
  | registered reach sending => simp [reach.silent, sending.silent, Leg.AsksDirectory]

theorem throughList_nil (peer : String) (tried found : List Address) : ThroughList peer tried found [] :=
  ⟨fun _ => List.nil_sublist _, fun _ => List.nodup_nil, List.forall_mem_nil _,
    Itinerary.asksDirectory_nil⟩

theorem ThroughList.cons {rest : List Address} {more : Itinerary}
    (h : ThroughList peer (a :: tried) rest more) (hfresh : a.isV4 = true ∧ a ∉ tried)
    (htrying : Trying n peer m a legs headway) : ThroughList peer tried (a :: rest) (legs ++ more) where
  order approach := by
    rw [Itinerary.targets_append]
    exact (htrying.targets approach).append (h.order approach)
  once approach := by
    rw [Itinerary.targets_append]
    refine List.nodup_append.mpr ⟨(htrying.targets approach).nodup (by simp), h.once approach,
      fun x hx y hy => ?_⟩
    obtain rfl := List.mem_singleton.mp ((htrying.targets approach).subset hx)
    obtain ⟨v, hv, rfl⟩ := List.mem_map.mp hy
    intro heq
    exact (h.fresh v (List.mem_filter.mp hv).1).2 (heq ▸ List.mem_cons_self)
  fresh v hv := by
    rw [Itinerary.visits_append] at hv
    rcases List.mem_append.mp hv with hv | hv
    · have htarget := (htrying.targets v.approach).subset (Itinerary.mem_targets hv)
      rwa [List.mem_singleton.mp htarget]
    · exact (h.fresh v hv).imp_right fun hnew hold => hnew (List.mem_cons_of_mem _ hold)
  silent := by
    rw [Itinerary.asksDirectory_append]
    exact not_or.mpr ⟨htrying.silent, h.silent⟩

theorem InDirectory.throughList (h : InDirectory n peer m tried found legs headway) :
    ThroughList peer tried found legs := by
  induction h with
  | nil => exact throughList_nil _ _ _
  | skip _ _ ih =>
    exact ⟨fun approach => (ih.order approach).cons _, ih.once, ih.fresh, ih.silent⟩
  | @here tried rest a _ _ fresh trying =>
    have hlist := (throughList_nil peer (a :: tried) rest).cons fresh trying
    rwa [List.append_nil] at hlist
  | next fresh trying _ ih => exact ih.cons fresh trying

theorem Searching.orderly {result : Option (Except RequestError Message)}
    (h : Searching n peer m known legs result) : Orderly peer known legs := by
  cases h with
  | inBook first | settled first | through first => exact .book first.throughBook
  | unlisted first cause => exact .unlisted first.throughBook first.all.1 first.all.2 cause
  | listed first second =>
    exact .listed first.throughBook first.all.1 first.all.2 second.throughList

theorem Orderly.aside (h : Orderly peer known legs) {asked : Asked}
    (hasked : asked.op ≠ .findAddresses peer) : Orderly peer known (.own asked :: legs) := by
  have haside {legs : Itinerary} (first : ThroughBook peer known legs) :
      ThroughBook peer known (.own asked :: legs) :=
    ⟨first.sends, first.order, by simp [Leg.AsksDirectory, hasked, first.silent]⟩
  cases h with
  | book first => exact .book (haside first)
  | unlisted first all hard cause => exact .unlisted (haside first) all hard cause
  | listed first all hard second => exact .listed (haside first) all hard second

theorem Orderly.nodup (h : Orderly peer known legs) (hknown : known.Nodup) :
    (legs.targets .send).Nodup := by
  cases h with
  | book first => exact first.order.sublist.nodup hknown
  | unlisted first all =>
    rw [Itinerary.targets_append, all, Itinerary.targets_own, Itinerary.targets_nil, List.append_nil]
    exact hknown
  | listed first all _ second =>
    rw [Itinerary.targets_append, all, Itinerary.targets_own]
    refine List.nodup_append.mpr ⟨hknown, second.once .send, fun x hx y hy heq => ?_⟩
    obtain ⟨v, hv, rfl⟩ := List.mem_map.mp hy
    exact (second.fresh v (List.mem_filter.mp hv).1).2 (heq ▸ hx)

end

end TreeShare
