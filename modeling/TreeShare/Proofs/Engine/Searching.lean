import TreeShare.Proofs.Engine.Custody

/-! What a search for a peer goes through: the addresses that it contacts in turn, and how each contact ends.
Main statement: `soft_failure_ends_search`. -/
namespace TreeShare

open Proc

def failureOf {α : Type} : Except RequestError α → Option RequestError
  | .ok _ => none
  | .error cause => some cause

/-- An address that was contacted, with a Hello or with the request itself, and all that was asked for it. -/
structure Contact where
  greets : Bool
  target : Address
  log : List Asked
  failure : Option RequestError

/-- What a search did, in order: contacts, and questions in between. -/
inductive Entry where
  | aside (asked : Asked)
  | contact (c : Contact)

def Entry.log : Entry → List Asked
  | aside asked => [asked]
  | contact c => c.log

abbrev Journal := List Entry

def Journal.log (journal : Journal) : List Asked := journal.flatMap Entry.log

def Op.IsAside : Op → Prop
  | drawId | knownAddresses _ | findAddresses _ | inBook .. | registerPeer .. | evictPeer .. => True
  | transmit _ datagram => ∃ id e, datagram = (Message.ofEndpoint id .natTraversalRequest e).encode
  | _ => False

namespace Contact

inductive Made (n : Node) (m : Message) : Contact → Prop
  | send {target : Address} {log : List Asked} {r : Except RequestError Message}
      (path : (n.exchange target m).run.After log (.done r)) : Made n m ⟨false, target, log, failureOf r⟩
  | greet {target : Address} {log : List Asked} {r : Except RequestError String}
      (path : (n.greet target).run.After log (.done r)) : Made n m ⟨true, target, log, failureOf r⟩

end Contact

def Entry.Made (n : Node) (m : Message) : Entry → Prop
  | aside asked => asked.op.IsAside
  | contact c => c.Made n m

namespace Contact

def Struck (journal : Journal) (target : Address) : Prop :=
  ∃ g cause, .contact g ∈ journal ∧ g.greets = true ∧ g.target = target ∧ g.failure = some cause ∧
    cause.isHard = true

/-- A Hello to an address where one has failed hard before is part of a traversal. -/
def InTraversal (before : Journal) (c : Contact) : Prop :=
  c.greets = true ∧ Struck before c.target

/-- A contact that fails softly, and not in a traversal. -/
structure Ends (before : Journal) (c : Contact) (cause : RequestError) : Prop where
  failed : c.failure = some cause
  soft : cause.isSoft = true
  outside : ¬ c.InTraversal before

end Contact

/-- No contact of a journal ends the search. -/
def Open (journal : Journal) : Prop :=
  ∀ init c rest cause, journal = init ++ .contact c :: rest → ¬ c.Ends init cause

section

variable {n : Node} {m : Message} {α β : Type} {journal before : Journal} {log : List Asked}

theorem open_nil : Open [] := by
  intro init c rest cause h
  simp at h

theorem open_concat {entry : Entry} : Open (journal ++ [entry]) ↔
    Open journal ∧ ∀ c cause, entry = .contact c → ¬ c.Ends journal cause := by
  constructor
  · intro h
    refine ⟨fun init c rest cause hj => ?_, fun c cause hc => h journal c [] cause (by rw [hc])⟩
    exact h init c (rest ++ [entry]) cause (by simp [hj])
  · rintro ⟨hopen, hlast⟩ init c rest cause hj
    rcases List.eq_nil_or_concat rest with rfl | ⟨rest, last, rfl⟩
    · obtain ⟨rfl, hentry⟩ := List.append_inj' hj rfl
      exact hlast c cause (List.singleton_inj.mp hentry)
    · have hj' : journal ++ [entry] = (init ++ .contact c :: rest) ++ [last] := by simpa using hj
      exact hopen init c rest cause (List.append_inj' hj' rfl).1

theorem Open.aside (h : Open journal) (asked : Asked) : Open (journal ++ [.aside asked]) := by
  refine open_concat.mpr ⟨h, fun c cause hc => ?_⟩
  cases hc

/-! Programs that keep a journal. -/

/-- A program that goes on only while nothing has ended the search, and then with an aside or a contact. When it
is done, its result is what its journal allows. -/
inductive Plan (n : Node) (m : Message) {α : Type} (post : Journal → α → Prop) : Journal → Proc α → Prop
  | done {journal a} (h : post journal a) : Plan n m post journal (.done a)
  | aside {journal op next} (opened : Open journal) (kind : op.IsAside)
      (hnext : ∀ answer, Plan n m post (journal ++ [.aside ⟨op, answer⟩]) (next answer)) :
      Plan n m post journal (.ask op next)
  | send {journal target f} (opened : Open journal)
      (hnext : ∀ log r, (n.exchange target m).run.After log (.done r) →
        Plan n m post (journal ++ [.contact ⟨false, target, log, failureOf r⟩]) (f r)) :
      Plan n m post journal ((n.exchange target m).run.bind f)
  | greet {journal target f} (opened : Open journal)
      (hnext : ∀ log r, (n.greet target).run.After log (.done r) →
        Plan n m post (journal ++ [.contact ⟨true, target, log, failureOf r⟩]) (f r)) :
      Plan n m post journal ((n.greet target).run.bind f)

theorem Plan.bind {post : Journal → α → Prop} {post' : Journal → β → Prop} {p : Proc α}
    (hp : Plan n m post before p) {f : α → Proc β}
    (hf : ∀ journal a, post journal a → Plan n m post' journal (f a)) :
    Plan n m post' before (p.bind f) := by
  induction hp with
  | done h => exact hf _ _ h
  | aside opened kind _ ih => exact .aside opened kind ih
  | send opened _ ih =>
    rw [bind_bind]
    exact .send opened ih
  | greet opened _ ih =>
    rw [bind_bind]
    exact .greet opened ih

inductive UnderWay (n : Node) (m : Message) : List Asked → Prop
  | none : UnderWay n m []
  | send {target : Address} {log : List Asked} {op : Op} {next}
      (path : (n.exchange target m).run.After log (.ask op next)) : UnderWay n m log
  | greet {target : Address} {log : List Asked} {op : Op} {next}
      (path : (n.greet target).run.After log (.ask op next)) : UnderWay n m log

/-- What was asked and answered is a journal and a contact that is under way. -/
structure Recorded (n : Node) (m : Message) (journal : Journal) (current log : List Asked) : Prop where
  log : log = journal.log ++ current
  entries : ∀ entry ∈ journal, entry.Made n m
  underWay : UnderWay n m current

/-- A record of a program that has become `q`. Nothing follows on what ends the search. -/
structure Kept (n : Node) (m : Message) (post : Journal → α → Prop) (before journal : Journal)
    (current log : List Asked) (q : Proc α) : Prop extends Recorded n m journal current log where
  opened : ∀ init entry rest, journal = init ++ entry :: rest → Open (before ++ init)
  last : Open (before ++ journal) ∨ current = [] ∧ ∃ a, q = .done a
  result : ∀ a, q = .done a → post (before ++ journal) a

theorem Kept.cons {post : Journal → α → Prop} {current : List Asked} {q : Proc α} {entry : Entry}
    (h : Kept n m post (before ++ [entry]) journal current log q) (hopen : Open before)
    (hentry : entry.Made n m) :
    Kept n m post before (entry :: journal) current (entry.log ++ log) q where
  log := by rw [h.log, ← List.append_assoc, Journal.log, Journal.log, List.flatMap_cons]
  entries := List.forall_mem_cons.mpr ⟨hentry, h.entries⟩
  underWay := h.underWay
  opened init first rest hj := by
    cases init with
    | nil => rwa [List.append_nil]
    | cons x init =>
      obtain ⟨rfl, hrest⟩ := List.cons.inj hj
      have hinit := h.opened init first rest hrest
      rwa [List.append_assoc] at hinit
  last := by
    have hlast := h.last
    rwa [List.append_assoc] at hlast
  result a ha := by
    have hresult := h.result a ha
    rwa [List.append_assoc] at hresult

theorem kept_done {post : Journal → α → Prop} {a : α} (h : post before a) :
    Kept n m post before [] [] [] (.done a) where
  log := rfl
  entries _ h := absurd h List.not_mem_nil
  underWay := .none
  opened init entry rest hj := by simp at hj
  last := .inr ⟨rfl, a, rfl⟩
  result b hb := by
    cases hb
    rwa [List.append_nil]

theorem kept_underWay {post : Journal → α → Prop} (hopen : Open before) (hway : UnderWay n m log)
    {op : Op} {next : op.Answer → Proc α} : Kept n m post before [] log log (.ask op next) where
  log := rfl
  entries _ h := absurd h List.not_mem_nil
  underWay := hway
  opened init entry rest hj := by simp at hj
  last := .inl (by rwa [List.append_nil])
  result := nofun

theorem Plan.kept {post : Journal → α → Prop} {p q : Proc α} (h : Plan n m post before p)
    (hq : p.After log q) : ∃ journal current, Kept n m post before journal current log q := by
  induction h generalizing log with
  | @done journal a h =>
    obtain ⟨rfl, rfl⟩ := after_done_iff.mp hq
    exact ⟨[], [], kept_done h⟩
  | @aside journal op next opened kind _ ih =>
    rcases hq with _ | @⟨_, _, answer, rest, _, hrest⟩
    · exact ⟨[], [], kept_underWay opened .none⟩
    · obtain ⟨later, current, hkept⟩ := ih answer hrest
      exact ⟨_, current, hkept.cons opened kind⟩
  | send opened _ ih =>
    rcases after_bind hq with ⟨op, next, hpath, rfl⟩ | ⟨first, r, second, rfl, hpath, hrest⟩
    · exact ⟨[], log, kept_underWay opened (.send hpath)⟩
    · obtain ⟨later, current, hkept⟩ := ih first r hpath hrest
      exact ⟨_, current, hkept.cons opened (Contact.Made.send hpath)⟩
  | greet opened _ ih =>
    rcases after_bind hq with ⟨op, next, hpath, rfl⟩ | ⟨first, r, second, rfl, hpath, hrest⟩
    · exact ⟨[], log, kept_underWay opened (.greet hpath)⟩
    · obtain ⟨later, current, hkept⟩ := ih first r hpath hrest
      exact ⟨_, current, hkept.cons opened (Contact.Made.greet hpath)⟩

/-! Attempts. -/

def Settles (good : Journal → α → Prop) (journal : Journal) : Except RequestError α → Prop
  | .ok a => good journal a
  | .error cause =>
    if cause.isSoft then ∃ init c, journal = init ++ [.contact c] ∧ c.Ends init cause
    else Open journal

theorem plan_bind {good : Journal → α → Prop} {good' : Journal → β → Prop} {x : Attempt α}
    (hx : Plan n m (Settles good) before x.run) {f : α → Attempt β}
    (hf : ∀ journal a, good journal a → Plan n m (Settles good') journal (f a).run) :
    Plan n m (Settles good') before (x >>= f).run := by
  apply Plan.bind hx
  intro journal r hr
  cases r with
  | ok a => exact hf journal a hr
  | error cause => exact .done hr

theorem settles_of_soft {good : Journal → α → Prop} {c : Contact} {cause : RequestError}
    (hends : c.Ends journal cause) :
    Settles good (journal ++ [.contact c]) (.error cause) := by
  simp only [Settles, hends.soft, if_true]
  exact ⟨journal, c, rfl, hends⟩

theorem settles_of_hard {good : Journal → α → Prop} {cause : RequestError}
    (hhard : cause.isHard = true) (hopen : Open journal) : Settles good journal (.error cause) := by
  simp only [Settles, RequestError.isSoft, hhard]
  exact hopen

theorem run_liftM_bind (p : Proc α) (k : α → Attempt β) :
    ((liftM p : Attempt α) >>= k).run = p.bind fun a => (k a).run :=
  bind_bind _ _ _

theorem run_outcome_bind (x : Attempt α) (k : Except RequestError α → Attempt β) :
    (x.outcome >>= k).run = x.run.bind fun r => (k r).run :=
  bind_bind _ _ _

theorem isSoft_iff {cause : RequestError} : cause.isSoft = true ↔ ¬ cause.isHard = true := by
  unfold RequestError.isSoft
  simp

/-- The journal of a search that goes on: the addresses that were greeted are among those tried. -/
structure Ready (tried : List Address) (journal : Journal) : Prop where
  opened : Open journal
  greeted : ∀ c, .contact c ∈ journal → c.greets = true → c.target ∈ tried

variable {tried : List Address} {target : Address}

theorem Ready.mono {more : List Address} (h : Ready tried journal) (hsub : tried ⊆ more) :
    Ready more journal :=
  ⟨h.opened, fun c hc hgreets => hsub (h.greeted c hc hgreets)⟩

theorem Ready.concat (h : Ready tried journal) {entry : Entry}
    (hopen : ∀ c cause, entry = .contact c → ¬ c.Ends journal cause)
    (hgreets : ∀ c, entry = .contact c → c.greets = true → c.target ∈ tried) :
    Ready tried (journal ++ [entry]) := by
  refine ⟨open_concat.mpr ⟨h.opened, hopen⟩, fun c hc hc' => ?_⟩
  rcases List.mem_append.mp hc with hc | hc
  · exact h.greeted c hc hc'
  · exact hgreets c (List.mem_singleton.mp hc).symm hc'

theorem Ready.aside (h : Ready tried journal) (asked : Asked) :
    Ready tried (journal ++ [.aside asked]) :=
  h.concat (fun _ _ hc => nomatch hc) fun _ hc => nomatch hc

theorem Ready.contact (h : Ready tried journal) {c : Contact}
    (hsoft : ∀ cause, c.failure = some cause → cause.isHard = true)
    (hgreets : c.greets = true → c.target ∈ tried) : Ready tried (journal ++ [.contact c]) := by
  refine h.concat (fun c' cause hc hends => ?_) fun c' hc hc' => ?_
  · cases hc
    exact isSoft_iff.mp hends.soft (hsoft cause hends.failed)
  · cases hc
    exact hgreets hc'

theorem plan_send {good : Journal → α → Prop} (hready : Ready tried before)
    {k : Except RequestError Message → Attempt α}
    (hok : ∀ journal r, Ready tried journal → Plan n m (Settles good) journal (k (.ok r)).run)
    (hhard : ∀ journal cause, cause.isHard = true → Ready tried journal →
      Plan n m (Settles good) journal (k (.error cause)).run)
    (hsoft : ∀ cause, cause.isSoft = true → (k (.error cause)).run = .done (.error cause)) :
    Plan n m (Settles good) before ((n.exchange target m).outcome >>= k).run := by
  rw [run_outcome_bind]
  refine .send hready.opened fun log r _ => ?_
  cases r with
  | ok reply => exact hok _ reply (hready.contact nofun nofun)
  | error cause =>
    by_cases hcause : cause.isHard = true
    · refine hhard _ cause hcause (hready.contact (fun cause' hc => ?_) nofun)
      cases hc
      exact hcause
    · have hcause' := isSoft_iff.mpr hcause
      rw [hsoft cause hcause']
      exact .done (settles_of_soft ⟨rfl, hcause', fun h => nomatch h.1⟩)

theorem plan_sendToKnown {peer : String} (known : List Address) (hready : Ready tried before) :
    Plan n m (Settles fun journal _ => Ready tried journal) before (n.sendToKnown peer m known).run := by
  induction known generalizing before with
  | nil => exact .done hready
  | cons a rest ih =>
    refine plan_send hready (fun journal r h => .done h) (fun journal cause hcause h => ?_)
      fun cause hcause => ?_
    · simp only [hcause, if_true]
      exact .aside h.opened trivial fun _ => ih (h.aside _)
    · simp only [isSoft_iff.mp hcause]
      rfl

/-! Traversal. -/

structure Traversing (tried : List Address) (target : Address) (journal : Journal) : Prop
    extends Ready (target :: tried) journal where
  struck : Contact.Struck journal target

theorem Struck.concat (h : Contact.Struck journal target) (entry : Entry) :
    Contact.Struck (journal ++ [entry]) target := by
  obtain ⟨g, cause, hg, hfailed⟩ := h
  exact ⟨g, cause, List.mem_append_left _ hg, hfailed⟩

theorem Traversing.aside (h : Traversing tried target journal) (asked : Asked) :
    Traversing tried target (journal ++ [.aside asked]) :=
  ⟨h.toReady.aside asked, Struck.concat h.struck _⟩

theorem Traversing.greeted_again (h : Traversing tried target journal) (log : List Asked)
    (failure : Option RequestError) :
    Traversing tried target (journal ++ [.contact ⟨true, target, log, failure⟩]) := by
  refine ⟨h.toReady.concat (fun c cause hc hends => ?_) fun c hc _ => ?_, Struck.concat h.struck _⟩
  · cases hc
    exact hends.outside ⟨rfl, h.struck⟩
  · cases hc
    exact List.mem_cons_self

theorem plan_serverAddresses (h : Traversing tried target before) :
    Plan n m (fun journal _ => Traversing tried target journal) before n.serverAddresses := by
  refine .aside h.opened trivial fun found => ?_
  cases found with
  | ok found => exact .done (h.aside _)
  | error cause => exact .aside (h.aside _).opened trivial fun _ => .done ((h.aside _).aside _)

theorem plan_sendToAll {request : Message}
    (hrequest : ∃ id e, request.encode = (Message.ofEndpoint id .natTraversalRequest e).encode)
    (servers : List Address) (h : Traversing tried target before) :
    Plan n m (fun journal _ => Traversing tried target journal) before
      (Node.sendToAll request.encode servers) := by
  induction servers generalizing before with
  | nil => exact .done h
  | cons a rest ih => exact .aside h.opened hrequest fun _ => ih (h.aside _)

theorem plan_traverseRounds {peer : String} {request : Message}
    (hrequest : ∃ id e, request.encode = (Message.ofEndpoint id .natTraversalRequest e).encode)
    (rounds : Nat) (h : Traversing tried target before) :
    Plan n m (fun journal _ => Traversing tried target journal) before
      (n.traverseRounds peer target request rounds).run := by
  induction rounds generalizing before with
  | zero => exact .done h
  | succ rounds ih =>
    unfold Node.traverseRounds
    rw [run_liftM_bind]
    apply (plan_serverAddresses h).bind
    intro journal servers h
    rw [run_liftM_bind]
    apply (plan_sendToAll hrequest servers h).bind
    intro journal _ h
    rw [run_outcome_bind]
    refine .greet h.opened fun log r _ => ?_
    have hgreeted := h.greeted_again log (failureOf r)
    cases r with
    | ok name => exact .done hgreeted
    | error cause =>
      dsimp only
      split
      -- A soft failure ends the rounds and nothing else.
      · exact .done hgreeted
      · refine .aside hgreeted.opened trivial fun known => ?_
        cases known with
        | true => exact .done (hgreeted.aside _)
        | false => exact ih (hgreeted.aside _)

theorem plan_traverse {peer : String} (h : Traversing tried target before) :
    Plan n m (fun journal _ => Traversing tried target journal) before (n.traverse peer target).run := by
  cases target with
  | v4 e =>
    exact .aside h.opened trivial fun id => plan_traverseRounds ⟨id, e, rfl⟩ _ (h.aside _)
  | v6 => exact .done h

theorem plan_reach {peer : String} (hready : Ready tried before) (hfresh : target ∉ tried) :
    Plan n m (Settles fun journal _ => Ready (target :: tried) journal) before
      (n.reach peer target).run := by
  have hready' : Ready (target :: tried) before := hready.mono (List.subset_cons_self _ _)
  unfold Node.reach
  rw [run_outcome_bind]
  refine .greet hready.opened fun log r _ => ?_
  cases r with
  | ok name => exact .done (hready'.contact nofun fun _ => List.mem_cons_self)
  | error cause =>
    dsimp only
    split
    · rename_i hhard
      have hstruck : Traversing tried target
          (before ++ [.contact ⟨true, target, log, some cause⟩]) := by
        refine ⟨hready'.contact (fun cause' hc => ?_) fun _ => List.mem_cons_self, ?_⟩
        · cases hc
          exact hhard
        · exact ⟨_, cause, List.mem_append_right _ List.mem_cons_self, rfl, rfl, rfl, hhard⟩
      rw [run_outcome_bind]
      apply (plan_traverse hstruck).bind
      intro journal r h
      -- Whatever came of the traversal, only whether it succeeded goes on.
      cases r <;> exact .done h.toReady
    · rename_i hhard
      refine .done (settles_of_soft ⟨rfl, isSoft_iff.mpr hhard, fun h => ?_⟩)
      -- Had a Hello failed here before, the address would be among those tried.
      obtain ⟨g, _, hg, hgreets, htarget, -⟩ := h.2
      exact hfresh (Eq.subst htarget (hready.greeted g hg hgreets))

theorem plan_sendToFresh {peer : String} (fresh : List Address) (hready : Ready tried before) :
    Plan n m (Settles fun journal _ => Open journal) before (n.sendToFresh peer m tried fresh).run := by
  induction fresh generalizing tried before with
  | nil => exact .done (settles_of_hard rfl hready.opened)
  | cons a rest ih =>
    unfold Node.sendToFresh
    split
    · exact ih hready
    · rename_i hskip
      have hfresh : a ∉ tried := by
        intro ha
        exact hskip (by simp [ha])
      apply plan_bind (plan_reach hready hfresh)
      intro journal reached h
      split
      · exact ih h
      · refine plan_send h (fun journal r h => ?_) (fun journal cause hcause h => ?_)
          fun cause hcause => ?_
        · exact .aside h.opened trivial fun _ => .done (h.aside _).opened
        · simp only [hcause, if_true]
          exact .aside h.opened trivial fun _ => ih (h.aside _)
        · simp only [isSoft_iff.mp hcause]
          rfl

theorem plan_request (n : Node) (peer : String) (m : Message) :
    Plan n m (Settles fun journal _ => Open journal) [] (n.request peer m).run := by
  have hready : Ready [] [] := ⟨open_nil, fun _ hc => absurd hc List.not_mem_nil⟩
  refine .aside hready.opened trivial fun known => ?_
  apply plan_bind (plan_sendToKnown known (hready.aside _))
  intro journal reply h
  cases reply with
  | some reply => exact .done h.opened
  | none =>
    refine .aside h.opened trivial fun found => ?_
    cases found with
    | ok fresh => exact plan_sendToFresh fresh ((h.aside _).mono (List.nil_subset _))
    | error cause => exact .done (settles_of_hard rfl (h.aside _).opened)

theorem Kept.ended {good : Journal → α → Prop} {current : List Asked} {q : Proc (Except RequestError α)}
    (h : Kept n m (Settles good) [] journal current log q)
    (hgood : ∀ journal a, good journal a → Open journal) {init rest : Journal} {c : Contact}
    {cause : RequestError} (hj : journal = init ++ .contact c :: rest) (hends : c.Ends init cause) :
    rest = [] ∧ current = [] ∧ q = .done (.error cause) := by
  have hclosed : ¬ Open journal := fun hopen => hopen init c rest cause hj hends
  obtain ⟨hcurrent, r, rfl⟩ := h.last.resolve_left hclosed
  have hresult : Settles good journal r := h.result r rfl
  cases r with
  | ok a => exact absurd (hgood journal a hresult) hclosed
  | error last =>
    simp only [Settles] at hresult
    split at hresult
    · obtain ⟨init', c', hj', hends'⟩ := hresult
      cases rest with
      | nil =>
        obtain ⟨rfl, hc⟩ := List.append_inj' (hj.symm.trans hj') rfl
        cases hc
        cases hends.failed.symm.trans hends'.failed
        exact ⟨rfl, hcurrent, rfl⟩
      | cons entry rest =>
        have hopen : Open (init ++ [.contact c]) := h.opened _ entry rest (by simpa using hj)
        exact absurd hends (hopen init c [] cause rfl)
    · exact absurd hresult hclosed

end

namespace Engine

/-- A call goes through its program, ends with what that comes to, and ends at its next turn once it is done
unless it is aborted. -/
theorem call_fate (n : Node) (e : Engine) (c : Call) (after : List Event) :
    ∃ q, (n.run c).After (e.dialogue n e.nextTask (.call c :: after)) q ∧
      (∀ o, .ended e.nextTask o ∈ (e.steps n (.call c :: after)).2 → q = .done o) ∧
      ∀ o, q = .done o → .abort e.nextTask ∉ after →
        .ended e.nextTask o ∈ (e.steps n (.call c :: (after ++ [.run e.nextTask]))).2 := by
  have hduty : ∀ next, Duty.call ≠ .keepAlive next := nofun
  have hfate := fate (n := n) hduty (Nat.lt_succ_self e.nextTask) (get?_spawn e .call (n.run c)) after
  generalize ht : ((e.spawn .call (n.run c)).2.steps n after).1.tasks.get? e.nextTask = t at hfate
  have hrecords : (e.steps n (.call c :: (after ++ [.run e.nextTask]))).2 =
      ((e.spawn .call (n.run c)).2.steps n after).2 ++
        (((e.spawn .call (n.run c)).2.steps n after).1.step n (.run e.nextTask)).2 := by
    change ((e.spawn .call (n.run c)).2.steps n (after ++ [.run e.nextTask])).2 = _
    rw [steps_append, steps_cons, steps_nil, List.append_nil]
  rw [dialogue_cons, hrecords]
  cases hfate with
  | @live _ q path silent =>
    refine ⟨q, path, fun o ho => absurd ho (silent o), fun o ho _ => ?_⟩
    subst ho
    rw [step_run_of_done ht]
    exact List.mem_append_right _ List.mem_cons_self
  | @done o path ended =>
    refine ⟨.done o, path, fun o' ho' => ?_, fun o' ho' _ => ?_⟩
    · rw [((ended o').mp ho').2]
    · cases ho'
      exact List.mem_append_left _ ((ended o).mpr ⟨rfl, rfl⟩)
  | aborted path silent abort =>
    exact ⟨_, path, fun o ho => absurd ho (silent o), fun o _ hno => absurd abort hno⟩

/-- A call that asks a peer by its name for something, up to any moment: its journal has all of its contacts.
After a contact that fails softly, and is no Hello of a traversal, it asks for nothing more, and it ends with
that failure. It ends with a soft failure only then. -/
theorem soft_failure_ends_search (n : Node) (e : Engine) (peer : String) (m : Message)
    (after : List Event) :
    let events := .call (.request peer m) :: after
    let k := e.nextTask
    ∃ journal current, Recorded n m journal current (e.dialogue n k events) ∧
      (∀ init c rest cause, journal = init ++ .contact c :: rest → c.Ends init cause →
        rest = [] ∧ current = [] ∧
        (∀ o, .ended k o ∈ (e.steps n events).2 → o = .failed cause) ∧
        (.abort k ∉ after → .ended k (.failed cause) ∈ (e.steps n (events ++ [.run k])).2)) ∧
      ∀ cause, .ended k (.failed cause) ∈ (e.steps n events).2 → cause.isSoft = true →
        ∃ init c, journal = init ++ [.contact c] ∧ c.Ends init cause := by
  intro events k
  obtain ⟨q, hpath, hended, hends⟩ := call_fate n e (.request peer m) after
  have hsearch : ∃ p, (n.request peer m).run.After (e.dialogue n k events) p ∧
      q = p.bind fun r => .done (.of .reply r) := by
    rcases after_bind hpath with ⟨op, next, hp, rfl⟩ | ⟨first, r, second, hlog, hp, hq⟩
    · exact ⟨_, hp, rfl⟩
    · obtain ⟨rfl, rfl⟩ := after_done_iff.mp hq
      rw [List.append_nil] at hlog
      exact ⟨.done r, hlog ▸ hp, rfl⟩
  obtain ⟨p, hp, rfl⟩ := hsearch
  obtain ⟨journal, current, hkept⟩ := (plan_request n peer m).kept hp
  refine ⟨journal, current, hkept.toRecorded, fun init c rest cause hj hc => ?_,
    fun cause hcause hsoft => ?_⟩
  · obtain ⟨hrest, hcurrent, rfl⟩ := hkept.ended (fun _ _ h => h) hj hc
    refine ⟨hrest, hcurrent, fun o ho => ?_, hends _ rfl⟩
    cases hended o ho
    rfl
  · have hdone := hended _ hcause
    cases p with
    | ask op next => cases hdone
    | done r =>
      cases r with
      | ok reply => cases hdone
      | error found =>
        cases hdone
        have hresult := hkept.result _ rfl
        simpa only [Settles, hsoft, if_true, List.nil_append] using hresult

/-- The Hello to the first of two addresses is answered with an error. The call ends with it, and the second
address is never contacted. -/
theorem soft_failure_ends_search_of_error_reply :
    let a : Address := .v4 ⟨#v[10, 0, 0, 1], 1000⟩
    let b : Address := .v4 ⟨#v[10, 0, 0, 2], 1000⟩
    let no : Message := ⟨0, .errorReply, [0x6e, 0x6f], none, by decide⟩
    let e := start .plain .ip4 (PeerTable.empty.setAddresses "bob" [a, b]).directory ⟨⟨[]⟩⟩
    let events : List Event := .call (.request "bob" (.empty 7 .root)) ::
      (List.replicate 6 (.run 0) ++ [.receive a no.encode, .run 0, .run 0])
    .ended 0 (.failed (.errorReply "no")) ∈ (e.steps .plain events).2 ∧
      ∃ init c, Recorded .plain (.empty 7 .root) (init ++ [.contact c]) [] (e.dialogue .plain 0 events) ∧
        c.Ends init (.errorReply "no") := by
  intro a b no e events
  have hended : .ended 0 (.failed (.errorReply "no")) ∈ (e.steps .plain events).2 := by decide +kernel
  refine ⟨hended, ?_⟩
  obtain ⟨journal, current, hrecorded, hlast, hsoft⟩ :=
    soft_failure_ends_search .plain e "bob" (.empty 7 .root)
      (List.replicate 6 (.run 0) ++ [.receive a no.encode, .run 0, .run 0])
  obtain ⟨init, c, rfl, hends⟩ := hsoft _ hended rfl
  obtain ⟨-, rfl, -⟩ := hlast init c [] _ rfl hends
  exact ⟨init, c, hrecorded, hends⟩

/-- The first of two addresses is silent until the traversal, and then it answers the Hello with an error. The
call greets the second address all the same, and when this is silent nothing is left of the error. -/
theorem soft_failure_in_traversal_lost :
    let a : Address := .v4 ⟨#v[10, 0, 0, 1], 1000⟩
    let b : Address := .v4 ⟨#v[10, 0, 0, 2], 1000⟩
    let no : Message := ⟨2, .errorReply, [0x6e, 0x6f], none, by decide⟩
    let e := start .plain .ip4 (PeerTable.empty.setAddresses "bob" [a, b]).directory ⟨⟨[]⟩⟩
    let runs : List Event := List.replicate 12 (.run 0)
    let silence : List Event := .pass 100 100 :: runs
    let events := .call (.request "bob" (.empty 7 .root)) :: runs ++ silence ++ silence ++
      .receive a no.encode :: runs ++ silence ++ silence ++ silence ++ silence
    (∃ before hello later, e.dialogue .plain 0 events = before ++ hello ++ later ∧
        (Node.plain.greet a).run.After hello (.done (.error (.errorReply "no"))) ∧
        later.any fun asked => match asked.op with
          | .transmit target _ => target = b
          | _ => false) ∧
      (RequestError.errorReply "no").isSoft = true ∧
      .ended 0 (.failed (.unreachable "bob")) ∈ (e.steps .plain events).2 := by
  intro a b no e runs silence events
  refine ⟨?_, rfl, by decide +kernel⟩
  refine ⟨(e.dialogue .plain 0 events).take 14, ((e.dialogue .plain 0 events).drop 14).take 5,
    ((e.dialogue .plain 0 events).drop 14).drop 5, ?_, after_of_result? (by decide +kernel),
    by decide +kernel⟩
  rw [List.append_assoc, List.take_append_drop, List.take_append_drop]

end Engine

end TreeShare
