import TreeShare.Proofs.Engine.Evictions
import TreeShare.Proofs.Engine.Handshake

/-! What a traversal that succeeds rests on. Main statements: `entered_at`, the grounds on which a task enters
an address into the book, and `traversal_got_through`. -/
namespace TreeShare

open Proc

def Call.SearchesFor (peer : String) : Call → Prop
  | .request p _ | .download p _ | .rootOf p | .publicKeyOf p => p = peer
  | .greet _ | .send .. | .traverse .. => False

instance (peer : String) : DecidablePred (Call.SearchesFor peer)
  | .request p _ | .download p _ | .rootOf p | .publicKeyOf p => inferInstanceAs (Decidable (p = peer))
  | .greet _ | .send .. | .traverse .. => isFalse id

/-- A dialogue ends with a greeting of an address that was answered with a HelloReply, which was taken for
valid. The greeting as such ends with a name, which it may still have to enter. -/
def AnsweredWith (n : Node) (a : Address) (r : Message) (log : List Asked) : Prop :=
  ∃ earlier asking name rest, log = earlier ++ (asking ++ rest) ∧
    rest <+: [⟨.registerPeer name a, ()⟩] ∧
    (n.greet a).run.After (asking ++ [⟨.registerPeer name a, ()⟩]) (.done (.ok name)) ∧
    r.type = .helloReply ∧ ∃ id check, Accepted n a id r check asking

/-- The grounds on which a task enters an address under a name. -/
inductive Entered (n : Node) (errand : Errand) (log : List Asked) (peer : String) (a : Address) : Prop
  /-- It serves a Hello from there that gives the name, and has just checked its sender. -/
  | hello {m : Message} {h : Hello} {earlier check : List Asked} (served : errand = .serve a m)
      (request : Request.ofMessage? m = some (.hello h)) (name : h.peer = peer)
      (just : log = earlier ++ check) (checked : (n.checkSender a m).After check (.done (.ok ())))
  /-- Its own Hello was answered. -/
  | reply {r : Message} (answered : AnsweredWith n a r log)
  /-- It has just got a reply in a search for the peer. -/
  | search {c : Call} (call : errand = .call c) (searches : c.SearchesFor peer)

def Op.Entering (n : Node) (errand : Errand) (log : List Asked) : Op → Prop
  | registerPeer peer a => Entered n errand log peer a
  | _ => True

theorem Attempt.after_bind_of_ok {α β : Type} {x : Attempt α} {f : α → Attempt β}
    {first second : List Asked} {a : α} {r : Except RequestError β}
    (hx : x.run.After first (.done (.ok a))) (hf : (f a).run.After second (.done r)) :
    (x >>= f).run.After (first ++ second) (.done r) :=
  after_bind_done_iff.mpr ⟨first, .ok a, second, rfl, hx, hf⟩

namespace Node

variable {n : Node} {errand : Errand} {log : List Asked} {peer : String} {target : Address}

theorem entering_of_plain (log : List Asked) (op : Op) (h : op.Plain log) :
    op.Entering n errand log := by
  cases op <;> first | exact trivial | exact h.elim

theorem entering_of_free (log : List Asked) (op : Op) (h : op.IsFree) :
    op.Entering n errand log := by
  cases op <;> first | exact trivial | exact h.elim

theorem answered_of_greet {a : Address} {asking : List Asked} {name : String}
    (h : (n.greet a).run.After (asking ++ [⟨.registerPeer name a, ()⟩]) (.done (.ok name)))
    {rest : List Asked} (hrest : rest <+: [⟨.registerPeer name a, ()⟩]) (earlier : List Asked) :
    ∃ r, AnsweredWith n a r (earlier ++ (asking ++ rest)) := by
  obtain ⟨asking', m, r, hlog, htype, hchecked, ⟨check, haccepted⟩, -⟩ := greet_inv h
  obtain ⟨rfl, -⟩ := List.append_inj' hlog rfl
  exact ⟨r, earlier, asking, name, rest, rfl, hrest, h, type_of_checkReply htype hchecked, m.id, check,
    haccepted⟩

theorem greet_entering (a : Address) (log : List Asked) :
    (n.greet a).run.Obeys (Op.Entering n errand) log := by
  refine ⟨trivial, fun id => ?_⟩
  apply Attempt.obeys_bind (Attempt.obeys_ofExcept _)
  intro m made hmade
  apply Attempt.obeys_bind ((exchange_plain n a m).imp entering_of_plain)
  intro reply more hreply
  apply Attempt.obeys_bind (Attempt.obeys_ofExcept _)
  intro hello read hread
  refine ⟨?_, fun _ => trivial⟩
  have hlast : (do perform (.registerPeer hello.peer a); pure hello.peer : Attempt String).run.After
      [⟨.registerPeer hello.peer a, ()⟩] (.done (.ok hello.peer)) := .ask (.start _)
  have hgreet : (n.greet a).run.After ((⟨.drawId, id⟩ :: (made ++ (more ++ read))) ++
      [⟨.registerPeer hello.peer a, ()⟩]) (.done (.ok hello.peer)) := by
    rw [List.cons_append, List.append_assoc, List.append_assoc]
    exact .ask (Attempt.after_bind_of_ok hmade (Attempt.after_bind_of_ok hreply
      (Attempt.after_bind_of_ok hread hlast)))
  obtain ⟨r, hanswered⟩ := answered_of_greet hgreet (List.nil_prefix) log
  simp only [List.append_nil] at hanswered
  have hreply : Entered n errand (log ++ ⟨.drawId, id⟩ :: (made ++ (more ++ read))) hello.peer a :=
    .reply hanswered
  simpa [Op.Entering] using hreply

section

variable {rule : List Asked → Op → Prop} (hplain : ∀ log (op : Op), op.Plain log → rule log op)
  (hgreet : ∀ a log, (n.greet a).run.Obeys rule log)
  (hregister : ∀ log a, rule log (.registerPeer peer a))
  (hevict : ∀ log a, rule log (.evictPeer peer a))
include hplain hgreet hregister hevict

omit hgreet hregister in
theorem sendToKnown_obeys_of_greet (m : Message) (known : List Address) (log : List Asked) :
    (n.sendToKnown peer m known).run.Obeys rule log := by
  induction known generalizing log with
  | nil => exact trivial
  | cons a rest ih =>
    apply Attempt.obeys_bind (Attempt.obeys_outcome ((exchange_plain n a m).imp hplain))
    intro r _ _
    cases r with
    | ok reply => exact trivial
    | error cause =>
      dsimp only
      split
      · exact ⟨hevict _ a, fun _ => ih _⟩
      · exact trivial

theorem sendToFresh_obeys_of_greet (m : Message) (tried fresh : List Address) (log : List Asked) :
    (n.sendToFresh peer m tried fresh).run.Obeys rule log := by
  have hfree : ∀ log (op : Op), op.IsFree → rule log op := fun log op h =>
    hplain log op (by cases op <;> first | exact trivial | exact h.elim)
  induction fresh generalizing tried log with
  | nil => exact trivial
  | cons a rest ih =>
    unfold sendToFresh
    split
    · exact ih tried log
    · apply Attempt.obeys_bind (reach_obeys hfree hgreet (fun log _ _ _ => hplain log _ trivial) peer a log)
      intro reached _ _
      split
      · exact ih (a :: tried) _
      · apply Attempt.obeys_bind (Attempt.obeys_outcome ((exchange_plain n a m).imp hplain))
        intro r _ _
        cases r with
        | ok reply => exact ⟨hregister _ a, fun _ => trivial⟩
        | error cause =>
          dsimp only
          split
          · exact ⟨hevict _ a, fun _ => ih (a :: tried) _⟩
          · exact trivial

theorem request_obeys_of_greet (m : Message) (log : List Asked) :
    (n.request peer m).run.Obeys rule log := by
  refine ⟨hplain _ _ trivial, fun known => ?_⟩
  apply Attempt.obeys_bind (sendToKnown_obeys_of_greet hplain hevict m known _)
  intro reply _ _
  cases reply with
  | some reply => exact trivial
  | none =>
    refine ⟨hplain _ _ trivial, fun found => ?_⟩
    cases found with
    | ok fresh => exact sendToFresh_obeys_of_greet hplain hgreet hregister hevict m known fresh _
    | error cause => exact trivial

theorem search_obeys_of_greet {c : Call} (h : c.SearchesFor peer) (log : List Asked) :
    (n.run c).Obeys rule log := by
  have hrequest := request_obeys_of_greet (n := n) hplain hgreet hregister hevict
  cases c with
  | greet target => exact h.elim
  | send target m => exact h.elim
  | traverse peer target => exact h.elim
  | request p m =>
    cases h
    exact (hrequest m log).bind fun _ _ _ => trivial
  | download p hash =>
    cases h
    have hdownload : (n.download peer hash).run.Obeys rule log := by
      refine ⟨hplain _ _ trivial, fun id => ?_⟩
      apply Attempt.obeys_bind (hrequest _ _)
      intro reply _ _
      cases reply.type <;> exact trivial
    exact hdownload.bind fun _ _ _ => trivial
  | rootOf p =>
    cases h
    have hroot : (n.rootOf peer).run.Obeys rule log := by
      refine ⟨hplain _ _ trivial, fun own => ⟨hplain _ _ trivial, fun id => ?_⟩⟩
      apply Attempt.obeys_bind (Attempt.obeys_outcome (hrequest _ _))
      intro asked _ _
      cases asked.bind statedRoot with
      | ok hash => exact trivial
      | error cause =>
        refine ⟨hplain _ _ trivial, fun found => ?_⟩
        rcases found with _ | _ | hash <;> exact trivial
    exact hroot.bind fun _ _ _ => trivial
  | publicKeyOf p =>
    cases h
    have hkey : (n.publicKeyOf peer).run.Obeys rule log := by
      refine ⟨hplain _ _ trivial, fun id => ?_⟩
      exact Attempt.obeys_bind (hrequest _ _) fun _ _ _ => trivial
    exact hkey.bind fun _ _ _ => trivial

end

theorem traverse_entering (peer : String) (target : Address) (log : List Asked) :
    (n.traverse peer target).run.Obeys (Op.Entering n errand) log :=
  traverse_obeys entering_of_free greet_entering (fun _ _ _ _ => trivial) peer target log

theorem run_entering (c : Call) (log : List Asked) :
    (n.run c).Obeys (Op.Entering n (.call c)) log := by
  have hsearch (peer : String) (h : c.SearchesFor peer) :
      (n.run c).Obeys (Op.Entering n (.call c)) log :=
    search_obeys_of_greet entering_of_plain greet_entering (fun _ _ => .search rfl h)
      (fun _ _ => trivial) h log
  cases c with
  | greet target => exact (greet_entering target log).bind fun _ _ _ => trivial
  | send target m =>
    exact ((exchange_plain n target m).imp entering_of_plain).bind fun _ _ _ => trivial
  | traverse peer target => exact (traverse_entering peer target log).bind fun _ _ _ => trivial
  | request peer m => exact hsearch peer rfl
  | download peer hash => exact hsearch peer rfl
  | rootOf peer => exact hsearch peer rfl
  | publicKeyOf peer => exact hsearch peer rfl

theorem greetServers_entering (servers : List Address) (log : List Asked) :
    (n.greetServers servers).Obeys (Op.Entering n errand) log := by
  induction servers generalizing log with
  | nil => exact trivial
  | cons a rest ih =>
    apply (greet_entering a log).bind
    intro r more hmore
    cases r with
    | ok name =>
      obtain ⟨asking, _, _, rfl, -⟩ := greet_inv hmore
      obtain ⟨r, hanswered⟩ := answered_of_greet hmore (List.prefix_refl _) log
      exact ⟨.reply hanswered, fun _ => ih _⟩
    | error cause =>
      dsimp only
      split
      · exact ⟨trivial, fun _ => ih _⟩
      · exact ih _

theorem keepAliveRound_entering (due : Nat) (log : List Asked) :
    (n.keepAliveRound due).Obeys (Op.Entering n errand) log := by
  refine ⟨trivial, fun _ => ?_⟩
  exact (serverAddresses_obeys entering_of_free n _).bind fun servers _ _ =>
    greetServers_entering servers _

theorem answer_entering {source : Address} {m : Message} {r : Request}
    (hr : Request.ofMessage? m = some r) {check : List Asked}
    (hcheck : (n.checkSender source m).After check (.done (.ok ()))) (log : List Asked) :
    (n.answer source m.id r).Obeys (Op.Entering n (.serve source m)) (log ++ check) := by
  cases r with
  | noOp | error => exact trivial
  | hello h =>
    refine ⟨.hello rfl hr rfl rfl hcheck, fun _ => ?_⟩
    dsimp only [Proc.bind]
    split
    · exact (post_plain n source _).imp entering_of_plain
    · exact trivial
  | publicKey => exact (post_plain n source _).imp entering_of_plain
  | root => exact ⟨trivial, fun _ => (post_plain n source _).imp entering_of_plain⟩
  | datum hash =>
    refine ⟨trivial, fun served => ?_⟩
    rcases served with _ | _ | reply <;> exact (post_plain n source _).imp entering_of_plain
  | relay target => exact (relayTo_plain n source target).imp entering_of_plain
  | punch initiator =>
    apply (isServer_obeys entering_of_free n source _).bind
    intro known _ _
    cases known with
    | true => exact obeys_perform trivial
    | false => exact trivial

theorem serve_entering (source : Address) (m : Message) (log : List Asked) :
    (n.serve source m).Obeys (Op.Entering n (.serve source m)) log := by
  unfold serve
  cases hr : Request.ofMessage? m with
  | none => exact trivial
  | some r =>
    apply ((checkSender_plain n source m).imp entering_of_plain).bind
    intro verdict check hcheck
    cases verdict with
    | error cause => exact trivial
    | ok => exact answer_entering hr hcheck log

theorem traverseRounds_succeeds {request : Message} {rounds : Nat}
    (h : (n.traverseRounds peer target request rounds).run.After log (.done (.ok ()))) :
    (∃ earlier greeting name, log = earlier ++ greeting ∧
      (n.greet target).run.After greeting (.done (.ok name))) ∨
    ∃ earlier, log = earlier ++ [⟨.inBook peer target, true⟩] := by
  induction rounds generalizing log with
  | zero => cases (after_done_iff.mp h).2
  | succ rounds ih =>
    obtain ⟨looking, servers, rest, rfl, -, hasking⟩ := Attempt.after_bind_ok h
    obtain ⟨sending, _, rest, rfl, -, hgreeting⟩ := Attempt.after_bind_ok hasking
    obtain ⟨greeting, r, rest, rfl, hgreet, hrest⟩ := Attempt.after_bind_ok hgreeting
    have hgreet := Attempt.after_outcome hgreet
    cases r with
    | ok name =>
      obtain ⟨rfl, -⟩ := after_done_iff.mp hrest
      exact .inl ⟨looking ++ sending, greeting, name, by simp, hgreet⟩
    | error cause =>
      dsimp only at hrest
      split at hrest
      · cases (after_done_iff.mp hrest).2
      · obtain ⟨known, later, rfl, hknown⟩ := after_ask_done_iff.mp hrest
        cases known with
        | true =>
          obtain ⟨rfl, -⟩ := after_done_iff.mp hknown
          exact .inr ⟨looking ++ (sending ++ greeting), by simp⟩
        | false =>
          let round := looking ++ (sending ++ (greeting ++ [⟨.inBook peer target, false⟩]))
          rcases ih hknown with ⟨earlier, last, name, rfl, hlast⟩ | ⟨earlier, rfl⟩
          · exact .inl ⟨round ++ earlier, last, name, by simp [round], hlast⟩
          · exact .inr ⟨round ++ earlier, by simp [round]⟩

theorem traverse_succeeds (h : (n.traverse peer target).run.After log (.done (.ok ()))) :
    (∃ earlier greeting name, log = earlier ++ greeting ∧
      (n.greet target).run.After greeting (.done (.ok name))) ∨
    ∃ earlier, log = earlier ++ [⟨.inBook peer target, true⟩] := by
  cases target with
  | v6 => cases (after_done_iff.mp h).2
  | v4 e =>
    obtain ⟨id, rest, rfl, hrounds⟩ := after_ask_done_iff.mp h
    rcases traverseRounds_succeeds hrounds with ⟨earlier, greeting, name, rfl, hgreet⟩ | ⟨earlier, rfl⟩
    · exact .inl ⟨⟨.drawId, id⟩ :: earlier, greeting, name, rfl, hgreet⟩
    · exact .inr ⟨⟨.drawId, id⟩ :: earlier, rfl⟩

end Node

namespace Engine

variable {n : Node} {s e : Engine} {before past events : List Event} {j k : Nat} {peer : String}
  {target : Address}

theorem entering_of_runs (errand : Errand) (p : Proc Outcome) (log : List Asked)
    (h : errand.Runs n p) : p.Obeys (Op.Entering n errand) log := by
  cases h with
  | call c => exact Node.run_entering c log
  | serve source m => exact obeys_silent (Node.serve_entering source m log)
  | punch a => exact obeys_silent (Node.punchRounds_obeys Node.greet_entering a _ log)
  | keepAlive due => exact obeys_silent (Node.keepAliveRound_entering due log)

/-- A task enters an address into the book for a Hello from there, for an answer to its own Hello, or in a
search for the peer. -/
theorem entered_at (hidle : Idle e)
    (hasked : (e.steps n events).1.asked? n k = some ⟨.registerPeer peer target, ()⟩) :
    ∃ errand, Started n e events k errand ∧
      Entered n errand (e.dialogue n k events) peer target :=
  obeys_at entering_of_runs hidle hasked

theorem exists_entry (habsent : target ∉ e.book.known peer)
    (hpresent : target ∈ (e.steps n events).1.book.known peer) :
    ∃ past event later, events = past ++ event :: later ∧
      (event = .register peer target ∨ ∃ j, event = .run j ∧
        (e.steps n past).1.asked? n j = some ⟨.registerPeer peer target, ()⟩) := by
  induction events generalizing e with
  | nil => exact absurd hpresent habsent
  | cons event events ih =>
    by_cases hnow : target ∈ (e.step n event).1.book.known peer
    · refine ⟨[], event, events, rfl, ?_⟩
      have hchange := bookChange_step n e event
      generalize (e.step n event).1.book = b at hchange hnow
      cases hchange with
      | keep => exact absurd hnow habsent
      | register outside =>
        obtain ⟨rfl, rfl⟩ := (PeerBook.mem_known_register.mp hnow).resolve_left habsent
        exact .inl outside
      | registerPeer run asked =>
        obtain ⟨rfl, rfl⟩ := (PeerBook.mem_known_register.mp hnow).resolve_left habsent
        exact .inr ⟨_, run, asked⟩
      | evict => exact absurd (PeerBook.mem_known_evict.mp hnow).1 habsent
      | evictPeer => exact absurd (PeerBook.mem_known_evict.mp hnow).1 habsent
    · obtain ⟨past, moment, later, rfl, hentry⟩ := ih hnow hpresent
      exact ⟨event :: past, moment, later, rfl, hentry⟩

theorem contains_of_inBook {found : Bool} (h : e.asked? n k = some ⟨.inBook peer target, found⟩) :
    e.book.contains peer target = found := by
  obtain ⟨_, _, _, -, _, _, hanswer⟩ := asked?_eq_some_iff.mp h
  exact Option.some.inj (congrArg (Option.map Prod.fst) hanswer)

theorem dialogue_of_new (hnumbered : Numbered s) (hj : (s.steps n before).1.nextTask ≤ j) :
    s.dialogue n j (before ++ events) = (s.steps n before).1.dialogue n j events := by
  have hnone : s.dialogue n j before = [] := List.eq_nil_iff_forall_not_mem.mpr fun _ hmem =>
    Nat.not_lt.mpr hj (hnumbered.lt_of_mem_dialogue hmem)
  rw [dialogue_append, hnone, List.nil_append]

theorem isSome_of_later {more : List Event} (hk : k < (e.steps n events).1.nextTask)
    (h : ((e.steps n (events ++ more)).1.tasks.get? k).isSome) :
    ((e.steps n events).1.tasks.get? k).isSome := by
  by_contra hgone
  rw [steps_append, (gone_steps hk (Option.not_isSome_iff_eq_none.mp hgone) more).1] at h
  contradiction

theorem isSome_of_asked {asked : Asked} (h : e.asked? n k = some asked) :
    (e.tasks.get? k).isSome := by
  obtain ⟨_, _, _, htask, -⟩ := asked?_eq_some_iff.mp h
  rw [htask]
  rfl

theorem call_cons_of_eq {c : Call} {after past later : List Event}
    (h : .call c :: after = past ++ .run k :: later) :
    ∃ rest, past = .call c :: rest ∧ after = rest ++ .run k :: later := by
  cases past with
  | nil => cases h
  | cons event rest =>
    obtain ⟨rfl, rfl⟩ := List.cons.inj h
    exact ⟨rest, rfl, rfl⟩

def GoesOn (n : Node) (s : Engine) (before : List Event) (c : Call) (past : List Event) : Prop :=
  ((s.steps n (before ++ .call c :: past)).1.tasks.get? (s.steps n before).1.nextTask).isSome

/-- Nothing but greetings enters an address under the name of a peer while a call goes on. It is not there
when the call is made, the user does not register it, and no search for the peer does. -/
structure Unaided (n : Node) (s : Engine) (before : List Event) (c : Call) (after : List Event)
    (peer : String) (target : Address) : Prop where
  absent : target ∉ (s.steps n before).1.book.known peer
  outside : ∀ past later, after = past ++ .register peer target :: later → ¬ GoesOn n s before c past
  search : ∀ past j later search, after = past ++ .run j :: later → GoesOn n s before c past →
    (s.steps n (before ++ .call c :: past)).1.asked? n j = some ⟨.registerPeer peer target, ()⟩ →
    Started n s (before ++ .call c :: past) j (.call search) → ¬ search.SearchesFor peer

/-- A greeting between the node and an address has got through, and task `j` is about to enter the address:
a HelloReply from there answered the Hello of the task, or the task serves a Hello from there in the name of
the peer, whose sender has passed the check. -/
inductive GotThrough (n : Node) (s : Engine) (events : List Event) (j : Nat) (peer : String)
    (target : Address) : Prop
  | answered {r : Message} {name : String}
      (enters : (s.steps n events).1.asked? n j = some ⟨.registerPeer name target, ()⟩)
      (answered : AnsweredWith n target r (s.dialogue n j events)) (heard : Heard events target r)
  | greeted {m : Message} {h : Hello} {earlier check : List Asked}
      (enters : (s.steps n events).1.asked? n j = some ⟨.registerPeer peer target, ()⟩)
      (started : Started n s events j (.serve target m))
      (request : Request.ofMessage? m = some (.hello h)) (name : h.peer = peer)
      (just : s.dialogue n j events = earlier ++ check)
      (checked : (n.checkSender target m).After check (.done (.ok ())))

theorem heard_of_answeredWith (hfresh : Fresh s) {r : Message}
    (h : AnsweredWith n target r (s.dialogue n j events)) : Heard events target r := by
  obtain ⟨earlier, asking, name, rest, hlog, -, -, -, id, check, haccepted⟩ := h
  apply heard_of_accepted hfresh haccepted
  rw [hlog]
  exact fun x hx => by simp [hx]

theorem gotThrough_of_entered (hfresh : Fresh s)
    (henters : (s.steps n events).1.asked? n j = some ⟨.registerPeer peer target, ()⟩)
    (hsearch : ∀ c, Started n s events j (.call c) → ¬ c.SearchesFor peer) :
    GotThrough n s events j peer target := by
  obtain ⟨errand, hstarted, hentered⟩ := entered_at hfresh.idle henters
  cases hentered with
  | hello served request name just checked =>
    exact .greeted henters (served ▸ hstarted) request name just checked
  | reply answered => exact .answered henters answered (heard_of_answeredWith hfresh answered)
  | search call searches => exact absurd searches (hsearch _ (call ▸ hstarted))

/-- A traversal that succeeds has got through, if nothing but greetings enters the target under the name of
the peer while it goes on: at one moment of the call a task enters the target that was just answered from
there, or greeted from there in the name of the peer. All that this task did, it did during the call, unless
it is older than the call. -/
theorem traversal_got_through (n : Node) (network : Network) (directory : Directory) (disk : Disk)
    (before after : List Event) (peer : String) (target : Address)
    (hended : .ended ((start n network directory disk).steps n before).1.nextTask .done ∈
      (((start n network directory disk).steps n before).1.steps n
        (.call (.traverse peer target) :: after)).2)
    (hunaided : Unaided n (start n network directory disk) before (.traverse peer target) after peer target) :
    let s := start n network directory disk
    let e := (s.steps n before).1
    let call : Event := .call (.traverse peer target)
    ∃ past j later, after = past ++ .run j :: later ∧
      GoesOn n s before (.traverse peer target) past ∧
      GotThrough n s (before ++ call :: past) j peer target ∧
      (e.nextTask ≤ j → s.dialogue n j (before ++ call :: past) = e.dialogue n j (call :: past)) := by
  intro s e call
  have hfresh : Fresh s := fresh_start n network directory disk
  have hnumbered : Numbered s := hfresh.idle.numbered
  have hsteps (past : List Event) : (s.steps n (before ++ past)).1 = (e.steps n past).1 := by
    rw [steps_append]
  obtain ⟨log, result, rest, hlog, hpath, hdone⟩ := after_bind_done_iff.mp (after_of_call_ended hended)
  obtain ⟨rfl, hresult⟩ := after_done_iff.mp hdone
  rw [List.append_nil] at hlog
  cases result with
  | error cause => cases hresult
  | ok =>
    rcases Node.traverse_succeeds hpath with ⟨earlier, greeting, name, rfl, hgreet⟩ | ⟨earlier, rfl⟩
    · obtain ⟨asking, _, _, rfl, -⟩ := Node.greet_inv hgreet
      rw [← List.append_assoc] at hlog
      obtain ⟨past, later, hevents, hbefore, hasked⟩ := exists_of_dialogue_eq hlog
      obtain ⟨past, rfl, rfl⟩ := call_cons_of_eq hevents
      have hown : s.dialogue n e.nextTask (before ++ call :: past) =
          e.dialogue n e.nextTask (call :: past) := dialogue_of_new hnumbered (Nat.le_refl _)
      rw [← hsteps] at hasked
      obtain ⟨r, hanswered⟩ := Node.answered_of_greet hgreet List.nil_prefix earlier
      rw [List.append_nil, ← hbefore] at hanswered
      have hanswered : AnsweredWith n target r (s.dialogue n e.nextTask (before ++ call :: past)) :=
        hown ▸ hanswered
      refine ⟨past, e.nextTask, later, rfl, ?_, .answered hasked hanswered ?_, fun _ => hown⟩
      · exact isSome_of_asked hasked
      · exact heard_of_answeredWith hfresh hanswered
    · obtain ⟨past, later, hevents, -, hasked⟩ := exists_of_dialogue_eq hlog
      obtain ⟨past, rfl, rfl⟩ := call_cons_of_eq hevents
      -- The target is in the book now and was not when the call was made.
      have hpresent : target ∈ ((e.step n call).1.steps n past).1.book.known peer :=
        of_decide_eq_true (contains_of_inBook hasked)
      have habsent : target ∉ (e.step n call).1.book.known peer := hunaided.absent
      obtain ⟨first, event, second, rfl, hentry⟩ := exists_entry habsent hpresent
      have hgoes : GoesOn n s before (.traverse peer target) first := by
        have hnow := isSome_of_asked hasked
        rw [← hsteps, ← List.cons_append, ← List.append_assoc] at hnow
        refine isSome_of_later ?_ hnow
        rw [hsteps]
        exact Nat.lt_of_lt_of_le (Nat.lt_succ_self _) (nextTask_steps n (e.step n call).1 first)
      rcases hentry with rfl | ⟨j, rfl, henters⟩
      · exact absurd hgoes (hunaided.outside first _ (List.append_assoc ..))
      · have henters : (s.steps n (before ++ call :: first)).1.asked? n j =
            some ⟨.registerPeer peer target, ()⟩ := by
          rw [hsteps]
          exact henters
        refine ⟨first, j, _, List.append_assoc .., hgoes, ?_, fun hj => dialogue_of_new hnumbered hj⟩
        exact gotThrough_of_entered hfresh henters fun c hstarted =>
          hunaided.search first j _ c (List.append_assoc ..) hgoes henters hstarted

/-- A target whose NAT swallows the Hellos of the node but lets its own out. -/
theorem traversal_got_through_from_far_side :
    let target : Address := .v4 ⟨#v[10, 0, 0, 1], 1000⟩
    let hello : Message := ⟨7, .hello, Hello.toBody ⟨0, "bob"⟩, none, by decide⟩
    let s := start .plain .ip4 PeerTable.empty.directory ⟨⟨[]⟩⟩
    let c : Call := .traverse "bob" target
    let after : List Event := List.replicate 7 (.run 0) ++ .receive target hello.encode ::
      (List.replicate 5 (.run 1) ++ .pass 100 100 :: (List.replicate 3 (.run 0) ++ .pass 100 100 ::
        List.replicate 4 (.run 0)))
    (.ended 0 .done ∈ (s.steps .plain (.call c :: after)).2 ∧
      Unaided .plain s [] c after "bob" target) ∧
    ∃ past j later, after = past ++ .run j :: later ∧ GoesOn .plain s [] c past ∧
      GotThrough .plain s (.call c :: past) j "bob" target := by
  intro target hello s c after
  have hended : .ended 0 .done ∈ (s.steps .plain (.call c :: after)).2 := by decide +kernel
  have hunaided : Unaided .plain s [] c after "bob" target := by
    refine ⟨by decide, fun past later hafter => ?_, fun past j later search hafter _ _ hstarted => ?_⟩
    · have hmem : Event.register "bob" target ∈ after := by
        rw [hafter]
        simp
      simp [after] at hmem
    · rcases List.mem_cons.mp (called_of_started hstarted) with hcall | hpast
      · cases hcall
        exact id
      · have hmem : Event.call search ∈ after := by
          rw [hafter]
          exact List.mem_append_left _ hpast
        simp [after] at hmem
  clear_value after
  obtain ⟨past, j, later, hafter, hgoes, hthrough, -⟩ := traversal_got_through .plain
    .ip4 PeerTable.empty.directory ⟨⟨[]⟩⟩ [] after "bob" target hended hunaided
  exact ⟨⟨hended, hunaided⟩, past, j, later, hafter, hgoes, hthrough⟩

/-- An entry from before the call is enough: a traversal that could send nothing, and during which nothing
arrived, succeeds. -/
theorem traversal_without_greeting :
    let n := Node.plain
    let target : Address := .v4 ⟨#v[10, 0, 0, 1], 1000⟩
    let s := start n .down PeerTable.empty.directory ⟨⟨[]⟩⟩
    let before : List Event := [.register "bob" target]
    let call : Event := .call (.traverse "bob" target)
    let after : List Event := List.replicate 9 (.run 0)
    .ended 0 .done ∈ ((s.steps n before).1.steps n (call :: after)).2 ∧
      ¬ ∃ past j later, after = past ++ .run j :: later ∧
        GotThrough n s (before ++ call :: past) j "bob" target := by
  intro n target s before call after
  refine ⟨by decide +kernel, ?_⟩
  rintro ⟨past, j, later, hafter, hthrough⟩
  have hsilent (source : Address) (datagram : Bytes) :
      Event.receive source datagram ∉ before ++ call :: past := by
    intro hmem
    have hmem : Event.receive source datagram ∈ before ++ call :: after := by
      rw [hafter]
      simp only [List.mem_append, List.mem_cons] at hmem ⊢
      tauto
    simp [before, call, after] at hmem
  cases hthrough with
  | answered _ _ heard =>
    obtain ⟨datagram, hmem, -⟩ := heard
    exact hsilent target datagram hmem
  | greeted _ started =>
    obtain ⟨datagram, hmem, -⟩ := heard_of_started started
    exact hsilent target datagram hmem

end Engine
end TreeShare
