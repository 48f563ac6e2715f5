import TreeShare.Proofs.Engine.Grounded
import TreeShare.Proofs.Engine.Runs

/-! Whom a reply is authenticated as. Main statement: `reply_authenticated`. -/
namespace TreeShare.Engine

variable {n : Node} {e e' : Engine} {peer : String} {key : PublicKey}

/-- Whenever the directory was asked for the key of a peer, this was it. -/
def FoundOnly (peer : String) (key : PublicKey) (log : List Asked) : Prop :=
  ∀ answer, ⟨.findKey peer, answer⟩ ∈ log → answer = .ok (some key)

def Trusts (peer : String) (key : PublicKey) (p : Proc Outcome) : Prop :=
  ∃ log, FoundOnly peer key log ∧ p.Justified log

theorem trusts_start {served : Option (Address × Message)} {p : Proc Outcome}
    (h : p.Obeys (Op.Grounded n served) []) : Trusts peer key p :=
  ⟨[], nofun, (h.imp fun _ _ hop => hop.justified).justified (List.Subset.refl _)⟩

theorem grounded_silent {p : Proc Unit} {served : Option (Address × Message)}
    (h : p.Obeys (Op.Grounded n served) []) : (silent p).Obeys (Op.Grounded n served) [] :=
  h.bind fun _ _ _ => trivial

/-- The directory says this key of a peer, and nothing that is remembered or under way says another. -/
structure Agrees (peer : String) (key : PublicKey) (e : Engine) : Prop where
  directory : e.directory.key peer = .ok (some key)
  cached : ∀ a, e.keyCache.cached? peer = some a → a = some key
  tasks : ∀ k t, e.tasks.get? k = some t → Trusts peer key t.program

theorem Agrees.spawn (h : Agrees peer key e) (duty : Duty) {p : Proc Outcome}
    (hp : Trusts peer key p) : Agrees peer key (e.spawn duty p).2 where
  directory := h.directory
  cached := h.cached
  tasks := tasks_spawn h.tasks hp

theorem Agrees.setTask (h : Agrees peer key e) (k : Nat) {t : Task}
    (ht : Trusts peer key t.program) : Agrees peer key (e.setTask k t) where
  directory := h.directory
  cached := h.cached
  tasks := tasks_setTask h.tasks ht

theorem Agrees.endTask (h : Agrees peer key e) (k : Nat) : Agrees peer key (e.endTask k) where
  directory := h.directory
  cached := h.cached
  tasks := tasks_endTask h.tasks

theorem Agrees.congr (h : Agrees peer key e) (hdirectory : e'.directory = e.directory)
    (hcache : e'.keyCache = e.keyCache) (htasks : e'.tasks = e.tasks) : Agrees peer key e' :=
  ⟨hdirectory ▸ h.directory, hcache ▸ h.cached, htasks ▸ h.tasks⟩

theorem FoundOnly.answered {log : List Asked} (h : FoundOnly peer key log)
    (hdirectory : e.directory.key peer = .ok (some key)) {op : Op} {answer : op.Answer}
    {records : List Record} (hanswer : e.perform n op = some (answer, e', records)) :
    FoundOnly peer key (⟨op, answer⟩ :: log) := by
  intro found hfound
  rcases List.mem_cons.mp hfound with heq | hfound
  · cases heq
    cases hanswer
    exact hdirectory
  · exact h found hfound

theorem Agrees.beginPunch (h : Agrees peer key e) (a : Address) :
    Agrees peer key (e.beginPunch n a) := by
  unfold Engine.beginPunch
  split
  · exact h
  · have hpunches : Agrees peer key { e with punches := a :: e.punches } := h.congr rfl rfl rfl
    exact hpunches.spawn _ (trusts_start (grounded_silent (n.punch_grounded a)))

theorem Agrees.perform (h : Agrees peer key e) {log : List Asked} (hlog : FoundOnly peer key log)
    {op : Op} (hop : op.Justified log) {answer : op.Answer} {records : List Record}
    (hanswer : e.perform n op = some (answer, e', records)) : Agrees peer key e' := by
  obtain rfl := eq_afterOp_of_perform hanswer
  cases op with
  | rememberKey q found =>
    refine ⟨h.directory, fun a ha => ?_, h.tasks⟩
    dsimp only [afterOp] at ha
    rw [KeyCache.cached?_insert] at ha
    split at ha
    · rename_i hq
      cases hq
      cases ha
      cases hlog _ hop
      rfl
    · exact h.cached a ha
  | beginPunch a => exact h.beginPunch a
  | _ => exact h.congr rfl rfl rfl

theorem Agrees.finish (h : Agrees peer key e) (k : Nat) (duty : Duty) (o : Outcome) :
    Agrees peer key (e.finish n k duty o).1 := by
  cases duty with
  | call => exact h.endTask k
  | service => exact h.endTask k
  | punch a =>
    have hpunches : Agrees peer key { e with punches := e.punches.filter (· ≠ a) } :=
      h.congr rfl rfl rfl
    exact hpunches.endTask k
  | keepAlive next =>
    exact h.setTask k (trusts_start (grounded_silent (n.keepAliveRound_grounded next)))

theorem Agrees.step (h : Agrees peer key e) (event : Event)
    (hdirectory : ∀ d, event = .directory d → d.key peer = .ok (some key)) :
    Agrees peer key (e.step n event).1 := by
  have hchange := change_step n e event
  generalize e.step n event = after at hchange
  cases hchange with
  | serve => exact h.spawn _ (trusts_start (grounded_silent (n.serve_grounded _ _)))
  | call c => exact h.spawn _ (trusts_start (n.run_grounded c))
  | keepAlive => exact h.spawn _ (trusts_start (grounded_silent (n.keepAliveRound_grounded _)))
  | @abort k t =>
    have hreplies : Agrees peer key { e with
        replies := t.ticket.elim e.replies e.replies.abandon } := h.congr rfl rfl rfl
    exact hreplies.endTask k
  | finish => exact h.finish _ _ _
  | answer htask hanswer =>
    obtain ⟨log, hlog, hjustified⟩ := h.tasks _ _ htask
    exact (h.perform hlog hjustified.1 hanswer).setTask _
      ⟨_, hlog.answered h.directory hanswer, hjustified.2 _⟩
  | directory d => exact ⟨hdirectory d rfl, h.cached, h.tasks⟩
  | _ => exact h.congr rfl rfl rfl

theorem agrees_start (network : Network) (directory : Directory) (disk : Disk)
    (hkey : directory.key peer = .ok (some key)) : Agrees peer key (start n network directory disk) where
  directory := hkey
  cached _ h := nomatch h
  tasks _ _ h := nomatch h

theorem Agrees.steps (h : Agrees peer key e) {events : List Event}
    (hdirectory : ∀ d, .directory d ∈ events → d.key peer = .ok (some key)) :
    Agrees peer key (e.steps n events).1 := by
  have hstep (e : Engine) (event : Event) (hlegal : ∀ d, event = .directory d →
      d.key peer = .ok (some key)) (he : Agrees peer key e) : Agrees peer key (e.step n event).1 :=
    he.step event hlegal
  apply steps_invariant hstep h
  intro event hevent d hd
  cases hd
  exact hdirectory d hevent

theorem Agrees.keyAnswers (h : Agrees peer key e) {events : List Event}
    (hdirectory : ∀ d, .directory d ∈ events → d.key peer = .ok (some key)) (k : Nat) :
    KeyAnswers peer key (e.dialogue n k events) := by
  have hat {asked : Asked} (hmem : asked ∈ e.dialogue n k events) :
      ∃ past later, events = past ++ .run k :: later ∧ Agrees peer key (e.steps n past).1 ∧
        ∃ e' records, (e.steps n past).1.perform n asked.op = some (asked.answer, e', records) := by
    obtain ⟨past, later, rfl, hperform⟩ := perform_of_mem_dialogue hmem
    exact ⟨past, later, rfl, h.steps fun d hd => hdirectory d (List.mem_append_left _ hd), hperform⟩
  constructor
  · intro found hfound
    obtain ⟨past, later, -, hagrees, e', records, hperform⟩ := hat hfound
    apply hagrees.cached found
    cases hcached : (e.steps n past).1.keyCache.cached? peer <;> simp_all [Engine.perform]
  · intro found hfound
    obtain ⟨past, later, -, hagrees, e', records, hperform⟩ := hat hfound
    rw [← hagrees.directory]
    exact congrArg Prod.fst (Option.some.inj hperform).symm

/-- A reply to a request by name ended a wait at some address and passed the check there. Whatever name
the check went by, if all that the directory ever says of it is one key, the reply bears that key's
signature. -/
theorem reply_authenticated (n : Node) (network : Network) (directory : Directory) (disk : Disk)
    {before after : List Event} {peer : String} {m r : Message} :
    let e := ((start n network directory disk).steps n before).1
    let run := .call (.request peer m) :: after
    .ended e.nextTask (.reply r) ∈ (e.steps n run).2 → r.type.mustBeSigned = true →
      ∃ a check, Accepted n a m.id r check (e.dialogue n e.nextTask run) ∧
        ∀ name key, directory.key name = .ok (some key) →
          (∀ d, .directory d ∈ before ++ after → d.key name = .ok (some key)) →
          r.Attributed a check name → r.isSigned = true ∧ r.verifies n.scheme key = true := by
  intro e run hended hmust
  have hself := get?_spawn e .call (n.run (.request peer m))
  have hpath : (n.run (.request peer m)).After (e.dialogue n e.nextTask run) (.done (.reply r)) := by
    rw [dialogue_cons]
    exact after_of_ended (Nat.lt_succ_self _) hself hended
  obtain ⟨log, outcome, rest, hlog, hrequest, hdone⟩ := Proc.after_bind_done_iff.mp hpath
  obtain ⟨rfl, hr⟩ := Proc.after_done_iff.mp hdone
  cases outcome with
  | error cause => cases hr
  | ok reply =>
    cases hr
    rw [List.append_nil] at hlog
    obtain ⟨a, check, haccepted⟩ := Node.request_after hrequest
    rw [hlog]
    refine ⟨a, check, haccepted, fun name key hkey hdirectory hname => ?_⟩
    have hagrees : Agrees name key e :=
      (agrees_start network directory disk hkey).steps fun d hd => hdirectory d (by simp [hd])
    have hanswers : KeyAnswers name key log := by
      rw [← hlog]
      refine hagrees.keyAnswers (fun d hd => hdirectory d ?_) e.nextTask
      rcases List.mem_cons.mp hd with hd | hd
      · contradiction
      · exact List.mem_append_right _ hd
    obtain ⟨past, t, deadline, later, rfl, -, hcheck⟩ := haccepted
    have hok := Node.checkSender_after hcheck hname (hanswers.mono fun x hx => by simp [hx])
    obtain ⟨hverifies, hsigned⟩ := Message.checkSignature_eq_ok_iff.mp hok
    exact ⟨hsigned hmust, hverifies⟩

/-- A reply that bob signed, from where the book has him. -/
theorem reply_authenticated_of_signed_reply :
    let a : Address := .v4 ⟨#v[10, 0, 0, 1], 1000⟩
    let key : PublicKey := #v[111, 240, 59, 148, 146, 65, 206, 29, 173, 212, 53, 25, 230, 150, 14, 10,
      133, 180, 26, 105, 160, 92, 50, 129, 3, 170, 43, 206, 21, 148, 202, 22, 60, 79, 117, 58, 85, 191,
      1, 220, 83, 246, 192, 176, 199, 238, 231, 139, 64, 198, 255, 125, 37, 169, 110, 34, 130, 185, 137,
      206, 247, 28, 20, 74]
    let signature : Signature := #v[36, 170, 15, 192, 222, 254, 19, 42, 231, 105, 174, 231, 186, 74,
      249, 24, 184, 145, 213, 95, 89, 103, 246, 57, 254, 76, 250, 66, 108, 232, 224, 82, 43, 74, 238, 29,
      161, 193, 12, 236, 184, 3, 165, 239, 194, 58, 246, 57, 252, 215, 39, 86, 15, 19, 189, 22, 152, 163,
      116, 116, 3, 194, 25, 236]
    let r := (Message.empty 7 .rootReply).withSignature signature
    let directory := (PeerTable.empty.setKey "bob" (some key)).directory
    let e := ((start .plain .ip4 directory ⟨⟨[]⟩⟩).steps .plain [.register "bob" a]).1
    let run := .call (.request "bob" (.empty 7 .root)) :: (List.replicate 4 (.run 0) ++
      .receive a r.encode :: List.replicate 6 (.run 0))
    .ended e.nextTask (.reply r) ∈ (e.steps .plain run).2 ∧
      ∃ source check, Accepted .plain source 7 r check (e.dialogue .plain e.nextTask run) := by
  intro a key signature r directory e run
  have hended : .ended e.nextTask (.reply r) ∈ (e.steps .plain run).2 := by decide +kernel
  obtain ⟨source, check, haccepted, -⟩ :=
    reply_authenticated .plain .ip4 directory ⟨⟨[]⟩⟩ hended rfl
  exact ⟨hended, source, check, haccepted⟩

/-- All that the directory ever says of bob is one key. An unsigned reply answers the request to bob all
the same, from an address that said to be eve. -/
theorem unsigned_reply_accepted :
    let a : Address := .v4 ⟨#v[10, 0, 0, 1], 1000⟩
    let key : PublicKey := Vector.replicate 64 1
    let directory := ((PeerTable.empty.setAddresses "bob" [a]).setKey "bob" (some key)).directory
    let hello : Message := ⟨0, .helloReply, [0, 0, 0, 0, 0x65, 0x76, 0x65], none, by decide⟩
    let r := Message.empty 7 .rootReply
    directory.key "bob" = .ok (some key) ∧ r.type.mustBeSigned = true ∧ r.isSigned = false ∧
      .ended 0 (.reply r) ∈ ((start .plain .ip4 directory ⟨⟨[]⟩⟩).steps .plain
        (.call (.request "bob" (.empty 7 .root)) :: (List.replicate 6 (.run 0) ++
          .receive a hello.encode :: (List.replicate 7 (.run 0) ++
            .receive a r.encode :: List.replicate 6 (.run 0))))).2 := by
  intro a key directory hello r
  exact ⟨rfl, rfl, rfl, by decide +kernel⟩

end TreeShare.Engine
