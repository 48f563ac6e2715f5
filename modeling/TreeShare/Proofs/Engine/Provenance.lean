import TreeShare.Proofs.Engine.Authentication
import TreeShare.Proofs.Engine.Grounded
import TreeShare.Proofs.Engine.Listening
import TreeShare.Proofs.Replies.Origin

/-! Where the addresses in the book come from. Main statement: `book_provenance`. -/
namespace TreeShare.Engine

def Heard (events : List Event) (a : Address) (m : Message) : Prop :=
  ∃ datagram, .receive a datagram ∈ events ∧ heard? datagram = some m

section

variable (n : Node) (e : Engine) (peer : String) (key : PublicKey)

def Listed (events : List Event) (a : Address) : Prop :=
  ∃ past event later found, events = past ++ event :: later ∧
    (e.steps n past).1.directory.addresses peer = .ok found ∧ a ∈ found

/-- An address said to be a peer's, in a Hello or a HelloReply that bears the signature of a key. -/
def Greeted (events : List Event) (a : Address) : Prop :=
  ∃ m, Heard events a m ∧ m.claimedName? = some peer ∧ m.isSigned = true ∧
    m.verifies n.scheme key = true

/-- The directory vouched for an address as a peer's, or the key of the peer did. -/
def Vouched (events : List Event) (a : Address) : Prop :=
  Listed n e peer events a ∨ Greeted n peer key events a

/-- What an answer shows: of a peer, that the directory says this key and that its addresses are vouched
for; of a ticket, which key it was issued for and where its reply came from. -/
def Shown (keys : List ReplyKey) (events : List Event) : Asked → Prop
  | ⟨.cachedKey p, found⟩ => p = peer → ∀ a, found = some a → a = some key
  | ⟨.findKey p, found⟩ => p = peer → found = .ok (some key)
  | ⟨.findAddresses p, found⟩ => p = peer → ∀ addresses, found = .ok addresses →
      ∀ a ∈ addresses, Vouched n e peer key events a
  | ⟨.knownAddresses p, known⟩ => p = peer → ∀ a ∈ known, Vouched n e peer key events a
  | ⟨.inBook p a, known⟩ => p = peer → known = true → Vouched n e peer key events a
  | ⟨.register replyKey, t⟩ => keys[t.number]? = some replyKey
  | ⟨.awaitReply t _, wait⟩ => ∀ m, wait = .reply m →
      ∃ replyKey, keys[t.number]? = some replyKey ∧ Heard events replyKey.1 m
  | _ => True

def Grounds (keys : List ReplyKey) (events : List Event) (p : Proc Outcome) : Prop :=
  ∃ served log, (∀ a m, served = some (a, m) → Heard events a m) ∧
    (∀ asked ∈ log, Shown n e peer key keys events asked) ∧ p.Obeys (Op.Grounded n served) log

/-- All that an engine has after a run is vouched for: its book, its replies, what its tasks were told. -/
structure Sourced (keys : List ReplyKey) (events : List Event) (e' : Engine) : Prop where
  replies : e'.replies.Filed (Heard events) keys
  book : ∀ a ∈ e'.book.known peer, Vouched n e peer key events a
  tasks : ∀ k t, e'.tasks.get? k = some t → Grounds n e peer key keys events t.program

end

variable {n : Node} {e e' e'' : Engine} {peer : String} {key : PublicKey} {keys more : List ReplyKey}
  {events after : List Event} {a : Address}

/-! What was so remains so. -/

theorem Heard.later {m : Message} (h : Heard events a m) : Heard (events ++ after) a m :=
  h.imp fun _ hd => ⟨List.mem_append_left _ hd.1, hd.2⟩

theorem Vouched.later (h : Vouched n e peer key events a) :
    Vouched n e peer key (events ++ after) a := by
  rcases h with ⟨past, event, rest, found, rfl, hfound, ha⟩ | ⟨m, hm, hsigned⟩
  · exact .inl ⟨past, event, rest ++ after, found, by simp, hfound, ha⟩
  · exact .inr ⟨m, hm.later, hsigned⟩

theorem Shown.later {asked : Asked} (h : Shown n e peer key keys events asked) :
    Shown n e peer key keys (events ++ after) asked := by
  obtain ⟨op, answer⟩ := asked
  cases op <;> try exact h
  case awaitReply => exact fun m hm => (h m hm).imp fun _ hkey => ⟨hkey.1, hkey.2.later⟩
  case knownAddresses => exact fun hp a ha => (h hp a ha).later
  case inBook => exact fun hp hknown => (h hp hknown).later
  case findAddresses => exact fun hp addresses hfound a ha => (h hp addresses hfound a ha).later

theorem Shown.issued {asked : Asked} (h : Shown n e peer key keys events asked) :
    Shown n e peer key (keys ++ more) events asked := by
  obtain ⟨op, answer⟩ := asked
  cases op <;> try exact h
  case register => exact getElem?_append_of_some h
  case awaitReply =>
    exact fun m hm => (h m hm).imp fun _ hkey => ⟨getElem?_append_of_some hkey.1, hkey.2⟩

theorem Grounds.later {p : Proc Outcome} (h : Grounds n e peer key keys events p) :
    Grounds n e peer key keys (events ++ after) p := by
  obtain ⟨served, log, hserved, hlog, hp⟩ := h
  exact ⟨served, log, fun a m hm => (hserved a m hm).later,
    fun asked hmem => (hlog asked hmem).later, hp⟩

theorem Grounds.issued {p : Proc Outcome} (h : Grounds n e peer key keys events p) :
    Grounds n e peer key (keys ++ more) events p := by
  obtain ⟨served, log, hserved, hlog, hp⟩ := h
  exact ⟨served, log, hserved, fun asked hmem => (hlog asked hmem).issued, hp⟩

theorem Sourced.later (h : Sourced n e peer key keys events e') :
    Sourced n e peer key keys (events ++ after) e' where
  replies := h.replies.imp fun _ _ hm => hm.later
  book a ha := (h.book a ha).later
  tasks k t ht := (h.tasks k t ht).later

/-! What a task may do is vouched for. -/

theorem vouched_of_found {log : List Asked}
    (hlog : ∀ asked ∈ log, Shown n e peer key keys events asked) (h : Found log peer a) :
    Vouched n e peer key events a := by
  cases h with
  | listed hmem ha => exact hlog _ hmem rfl _ rfl a ha
  | known hmem ha => exact hlog _ hmem rfl a ha
  | inBook hmem => exact hlog _ hmem rfl rfl

theorem keyAnswers_of_shown {log : List Asked}
    (hlog : ∀ asked ∈ log, Shown n e peer key keys events asked) : KeyAnswers peer key log :=
  ⟨fun found hmem => hlog _ hmem rfl found rfl, fun _ hmem => hlog _ hmem rfl⟩

theorem heard_of_cameFrom {served : Option (Address × Message)} {log : List Asked} {m : Message}
    (hserved : ∀ a m, served = some (a, m) → Heard events a m)
    (hlog : ∀ asked ∈ log, Shown n e peer key keys events asked) (h : CameFrom served log a m) :
    Heard events a m := by
  cases h with
  | served h => exact hserved a m h
  | reply id t deadline hregistered htold =>
    obtain ⟨replyKey, hkey, hheard⟩ := hlog _ htold m rfl
    cases Option.some.inj (hkey.symm.trans (hlog _ hregistered))
    exact hheard

theorem mustBeSigned_of_claimedName? {m : Message} (h : m.claimedName? = some peer) :
    m.type.mustBeSigned = true := by
  have hhello : m.type.isHello = true := by
    unfold Message.claimedName? at h
    split at h
    · assumption
    · contradiction
  revert hhello
  cases m.type <;> decide

theorem vouched_of_introduced {served : Option (Address × Message)} {log : List Asked}
    (hserved : ∀ a m, served = some (a, m) → Heard events a m)
    (hlog : ∀ asked ∈ log, Shown n e peer key keys events asked)
    (h : Introduced n served log peer a) : Vouched n e peer key events a := by
  obtain ⟨m, check, hcame, hclaim, hsub, hcheck⟩ := h
  have hok := Node.checkSender_after hcheck (.inl hclaim) ((keyAnswers_of_shown hlog).mono hsub)
  obtain ⟨hverifies, hsigned⟩ := Message.checkSignature_eq_ok_iff.mp hok
  exact .inr ⟨m, heard_of_cameFrom hserved hlog hcame, hclaim,
    hsigned (mustBeSigned_of_claimedName? hclaim), hverifies⟩

/-! What a task does leaves all vouched for. -/

theorem grounds_start {p : Proc Outcome} (h : p.Obeys (Op.Grounded n none) []) :
    Grounds n e peer key keys events p :=
  ⟨none, [], nofun, nofun, h⟩

theorem Sourced.spawn (h : Sourced n e peer key keys events e') (duty : Duty) {p : Proc Outcome}
    (hp : Grounds n e peer key keys events p) : Sourced n e peer key keys events (e'.spawn duty p).2 :=
  ⟨h.replies, h.book, tasks_spawn h.tasks hp⟩

theorem Sourced.setTask (h : Sourced n e peer key keys events e') (k : Nat) {t : Task}
    (ht : Grounds n e peer key keys events t.program) :
    Sourced n e peer key keys events (e'.setTask k t) :=
  ⟨h.replies, h.book, tasks_setTask h.tasks ht⟩

theorem Sourced.endTask (h : Sourced n e peer key keys events e') (k : Nat) :
    Sourced n e peer key keys events (e'.endTask k) :=
  ⟨h.replies, h.book, tasks_endTask h.tasks⟩

theorem Sourced.with_replies (h : Sourced n e peer key keys events e')
    (hreplies : e''.replies.Filed (Heard events) keys) (hbook : e''.book = e'.book)
    (htasks : e''.tasks = e'.tasks) : Sourced n e peer key keys events e'' :=
  ⟨hreplies, hbook ▸ h.book, htasks ▸ h.tasks⟩

theorem Sourced.with_book (h : Sourced n e peer key keys events e') {b : PeerBook}
    (hb : ∀ a ∈ b.known peer, Vouched n e peer key events a) :
    Sourced n e peer key keys events { e' with book := b } :=
  ⟨h.replies, hb, h.tasks⟩

theorem Sourced.congr (h : Sourced n e peer key keys events e') (hreplies : e''.replies = e'.replies)
    (hbook : e''.book = e'.book) (htasks : e''.tasks = e'.tasks) :
    Sourced n e peer key keys events e'' :=
  h.with_replies (hreplies ▸ h.replies) hbook htasks

theorem Sourced.register (h : Sourced n e peer key keys events e') {q : String}
    (ha : q = peer → Vouched n e peer key events a) :
    Sourced n e peer key keys events { e' with book := (e'.book.register q a).2 } := by
  apply h.with_book
  intro x hx
  rcases PeerBook.mem_known_register.mp hx with hx | ⟨rfl, rfl⟩
  · exact h.book x hx
  · exact ha rfl

theorem Sourced.evict (h : Sourced n e peer key keys events e') (q : String) (a : Address) :
    Sourced n e peer key keys events { e' with book := (e'.book.evict q a).2 } :=
  h.with_book fun x hx => h.book x (PeerBook.mem_known_evict.mp hx).1

theorem Sourced.beginPunch (h : Sourced n e peer key keys events e') (a : Address) :
    Sourced n e peer key keys events (e'.beginPunch n a) := by
  unfold Engine.beginPunch
  split
  · exact h
  · have hpunches : Sourced n e peer key keys events { e' with punches := a :: e'.punches } :=
      h.congr rfl rfl rfl
    exact hpunches.spawn _ (grounds_start (grounded_silent (n.punch_grounded a)))

def issuedBy : Op → List ReplyKey
  | .register key => [key]
  | _ => []

theorem Sourced.issued (h : Sourced n e peer key keys events e') {key' : ReplyKey} :
    Sourced n e peer key (keys ++ [key']) events
      { e' with replies := (e'.replies.register key').2 } :=
  ⟨h.replies.register key', h.book, fun k t ht => (h.tasks k t ht).issued⟩

theorem Sourced.perform (h : Sourced n e peer key keys events e')
    {served : Option (Address × Message)} {log : List Asked}
    (hserved : ∀ a m, served = some (a, m) → Heard events a m)
    (hlog : ∀ asked ∈ log, Shown n e peer key keys events asked) {op : Op}
    (hop : op.Grounded n served log) {answer : op.Answer} {records : List Record}
    (hanswer : e'.perform n op = some (answer, e'', records)) :
    Sourced n e peer key (keys ++ issuedBy op) events e'' := by
  obtain rfl := eq_afterOp_of_perform hanswer
  cases op <;> simp only [issuedBy, List.append_nil]
  case register => exact h.issued
  case cancel replyKey => exact h.with_replies (h.replies.cancel replyKey) rfl rfl
  case awaitReply t deadline => exact h.with_replies (h.replies.poll t) rfl rfl
  case registerPeer q a =>
    apply h.register
    rintro rfl
    rcases hop with hfound | hintroduced
    · exact vouched_of_found hlog hfound
    · exact vouched_of_introduced hserved hlog hintroduced
  case evictPeer q a => exact h.evict q a
  case beginPunch a => exact h.beginPunch a
  all_goals exact h.congr rfl rfl rfl

theorem shown_of_perform (h : Sourced n e peer key keys events e')
    (hrun : e' = (e.steps n events).1) (hagrees : Agrees peer key e') {op : Op} {answer : op.Answer}
    {records : List Record} (hanswer : e'.perform n op = some (answer, e'', records)) (event : Event) :
    Shown n e peer key (keys ++ issuedBy op) (events ++ [event]) ⟨op, answer⟩ := by
  cases op <;> try exact trivial
  case register replyKey =>
    cases hanswer
    change (keys ++ [replyKey])[(e'.replies.register replyKey).1.number]? = some replyKey
    rw [ReplyTable.ticket_register, h.replies.issued, List.getElem?_concat_length]
  case awaitReply t deadline =>
    obtain ⟨⟨w, p⟩, hwait, hx⟩ := Option.map_eq_some_iff.mp hanswer
    cases hx
    rintro m rfl
    have hfits := h.replies.inboxes t
    rw [(poll_of_checkWait hwait).2 m rfl] at hfits
    obtain ⟨replyKey, hkey, hheard⟩ := hfits
    exact ⟨replyKey, getElem?_append_of_some hkey, hheard.later⟩
  case cachedKey q =>
    cases hanswer
    rintro rfl a ha
    exact hagrees.cached a ha
  case findKey q =>
    cases hanswer
    rintro rfl
    exact hagrees.directory
  case knownAddresses q =>
    cases hanswer
    rintro rfl a ha
    exact (h.book a ha).later
  case inBook q a =>
    cases hanswer
    rintro rfl ha
    exact (h.book a (of_decide_eq_true ha)).later
  case findAddresses q =>
    cases hanswer
    rintro rfl addresses hfound a ha
    exact .inl ⟨events, event, [], addresses, rfl, hrun ▸ hfound, ha⟩

theorem Sourced.finish (h : Sourced n e peer key keys events e') (k : Nat) (duty : Duty) (o : Outcome) :
    Sourced n e peer key keys events (e'.finish n k duty o).1 := by
  cases duty with
  | call => exact h.endTask k
  | service => exact h.endTask k
  | punch a =>
    have hpunches : Sourced n e peer key keys events
        { e' with punches := e'.punches.filter (· ≠ a) } := h.congr rfl rfl rfl
    exact hpunches.endTask k
  | keepAlive next =>
    exact h.setTask k (grounds_start (grounded_silent (n.keepAliveRound_grounded next)))

theorem heard_last {source : Address} {datagram : Bytes} {m : Message}
    (h : Message.ofDatagram (datagram.take bufferSize) = .ok m) :
    Heard (events ++ [.receive source datagram]) source m := by
  refine ⟨datagram, by simp, ?_⟩
  unfold heard?
  rw [h]
  rfl

theorem Sourced.step (h : Sourced n e peer key keys events e') (hrun : e' = (e.steps n events).1)
    (hagrees : Agrees peer key e') {event : Event} (hown : ∀ a, event ≠ .register peer a) :
    ∃ keys', Sourced n e peer key keys' (events ++ [event]) (e'.step n event).1 := by
  have hlater : Sourced n e peer key keys (events ++ [event]) e' := h.later
  have hchange := change_step n e' event
  generalize e'.step n event = stepped at hchange ⊢
  cases hchange with
  | deliver hm => exact ⟨keys, hlater.with_replies (hlater.replies.deliver (heard_last hm) _) rfl rfl⟩
  | @serve source datagram m hm =>
    refine ⟨keys, hlater.spawn _ ⟨some (source, m), [], fun a r hserved => ?_, nofun,
      grounded_silent (n.serve_grounded source m)⟩⟩
    cases hserved
    exact heard_last hm
  | call c => exact ⟨keys, hlater.spawn _ (grounds_start (n.run_grounded c))⟩
  | keepAlive =>
    exact ⟨keys, hlater.spawn _ (grounds_start (grounded_silent (n.keepAliveRound_grounded _)))⟩
  | @abort k t =>
    have hfiled : (t.ticket.elim e'.replies e'.replies.abandon).Filed
        (Heard (events ++ [.abort k])) keys := by
      cases t.ticket with
      | none => exact hlater.replies
      | some ticket => exact hlater.replies.abandon ticket
    have hreplies : Sourced n e peer key keys (events ++ [.abort k]) { e' with
        replies := t.ticket.elim e'.replies e'.replies.abandon } := hlater.with_replies hfiled rfl rfl
    exact ⟨keys, hreplies.endTask k⟩
  | finish => exact ⟨keys, hlater.finish _ _ _⟩
  | @answer k duty ticket op next a e'' records htask hanswer =>
    obtain ⟨served, log, hserved, hlog, hobeys⟩ := h.tasks k _ htask
    have hperformed : Sourced n e peer key (keys ++ issuedBy op) (events ++ [.run k]) e'' :=
      (h.perform hserved hlog hobeys.1 hanswer).later
    have hserved' (b : Address) (m : Message) (hm : served = some (b, m)) :
        Heard (events ++ [.run k]) b m := (hserved b m hm).later
    refine ⟨keys ++ issuedBy op, hperformed.setTask k
      ⟨served, log ++ [⟨op, a⟩], hserved', fun asked hmem => ?_, hobeys.2 a⟩⟩
    rcases List.mem_append.mp hmem with hmem | hmem
    · exact (hlog asked hmem).later.issued
    · cases List.mem_singleton.mp hmem
      exact shown_of_perform h hrun hagrees hanswer (.run k)
  | sweep => exact ⟨keys, hlater.with_replies (hlater.replies.reap _ _) rfl rfl⟩
  | register q a =>
    refine ⟨keys, hlater.register fun hq => ?_⟩
    cases hq
    exact absurd rfl (hown a)
  | evict q a => exact ⟨keys, hlater.evict q a⟩
  | _ => exact ⟨keys, hlater.congr rfl rfl rfl⟩

theorem sourced_start (n : Node) (network : Network) (directory : Directory) (disk : Disk) (peer : String)
    (key : PublicKey) :
    Sourced n (start n network directory disk) peer key [] [] (start n network directory disk) where
  replies := .start
  book _ h := nomatch h
  tasks _ _ h := nomatch h

theorem Sourced.steps (h : Sourced n e peer key keys events (e.steps n events).1)
    (hagrees : Agrees peer key (e.steps n events).1)
    (hdirectory : ∀ d, .directory d ∈ after → d.key peer = .ok (some key))
    (hown : ∀ a, .register peer a ∉ after) :
    ∃ keys', Sourced n e peer key keys' (events ++ after) (e.steps n (events ++ after)).1 := by
  induction after generalizing events keys with
  | nil =>
    rw [List.append_nil]
    exact ⟨keys, h⟩
  | cons event after ih =>
    have hfirst : ∀ a, event ≠ .register peer a := fun a ha => hown a (by simp [ha])
    obtain ⟨keys', hstep⟩ := h.step rfl hagrees hfirst
    have hsteps : (e.steps n (events ++ [event])).1 = ((e.steps n events).1.step n event).1 := by
      rw [steps_append]
      rfl
    rw [List.append_cons]
    apply ih (hsteps ▸ hstep)
    · rw [hsteps]
      exact hagrees.step event fun d hd => hdirectory d (by simp [hd])
    · exact fun d hd => hdirectory d (by simp [hd])
    · exact fun a ha => hown a (by simp [ha])

theorem punches_finish {k : Nat} {duty : Duty} {o : Outcome}
    (h : a ∈ (e.finish n k duty o).1.punches) : a ∈ e.punches := by
  cases duty with
  | punch b => exact (List.mem_filter.mp h).1
  | _ => exact h

theorem punches_perform {op : Op} {answer : op.Answer} {records : List Record}
    (hanswer : e.perform n op = some (answer, e', records)) (h : a ∈ e'.punches) :
    a ∈ e.punches ∨ op = .beginPunch a := by
  obtain rfl := eq_afterOp_of_perform hanswer
  cases op with
  | beginPunch b =>
    dsimp only [afterOp] at h
    unfold Engine.beginPunch at h
    split at h
    · exact .inl h
    · rcases List.mem_cons.mp h with rfl | h
      · exact .inr rfl
      · exact .inl h
  | _ => exact .inl h

theorem asked_of_new_punch {event : Event} (hnew : a ∈ (e.step n event).1.punches)
    (hold : a ∉ e.punches) : ∃ k, event = .run k ∧ e.asked? n k = some ⟨.beginPunch a, ()⟩ := by
  have hchange := change_step n e event
  generalize e.step n event = stepped at hchange hnew
  cases hchange with
  | finish => exact absurd (punches_finish hnew) hold
  | @answer k duty ticket op next answer e' records htask hanswer =>
    obtain rfl := (punches_perform hanswer hnew).resolve_left hold
    exact ⟨k, rfl, asked?_eq_some_iff.mpr ⟨duty, ticket, next, htask, e', records, hanswer⟩⟩
  | _ => exact absurd hnew hold

theorem Sourced.notice_of_new_punch (h : Sourced n e n.settings.serverName key keys events e')
    {event : Event} (hnew : a ∈ (e'.step n event).1.punches) (hold : a ∉ e'.punches) :
    ∃ source m initiator, Heard events source m ∧ Request.ofMessage? m = some (.punch initiator) ∧
      a = .v4 initiator ∧ Vouched n e n.settings.serverName key events source := by
  obtain ⟨k, -, hasked⟩ := asked_of_new_punch hnew hold
  obtain ⟨duty, ticket, next, htask, -⟩ := asked?_eq_some_iff.mp hasked
  obtain ⟨served, log, hserved, hlog, hobeys⟩ := h.tasks k _ htask
  obtain ⟨source, m, initiator, hm, hrequest, ha, hfound⟩ := hobeys.1
  exact ⟨source, m, initiator, hserved source m hm, hrequest, ha, vouched_of_found hlog hfound⟩

/-- A run in which all that the directory ever says of a peer's key is one key, and in which nobody but the
engine's own tasks adds to the book for that peer. Every address that the book ever has for it was listed by
the directory before, or came with a Hello or HelloReply in the peer's name that bears the key's signature.
If the peer is the server, a punch is begun only because of a notice from such an address. -/
theorem book_provenance (n : Node) (network : Network) (directory : Directory) (disk : Disk)
    {events : List Event} {peer : String} {key : PublicKey}
    (hkey : directory.key peer = .ok (some key))
    (hdirectory : ∀ d, .directory d ∈ events → d.key peer = .ok (some key))
    (hown : ∀ a, .register peer a ∉ events) :
    let e := start n network directory disk
    (∀ past later, events = past ++ later →
      ∀ a ∈ (e.steps n past).1.book.known peer, Vouched n e peer key past a) ∧
    (peer = n.settings.serverName → ∀ past event later, events = past ++ event :: later →
      ∀ a, a ∉ (e.steps n past).1.punches → a ∈ (e.steps n (past ++ [event])).1.punches →
        ∃ source m initiator, Heard past source m ∧ Request.ofMessage? m = some (.punch initiator) ∧
          a = .v4 initiator ∧ Vouched n e peer key past source) := by
  intro e
  have hsourced {past later : List Event} (hsplit : events = past ++ later) :
      ∃ keys, Sourced n e peer key keys past (e.steps n past).1 := by
    refine (sourced_start n network directory disk peer key).steps
      (agrees_start network directory disk hkey) ?_ ?_
    · exact fun d hd => hdirectory d (hsplit ▸ List.mem_append_left _ hd)
    · exact fun a ha => hown a (hsplit ▸ List.mem_append_left _ ha)
  constructor
  · intro past later hsplit a ha
    obtain ⟨keys, h⟩ := hsourced hsplit
    exact h.book a ha
  · rintro rfl past event later hsplit a hold hnew
    obtain ⟨keys, h⟩ := hsourced hsplit
    rw [steps_append] at hnew
    exact h.notice_of_new_punch hnew hold

/-- The server greets and signs, and then tells of an initiator. -/
theorem book_provenance_of_signed_hello :
    let a : Address := .v4 ⟨#v[10, 0, 0, 1], 1000⟩
    let initiator : Endpoint := ⟨#v[10, 0, 0, 9], 2000⟩
    let key : PublicKey := #v[107, 23, 209, 242, 225, 44, 66, 71, 248, 188, 230, 229, 99, 164, 64, 242,
      119, 3, 125, 129, 45, 235, 51, 160, 244, 161, 57, 69, 216, 152, 194, 150, 79, 227, 66, 226, 254, 26,
      127, 155, 142, 231, 235, 74, 124, 15, 158, 22, 43, 206, 51, 87, 107, 49, 94, 206, 203, 182, 64, 104,
      55, 191, 81, 245]
    let signature : Signature := #v[42, 151, 61, 221, 36, 25, 36, 206, 253, 109, 207, 41, 86, 214, 132,
      195, 57, 212, 87, 199, 25, 44, 47, 111, 135, 133, 83, 198, 40, 11, 42, 87, 90, 153, 153, 203, 73,
      218, 60, 149, 208, 38, 95, 69, 240, 203, 192, 92, 45, 108, 16, 222, 90, 222, 233, 100, 201, 39,
      240, 230, 113, 243, 254, 224]
    let hello : Message := ⟨7, .hello, [0, 0, 0, 0, 0x73, 0x65, 0x72, 0x76, 0x65, 0x72], some signature,
      by decide⟩
    let notice := Message.ofEndpoint 8 .natTraversal initiator
    let directory := (PeerTable.empty.setKey "server" (some key)).directory
    let e := start .plain .ip4 directory ⟨⟨[]⟩⟩
    let past := .receive a hello.encode :: (List.replicate 4 (.run 0) ++
      .receive a notice.encode :: List.replicate 3 (.run 1))
    (a ∈ (e.steps .plain past).1.book.known "server" ∧ Vouched .plain e "server" key past a) ∧
      (.v4 initiator ∉ (e.steps .plain past).1.punches ∧
        .v4 initiator ∈ (e.steps .plain (past ++ [.run 1])).1.punches) ∧
      ∃ source m i, Heard past source m ∧ Request.ofMessage? m = some (.punch i) ∧
        Address.v4 initiator = .v4 i ∧ Vouched .plain e "server" key past source := by
  intro a initiator key signature hello notice directory e past
  -- Runs are compared as they are written: with `e` as a value they would be evaluated.
  have he : e = start .plain .ip4 directory ⟨⟨[]⟩⟩ := rfl
  clear_value e
  subst he
  have hdirectory : ∀ d, .directory d ∈ past ++ [.run 1] → d.key "server" = .ok (some key) := by
    intro d hd
    simp [past] at hd
  have hown : ∀ b, .register "server" b ∉ past ++ [.run 1] := by
    intro b hb
    simp [past] at hb
  have hbook : a ∈ ((start .plain .ip4 directory ⟨⟨[]⟩⟩).steps .plain past).1.book.known "server" := by
    decide +kernel
  have hold : .v4 initiator ∉ ((start .plain .ip4 directory ⟨⟨[]⟩⟩).steps .plain past).1.punches := by
    decide +kernel
  have hnew : .v4 initiator ∈
      ((start .plain .ip4 directory ⟨⟨[]⟩⟩).steps .plain (past ++ [.run 1])).1.punches := by
    decide +kernel
  have hkey : directory.key "server" = .ok (some key) := by decide +kernel
  obtain ⟨hvouched, hpunched⟩ := book_provenance .plain .ip4 directory ⟨⟨[]⟩⟩ hkey hdirectory hown
  have hserver := hvouched past [.run 1] rfl a hbook
  have hnotice := hpunched rfl past (.run 1) [] rfl _ hold hnew
  exact ⟨⟨hbook, hserver⟩, ⟨hold, hnew⟩, hnotice⟩

end TreeShare.Engine
