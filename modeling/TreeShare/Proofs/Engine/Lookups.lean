import Mathlib.Data.List.Infix
import TreeShare.Proofs.Engine.Remembering

/-! Lookups of keys side by side, by themselves and by all tasks that check a sender. Main statement:
`one_key_per_peer`, what holds of them as long as no two look for the key of one peer at the same time. -/
namespace TreeShare

open Proc

/-- A key is remembered only right after the cache had none and the directory told it. -/
def Op.OnMiss (log : List Asked) : Op → Prop
  | rememberKey peer key => ∃ before, log = before ++ [⟨cachedKey peer, none⟩, ⟨findKey peer, .ok key⟩]
  | _ => True

theorem onMiss_of_keepsKeys (log : List Asked) (op : Op) (h : op.KeepsKeys) : op.OnMiss log := by
  cases op <;> first | exact trivial | exact h.elim

/-- What a lookup has found so far: no key in the cache, and no answer but a key from the directory. -/
def Asked.look (before : Option String) : Asked → Option String
  | ⟨.cachedKey peer, none⟩ => some peer
  | ⟨.findKey _, .ok _⟩ => before
  | _ => none

/-- The peer whose key a task is about to remember, if the directory tells it. -/
def lookingFor (log : List Asked) : Option String := log.foldl Asked.look none

theorem lookingFor_concat (log : List Asked) (asked : Asked) :
    lookingFor (log ++ [asked]) = asked.look (lookingFor log) := by
  unfold lookingFor
  rw [List.foldl_append]
  rfl

theorem lookingFor_of_onMiss {log : List Asked} {peer : String} {key : Option PublicKey}
    (h : (Op.rememberKey peer key).OnMiss log) : lookingFor log = some peer := by
  obtain ⟨before, rfl⟩ := h
  unfold lookingFor
  rw [List.foldl_append]
  rfl

namespace Node

theorem keyOf_onMiss (peer : String) (log : List Asked) : (keyOf peer).Obeys Op.OnMiss log := by
  refine ⟨trivial, fun cached => ?_⟩
  cases cached with
  | some key => exact trivial
  | none =>
    refine ⟨trivial, fun found => ?_⟩
    cases found with
    | ok key => exact ⟨⟨log, by simp⟩, fun _ => trivial⟩
    | error cause => exact trivial

def lookup (peer : String) : Proc Outcome := do
  match ← keyOf peer with
  | .ok key => pure (.key key)
  | .error cause => pure (.failed (.directory cause))

theorem lookup_onMiss (peer : String) (log : List Asked) : (lookup peer).Obeys Op.OnMiss log := by
  apply (keyOf_onMiss peer log).bind
  intro found _ _
  cases found <;> exact trivial

theorem lookup_after {peer : String} {log : List Asked} {o : Outcome}
    (h : (lookup peer).After log (.done o)) :
    (∃ key, o = .key key ∧ log = [⟨.cachedKey peer, some key⟩]) ∨
      (∃ key, o = .key key ∧
        log = [⟨.cachedKey peer, none⟩, ⟨.findKey peer, .ok key⟩, ⟨.rememberKey peer key, ()⟩]) ∨
      ∃ cause, o = .failed (.directory cause) ∧
        log = [⟨.cachedKey peer, none⟩, ⟨.findKey peer, .error cause⟩] := by
  obtain ⟨cached, rest, rfl, hcached⟩ := after_ask_done_iff.mp h
  cases cached with
  | some key =>
    obtain ⟨rfl, ho⟩ := after_done_iff.mp hcached
    cases ho
    exact .inl ⟨key, rfl, rfl⟩
  | none =>
    obtain ⟨found, rest, rfl, hfound⟩ := after_ask_done_iff.mp hcached
    cases found with
    | ok key =>
      obtain ⟨⟨⟩, rest, rfl, hstored⟩ := after_ask_done_iff.mp hfound
      obtain ⟨rfl, ho⟩ := after_done_iff.mp hstored
      cases ho
      exact .inr (.inl ⟨key, rfl, rfl⟩)
    | error cause =>
      obtain ⟨rfl, ho⟩ := after_done_iff.mp hfound
      cases ho
      exact .inr (.inr ⟨cause, rfl, rfl⟩)

end Node

namespace Engine

structure Lookups (e : Engine) : Prop where
  numbered : Numbered e
  lookup : ∀ k t, e.tasks.get? k = some t → ∃ peer, t.program = Node.lookup peer

def Looking (n : Node) (e : Engine) (events : List Event) (k : Nat) (peer : String) : Prop :=
  ((e.steps n events).1.tasks.get? k).isSome ∧ lookingFor (e.dialogue n k events) = some peer

def ToldKey (n : Node) (e : Engine) (events : List Event) (k : Nat) (peer : String)
    (key : Option PublicKey) : Prop :=
  ⟨.cachedKey peer, some key⟩ ∈ e.dialogue n k events ∨ ⟨.rememberKey peer key, ()⟩ ∈ e.dialogue n k events

variable {n : Node} {e e' : Engine} {events : List Event} {k j : Nat} {peer : String}
  {key : Option PublicKey}

def cachedAfter (n : Node) (e : Engine) (events : List Event) (peer : String) :
    Option (Option PublicKey) := (e.steps n events).1.keyCache.cached? peer

def Stores (n : Node) (e : Engine) (events : List Event) (i : Nat) (peer : String) : Prop :=
  ∃ k key, events[i]? = some (.run k) ∧
    (e.steps n (events.take i)).1.asked? n k = some ⟨.rememberKey peer key, ()⟩

/-! The remembered keys change when a task remembers one, which it does as long as it is looking for it. -/

theorem keyCache_step (n : Node) (e : Engine) (event : Event) :
    (e.step n event).1.keyCache = e.keyCache ∨
      ∃ k peer key, event = .run k ∧ e.asked? n k = some ⟨.rememberKey peer key, ()⟩ ∧
        (e.step n event).1.keyCache = e.keyCache.insert peer key := by
  have hchange := change_step n e event
  generalize e.step n event = after at hchange ⊢
  cases hchange with
  | @finish k duty => exact .inl (by cases duty <;> rfl)
  | @answer k duty ticket op next answer e' records htask hanswer =>
    obtain rfl := eq_afterOp_of_perform hanswer
    cases op with
    | rememberKey peer key => exact .inr ⟨k, peer, key, rfl, asked?_of_perform htask hanswer, rfl⟩
    | beginPunch a =>
      left
      change (e.beginPunch n a).keyCache = _
      unfold beginPunch
      split <;> rfl
    | _ => exact .inl rfl
  | _ => exact .inl rfl

theorem keyCache_of_store (h : e.asked? n k = some ⟨.rememberKey peer key, ()⟩) :
    (e.step n (.run k)).1.keyCache = e.keyCache.insert peer key := by
  obtain ⟨duty, ticket, next, htask, e', records, hperform⟩ := asked?_eq_some_iff.mp h
  rw [step_run_of_answer htask hperform]
  cases hperform
  rfl

theorem Lookups.obeys (h : Lookups e) (events : List Event) (k : Nat) (t : Task)
    (ht : (e.steps n events).1.tasks.get? k = some t) :
    t.program.Obeys Op.OnMiss (e.dialogue n k events) := by
  refine obeying_steps (fun errand p log hruns => ?_) (fun k t ht => ?_) events k t ht
  · exact Node.obeys_of_keyOf onMiss_of_keepsKeys Node.keyOf_onMiss hruns log
  · obtain ⟨peer, hprogram⟩ := h.lookup k t ht
    exact hprogram ▸ Node.lookup_onMiss peer []

theorem Lookups.onMiss (h : Lookups e) (hasked : (e.steps n events).1.asked? n k =
    some ⟨.rememberKey peer key, ()⟩) : (Op.rememberKey peer key).OnMiss (e.dialogue n k events) := by
  obtain ⟨duty, ticket, next, htask, -⟩ := asked?_eq_some_iff.mp hasked
  exact (h.obeys events k _ htask).1

theorem Lookups.looking_of_store (h : Lookups e) (hasked : (e.steps n events).1.asked? n k =
    some ⟨.rememberKey peer key, ()⟩) : Looking n e events k peer := by
  obtain ⟨duty, ticket, next, htask, -⟩ := asked?_eq_some_iff.mp hasked
  exact ⟨by rw [htask]; rfl, lookingFor_of_onMiss (h.onMiss hasked)⟩

theorem cached_of_asked {cached : Option (Option PublicKey)}
    (h : e.asked? n k = some ⟨.cachedKey peer, cached⟩) : e.keyCache.cached? peer = cached := by
  obtain ⟨_, _, _, -, e', records, hperform⟩ := asked?_eq_some_iff.mp h
  cases hperform
  rfl

theorem Lookups.looking_before (h : Lookups e) {event : Event}
    (hlooking : Looking n e (events ++ [event]) k peer) :
    Looking n e events k peer ∨ cachedAfter n e events peer = none ∧ event = .run k ∧
      (e.steps n events).1.asked? n k = some ⟨.cachedKey peer, none⟩ := by
  obtain ⟨htask, hfor⟩ := hlooking
  obtain ⟨t, ht⟩ := Option.isSome_iff_exists.mp htask
  rw [steps_concat] at ht
  cases came_of_step ht with
  | stayed task turn =>
    rw [dialogue_concat_of_none turn] at hfor
    exact .inl ⟨by rw [task]; rfl, hfor⟩
  | @answered _ _ op _ answer task turn =>
    have hnow : ((e.steps n events).1.tasks.get? k).isSome := by rw [task]; rfl
    obtain ⟨turn', hturn, hasked⟩ := Option.map_eq_some_iff.mp turn
    obtain ⟨hevent, -, hasked'⟩ := turnOf_eq_some hturn
    rw [hasked] at hasked'
    rw [dialogue_concat_of_some turn, lookingFor_concat] at hfor
    unfold Asked.look at hfor
    split at hfor
    · rename_i hcached
      cases hfor
      rw [hcached] at hasked'
      exact .inr ⟨cached_of_asked hasked', hevent, hasked'⟩
    · exact .inl ⟨hnow, hfor⟩
    · contradiction
  | began runs turn fresh =>
    rw [dialogue_concat_of_none turn] at hfor
    obtain rfl | ⟨u, hu⟩ := fresh
    · -- It has asked nothing yet.
      cases hdialogue : e.dialogue n (e.steps n events).1.nextTask events with
      | nil =>
        rw [hdialogue] at hfor
        contradiction
      | cons asked rest =>
        have hlt := h.numbered.lt_of_mem_dialogue (hdialogue ▸ List.mem_cons_self)
        exact absurd hlt (Nat.lt_irrefl _)
    · exact .inl ⟨by rw [hu]; rfl, hfor⟩

theorem not_looking_after_store (hasked : (e.steps n events).1.asked? n k =
    some ⟨.rememberKey peer key, ()⟩) : ¬ Looking n e (events ++ [.run k]) k peer := by
  rintro ⟨-, hfor⟩
  have hturn : ((e.steps n events).1.turnOf n k (.run k)).map Turn.asked =
      some ⟨.rememberKey peer key, ()⟩ := by
    simp [turnOf, hasked]
  rw [dialogue_concat_of_some hturn, lookingFor_concat] at hfor
  contradiction

theorem told_before {event : Event} (h : ToldKey n e (events ++ [event]) k peer key) :
    ToldKey n e events k peer key ∨ event = .run k ∧
      (cachedAfter n e events peer = some key ∨
        (e.steps n events).1.asked? n k = some ⟨.rememberKey peer key, ()⟩) := by
  obtain h | h := h
  · obtain h | ⟨rfl, hasked⟩ := mem_dialogue_concat h
    · exact .inl (.inl h)
    · exact .inr ⟨rfl, .inl (cached_of_asked hasked)⟩
  · obtain h | ⟨rfl, hasked⟩ := mem_dialogue_concat h
    · exact .inl (.inr h)
    · exact .inr ⟨rfl, .inr hasked⟩

/-! As long as lookups of one key take turns, the first answer is the only one. -/

/-- At no moment do two tasks look for the key of a peer. -/
def InTurn (n : Node) (e : Engine) (events : List Event) (peer : String) : Prop :=
  ∀ past later, events = past ++ later → ∀ j k, Looking n e past j peer → Looking n e past k peer → j = k

theorem InTurn.earlier {more : List Event} (h : InTurn n e (events ++ more) peer) :
    InTurn n e events peer := by
  rintro past later rfl
  exact h past (later ++ more) (List.append_assoc ..)

/-- Nobody looks for a key that is remembered, and what was told is remembered. -/
structure Ledger (n : Node) (e : Engine) (events : List Event) (peer : String) : Prop where
  looking : ∀ k, Looking n e events k peer → cachedAfter n e events peer = none
  told : ∀ k key, ToldKey n e events k peer key → cachedAfter n e events peer = some key

theorem cachedAfter_concat (n : Node) (e : Engine) (events : List Event) (event : Event) (peer : String) :
    cachedAfter n e (events ++ [event]) peer =
      ((e.steps n events).1.step n event).1.keyCache.cached? peer := by
  unfold cachedAfter
  rw [steps_concat]

theorem cachedAfter_of_store (h : (e.steps n events).1.asked? n k = some ⟨.rememberKey peer key, ()⟩) :
    cachedAfter n e (events ++ [.run k]) peer = some key := by
  rw [cachedAfter_concat, keyCache_of_store h, KeyCache.cached?_insert, if_pos rfl]

theorem cachedAfter_of_not_store {event : Event} (h : ¬ ∃ k key, event = .run k ∧
    (e.steps n events).1.asked? n k = some ⟨.rememberKey peer key, ()⟩) :
    cachedAfter n e (events ++ [event]) peer = cachedAfter n e events peer := by
  rw [cachedAfter_concat]
  obtain hsame | ⟨k, peer', key, hevent, hasked, hinsert⟩ := keyCache_step n (e.steps n events).1 event
  · rw [hsame]
    rfl
  · have hne : peer ≠ peer' := by
      rintro rfl
      exact h ⟨k, key, hevent, hasked⟩
    rw [hinsert, KeyCache.cached?_insert, if_neg hne]
    rfl

theorem Lookups.ledger_step (h : Lookups e) (hledger : Ledger n e events peer)
    (hturns : ∀ j k, Looking n e events j peer → Looking n e events k peer → j = k) (event : Event) :
    Ledger n e (events ++ [event]) peer := by
  by_cases hstores : ∃ k key, event = .run k ∧
      (e.steps n events).1.asked? n k = some ⟨.rememberKey peer key, ()⟩
  · -- The one task that looks for the key remembers it.
    obtain ⟨k, key, rfl, hasked⟩ := hstores
    have hlooking := h.looking_of_store hasked
    have hnone := hledger.looking k hlooking
    constructor
    · intro j hafter
      obtain hbefore | ⟨-, hevent, hfound⟩ := h.looking_before hafter
      · exact absurd (hturns j k hbefore hlooking ▸ hafter) (not_looking_after_store hasked)
      · cases hevent
        cases hfound.symm.trans hasked
    · intro j key' htold
      obtain hbefore | ⟨hevent, hcached | hasked'⟩ := told_before htold
      · cases hnone.symm.trans (hledger.told j key' hbefore)
      · cases hnone.symm.trans hcached
      · cases hevent
        cases hasked.symm.trans hasked'
        exact cachedAfter_of_store hasked
  · have hkept := cachedAfter_of_not_store hstores
    constructor
    · intro k hlooking
      rw [hkept]
      obtain hbefore | ⟨hnone, -, -⟩ := h.looking_before hlooking
      · exact hledger.looking k hbefore
      · exact hnone
    · intro k key htold
      rw [hkept]
      obtain hbefore | ⟨hevent, hcached | hasked⟩ := told_before htold
      · exact hledger.told k key hbefore
      · exact hcached
      · exact absurd ⟨k, key, hevent, hasked⟩ hstores

theorem Lookups.ledger (h : Lookups e) (hturns : InTurn n e events peer) : Ledger n e events peer := by
  induction events using List.reverseRecOn with
  | nil =>
    refine ⟨fun k hlooking => ?_, fun k key htold => ?_⟩
    · cases hlooking.2
    · obtain htold | htold := htold <;> exact absurd htold List.not_mem_nil
  | append_singleton events event ih =>
    exact h.ledger_step (ih hturns.earlier) (hturns events [event] rfl) event

theorem Lookups.stays {more : List Event} (h : Lookups e) (hturns : InTurn n e (events ++ more) peer)
    (hcached : cachedAfter n e events peer = some key) :
    cachedAfter n e (events ++ more) peer = some key := by
  induction more using List.reverseRecOn with
  | nil => rwa [List.append_nil]
  | append_singleton more event ih =>
    rw [← List.append_assoc] at hturns ⊢
    have hbefore := ih hturns.earlier
    rw [cachedAfter_of_not_store, hbefore]
    rintro ⟨k, key', -, hasked⟩
    cases ((h.ledger hturns.earlier).looking k (h.looking_of_store hasked)).symm.trans hbefore

theorem Lookups.no_second_store (h : Lookups e) (hturns : InTurn n e events peer) {i i' : Nat}
    (hfirst : Stores n e events i peer) (hi : i < i') : ¬ Stores n e events i' peer := by
  rintro ⟨j, key', hrun', hasked'⟩
  obtain ⟨k, key, hrun, hasked⟩ := hfirst
  have hnext : events.take (i + 1) = events.take i ++ [.run k] := by
    rw [List.take_add_one, hrun, Option.toList_some]
  have hsplit : events.take (i + 1) ++ (events.take i').drop (i + 1) = events.take i' := by
    have hmin : events.take (i + 1) = (events.take i').take (i + 1) := by
      rw [List.take_take, Nat.min_eq_left hi]
    rw [hmin, List.take_append_drop]
  have hearlier : InTurn n e (events.take i') peer := by
    rw [← List.take_append_drop i' events] at hturns
    exact hturns.earlier
  have hstored : cachedAfter n e (events.take (i + 1)) peer = some key := by
    rw [hnext]
    exact cachedAfter_of_store hasked
  have hcached : cachedAfter n e (events.take i') peer = some key := by
    rw [← hsplit] at hearlier ⊢
    exact h.stays hearlier hstored
  cases ((h.ledger hearlier).looking j (h.looking_of_store hasked')).symm.trans hcached

/-- The remembered keys change only when the directory has told one that was not remembered, and a lookup that
fails leaves them as they are. -/
structure KeyChanges (n : Node) (e : Engine) (events : List Event) : Prop where
  change : ∀ past event later, events = past ++ event :: later →
    (e.steps n (past ++ [event])).1.keyCache = (e.steps n past).1.keyCache ∨
      ∃ k peer key before, event = .run k ∧
        e.dialogue n k past = before ++ [⟨.cachedKey peer, none⟩, ⟨.findKey peer, .ok key⟩] ∧
        (e.steps n (past ++ [event])).1.keyCache = (e.steps n past).1.keyCache.insert peer key
  failed : ∀ k ticket peer cause, e.tasks.get? k = some ⟨.call, ticket, Node.lookup peer⟩ →
    .ended k (.failed cause) ∈ (e.steps n events).2 → ∀ asked ∈ e.dialogue n k events, asked.op.KeepsKeys

/-- A peer has one key, for all who look for it. -/
structure OneKey (n : Node) (e : Engine) (events : List Event) (peer : String) : Prop where
  agree : ∀ j k key key', ToldKey n e events j peer key → ToldKey n e events k peer key' → key = key'
  /-- A lookup that comes to a key was told it. -/
  told : ∀ k ticket key, e.tasks.get? k = some ⟨.call, ticket, Node.lookup peer⟩ →
    .ended k (.key key) ∈ (e.steps n events).2 → ToldKey n e events k peer key
  /-- At most one answer of the directory is ever used. -/
  once : ∀ i i', Stores n e events i peer → Stores n e events i' peer → i = i'
  stays : ∀ past later key, events = past ++ later → cachedAfter n e past peer = some key →
    cachedAfter n e events peer = some key

theorem Lookups.after_of_ended (h : Lookups e) {ticket : Option Ticket} {o : Outcome}
    (htask : e.tasks.get? k = some ⟨.call, ticket, Node.lookup peer⟩)
    (hended : .ended k o ∈ (e.steps n events).2) :
    (Node.lookup peer).After (e.dialogue n k events) (.done o) :=
  Engine.after_of_ended (h.numbered k _ htask) htask hended

theorem Lookups.keyChanges (h : Lookups e) (n : Node) (events : List Event) :
    KeyChanges n e events where
  change past event later _ := by
    rw [steps_concat]
    obtain hsame | ⟨k, peer, key, rfl, hasked, hinsert⟩ := keyCache_step n (e.steps n past).1 event
    · exact .inl hsame
    · obtain ⟨before, hbefore⟩ := h.onMiss hasked
      exact .inr ⟨k, peer, key, before, rfl, hbefore, hinsert⟩
  failed k ticket peer cause htask hended asked hmem := by
    obtain ⟨_, ho, -⟩ | ⟨_, ho, -⟩ | ⟨cause', -, hlog⟩ :=
      Node.lookup_after (h.after_of_ended htask hended)
    · cases ho
    · cases ho
    · rw [hlog] at hmem
      obtain rfl | rfl : asked = ⟨.cachedKey peer, none⟩ ∨ asked = ⟨.findKey peer, .error cause'⟩ := by
        simpa using hmem
      · exact trivial
      · exact trivial

/-- The remembered keys change only by an answer of the directory. If no two tasks ever look for the key of a
peer at the same time, then whatever the directory answers meanwhile, all who are told a key of the peer are
told the same, and it is never forgotten or replaced. -/
theorem one_key_per_peer (h : Lookups e) (n : Node) (events : List Event) :
    KeyChanges n e events ∧ ∀ peer, InTurn n e events peer → OneKey n e events peer := by
  refine ⟨h.keyChanges n events, fun peer hturns => ⟨?_, ?_, ?_, ?_⟩⟩
  · intro j k key key' hj hk
    have hledger := h.ledger hturns
    exact Option.some.inj ((hledger.told j key hj).symm.trans (hledger.told k key' hk))
  · intro k ticket key htask hended
    obtain ⟨_, ho, hlog⟩ | ⟨_, ho, hlog⟩ | ⟨_, ho, -⟩ :=
      Node.lookup_after (h.after_of_ended htask hended)
    · cases ho
      exact .inl (by simp [hlog])
    · cases ho
      exact .inr (by simp [hlog])
    · cases ho
  · intro i i' hi hi'
    obtain hlt | heq | hgt := Nat.lt_trichotomy i i'
    · exact absurd hi' (h.no_second_store hturns hi hlt)
    · exact heq
    · exact absurd hi (h.no_second_store hturns hi' hgt)
  · rintro past later key rfl hcached
    exact h.stays hturns hcached

instance (n : Node) (e : Engine) (events : List Event) (k : Nat) (peer : String) :
    Decidable (Looking n e events k peer) :=
  inferInstanceAs (Decidable (_ ∧ _))

def twoLookups : Engine :=
  let e := start .plain .ip4 (PeerTable.empty.setKey "bob" none).directory ⟨⟨[]⟩⟩
  ((e.spawn .call (Node.lookup "bob")).2.spawn .call (Node.lookup "bob")).2

def keyPublished : Event := .directory (PeerTable.empty.setKey "bob" (some (Vector.replicate 64 1))).directory

theorem lookups_twoLookups : Lookups twoLookups where
  numbered := ((idle_start _ _ _ _).numbered.spawn _ _).spawn _ _
  lookup := by
    have hlookup : ∃ peer, Node.lookup "bob" = Node.lookup peer := ⟨"bob", rfl⟩
    exact tasks_spawn (T := fun t => ∃ peer, t.program = Node.lookup peer)
      (tasks_spawn (fun k t ht => by simp [start] at ht) hlookup) hlookup

/-- One after the other they come to the same, although the peer publishes a key meanwhile. -/
theorem one_key_of_lookups_in_turn :
    let events := [.run 0, .run 0, .run 0, .run 0, keyPublished, .run 1, .run 1]
    Lookups twoLookups ∧ InTurn .plain twoLookups events "bob" ∧
      (.ended 1 (.key none) ∈ (twoLookups.steps .plain events).2 ∧ KeyChanges .plain twoLookups events ∧
        OneKey .plain twoLookups events "bob") := by
  intro events
  have hturns : InTurn .plain twoLookups events "bob" := by
    intro past later hsplit j k hj hk
    have hpast : past ∈ events.inits := (List.mem_inits _ _).mpr ⟨later, hsplit.symm⟩
    have hall : ∀ past ∈ events.inits, (twoLookups.steps .plain past).1.nextTask = 2 ∧
        ∀ j < 2, ∀ k < 2, Looking .plain twoLookups past j "bob" →
          Looking .plain twoLookups past k "bob" → j = k := by decide +kernel
    have hlt (i : Nat) (hi : Looking .plain twoLookups past i "bob") : i < 2 := by
      obtain ⟨t, ht⟩ := Option.isSome_iff_exists.mp hi.1
      rw [← (hall past hpast).1]
      exact lookups_twoLookups.numbered.steps past i t ht
    exact (hall past hpast).2 j (hlt j hj) k (hlt k hk) hj hk
  obtain ⟨hchanges, hone⟩ := one_key_per_peer lookups_twoLookups .plain events
  exact ⟨lookups_twoLookups, hturns, by decide +kernel, hchanges, hone "bob" hturns⟩

/-- Two lookups that both find no key remembered: the second answer takes the place of the first. -/
theorem two_keys_of_two_lookups : Lookups twoLookups ∧
    ¬ ∀ (events : List Event) (peer : String), OneKey .plain twoLookups events peer := by
  refine ⟨lookups_twoLookups, fun hall => ?_⟩
  have hone := hall [.run 0, .run 1, .run 0, keyPublished, .run 1, .run 0, .run 0, .run 1, .run 1] "bob"
  have hfirst := hone.told 0 none none rfl (by decide +kernel)
  have hsecond := hone.told 1 none (some (Vector.replicate 64 1)) rfl (by decide +kernel)
  cases hone.agree 0 1 _ _ hfirst hsecond

end Engine
end TreeShare
