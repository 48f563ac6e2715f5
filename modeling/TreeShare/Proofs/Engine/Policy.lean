import TreeShare.Proofs.Engine.Agreement
import TreeShare.Proofs.Engine.Lookups

/-! The policy for senders: what the check of a sender finds out, and which messages it then lets pass.
Main statements: `checkSender_after_iff`, the check as its dialogue tells it, and `alone_checkSender`, the
check in one state of an engine. -/
namespace TreeShare

open Proc

/-- What was found of a sender's key: nothing if there is no name to look for, else what the look-up
came to. -/
abbrev Finding := Option (Except DirectoryError (Option PublicKey))

inductive KeyedBy (peer : String) : List Asked → Except DirectoryError (Option PublicKey) → Prop
  | cached (key : Option PublicKey) : KeyedBy peer [⟨.cachedKey peer, some key⟩] (.ok key)
  | fetched (key : Option PublicKey) : KeyedBy peer
      [⟨.cachedKey peer, none⟩, ⟨.findKey peer, .ok key⟩, ⟨.rememberKey peer key, ()⟩] (.ok key)
  | failed (cause : DirectoryError) : KeyedBy peer
      [⟨.cachedKey peer, none⟩, ⟨.findKey peer, .error cause⟩] (.error cause)

namespace Message

variable {scheme : SignatureScheme} {m : Message}

inductive Admissible (scheme : SignatureScheme) (m : Message) : Finding → Prop
  | nameless : Admissible scheme m none
  | notFound (cause : DirectoryError) : Admissible scheme m (some (.error cause))
  | keyless : Admissible scheme m (some (.ok none))
  | unsigned {key : PublicKey} (absent : m.signature = none)
      (optional : m.type.mustBeSigned = false) : Admissible scheme m (some (.ok (some key)))
  | signed {key : PublicKey} {s : Signature} (present : m.signature = some s)
      (isKey : scheme.isKey key = true) (verifies : scheme.verify key m.canonical s = true) :
      Admissible scheme m (some (.ok (some key)))

inductive Faulty (scheme : SignatureScheme) (m : Message) : Finding → SignatureError → Prop
  | missing {key : PublicKey} (absent : m.signature = none) (required : m.type.mustBeSigned = true) :
      Faulty scheme m (some (.ok (some key))) .missing
  | badKey {key : PublicKey} {s : Signature} (present : m.signature = some s)
      (notKey : scheme.isKey key = false) : Faulty scheme m (some (.ok (some key))) .badKey
  | invalid {key : PublicKey} {s : Signature} (present : m.signature = some s)
      (isKey : scheme.isKey key = true) (differs : scheme.verify key m.canonical s = false) :
      Faulty scheme m (some (.ok (some key))) .invalid

theorem Faulty.not_admissible {found : Finding} {cause : SignatureError}
    (h : m.Faulty scheme found cause) : ¬ m.Admissible scheme found := by
  intro hadmissible
  cases h with
  | missing absent required =>
    cases hadmissible with
    | unsigned _ optional => rw [optional] at required; contradiction
    | signed present => rw [absent] at present; contradiction
  | badKey present notKey =>
    cases hadmissible with
    | unsigned absent => rw [absent] at present; contradiction
    | signed _ isKey => rw [notKey] at isKey; contradiction
  | invalid present isKey differs =>
    cases hadmissible with
    | unsigned absent => rw [absent] at present; contradiction
    | signed present' _ verifies =>
      cases present.symm.trans present'
      rw [differs] at verifies
      contradiction

inductive NamedBy (source : Address) (m : Message) : List Asked → Option String → Prop
  | claimed {peer : String} (claim : m.claimedName? = some peer) : NamedBy source m [] (some peer)
  | looked (name : Option String) (claim : m.claimedName? = none) :
      NamedBy source m [⟨.peerAt source, name⟩] name

inductive LookedUp (source : Address) (m : Message) : List Asked → Finding → Prop
  | nameless {log : List Asked} (name : m.NamedBy source log none) : LookedUp source m log none
  | named {first second : List Asked} {peer : String} {found : Except DirectoryError (Option PublicKey)}
      (name : m.NamedBy source first (some peer)) (key : KeyedBy peer second found) :
      LookedUp source m (first ++ second) (some found)

end Message

namespace Node

variable {n : Node} {source : Address} {m : Message} {log : List Asked}

def ruling (n : Node) (m : Message) : Finding → Except SignatureError Unit
  | none => .ok ()
  | some found => n.judge m found

theorem ruling_spec (n : Node) (m : Message) (found : Finding) :
    n.ruling m found = .ok () ∧ m.Admissible n.scheme found ∨
      ∃ cause, n.ruling m found = .error cause ∧ m.Faulty n.scheme found cause := by
  rcases found with _ | _ | _ | key
  · exact .inl ⟨rfl, .nameless⟩
  · exact .inl ⟨rfl, .notFound _⟩
  · exact .inl ⟨rfl, .keyless⟩
  · show m.checkSignature n.scheme key = .ok () ∧ _ ∨ ∃ cause, m.checkSignature n.scheme key = _ ∧ _
    unfold Message.checkSignature
    cases hs : m.signature with
    | none =>
      cases hmust : m.type.mustBeSigned with
      | false => exact .inl ⟨rfl, .unsigned hs hmust⟩
      | true => exact .inr ⟨.missing, rfl, .missing hs hmust⟩
    | some s =>
      cases hkey : n.scheme.isKey key with
      | false => exact .inr ⟨.badKey, rfl, .badKey hs hkey⟩
      | true =>
        have hverifies : m.verifies n.scheme key = n.scheme.verify key m.canonical s := by
          unfold Message.verifies
          rw [hs]
          simp only [hkey, Bool.true_and]
        simp only [hverifies, Bool.not_true, Bool.false_eq_true, if_false]
        cases hverify : n.scheme.verify key m.canonical s with
        | true => exact .inl ⟨rfl, .signed hs hkey hverify⟩
        | false => exact .inr ⟨.invalid, rfl, .invalid hs hkey hverify⟩

theorem faulty_of_ruling {found : Finding} {cause : SignatureError}
    (h : n.ruling m found = .error cause) : m.Faulty n.scheme found cause := by
  rcases n.ruling_spec m found with ⟨hok, -⟩ | ⟨cause', herror, hfaulty⟩
  · rw [hok] at h
    contradiction
  · cases herror.symm.trans h
    exact hfaulty

/-! The check as its dialogue tells it. -/

theorem senderName_after_iff {name : Option String} :
    (senderName source m).After log (.done name) ↔ m.NamedBy source log name := by
  unfold senderName
  constructor
  · intro h
    cases hclaim : m.claimedName? with
    | some peer =>
      rw [hclaim] at h
      obtain ⟨rfl, hname⟩ := after_done_iff.mp h
      cases hname
      exact .claimed hclaim
    | none =>
      rw [hclaim] at h
      obtain ⟨found, rest, rfl, hrest⟩ := after_ask_done_iff.mp h
      obtain ⟨rfl, hname⟩ := after_done_iff.mp hrest
      cases hname
      exact .looked name hclaim
  · rintro (hclaim | ⟨-, hclaim⟩) <;> rw [hclaim]
    · exact .start _
    · exact .ask (.start _)

theorem keyOf_after_iff {peer : String} {found : Except DirectoryError (Option PublicKey)} :
    (keyOf peer).After log (.done found) ↔ KeyedBy peer log found := by
  constructor
  · intro h
    obtain ⟨cached, rest, rfl, hcached⟩ := after_ask_done_iff.mp h
    cases cached with
    | some key =>
      obtain ⟨rfl, hfound⟩ := after_done_iff.mp hcached
      cases hfound
      exact .cached key
    | none =>
      obtain ⟨answer, rest, rfl, hanswer⟩ := after_ask_done_iff.mp hcached
      cases answer with
      | ok key =>
        obtain ⟨⟨⟩, rest, rfl, hstored⟩ := after_ask_done_iff.mp hanswer
        obtain ⟨rfl, hfound⟩ := after_done_iff.mp hstored
        cases hfound
        exact .fetched key
      | error cause =>
        obtain ⟨rfl, hfound⟩ := after_done_iff.mp hanswer
        cases hfound
        exact .failed cause
  · rintro (key | key | cause)
    · exact .ask (.start _)
    · exact .ask (.ask (.ask (.start _)))
    · exact .ask (.ask (.start _))

theorem checkSender_after_iff {verdict : Except SignatureError Unit} :
    (n.checkSender source m).After log (.done verdict) ↔
      ∃ found, m.LookedUp source log found ∧ verdict = n.ruling m found := by
  rw [checkSender_eq, after_bind_done_iff]
  constructor
  · rintro ⟨first, name, second, rfl, hname, hsecond⟩
    have hname := senderName_after_iff.mp hname
    cases name with
    | none =>
      obtain ⟨rfl, hverdict⟩ := after_done_iff.mp hsecond
      rw [List.append_nil]
      exact ⟨none, .nameless hname, Proc.done.inj hverdict⟩
    | some peer =>
      obtain ⟨asking, found, last, rfl, hkey, hlast⟩ := after_bind_done_iff.mp hsecond
      obtain ⟨rfl, hverdict⟩ := after_done_iff.mp hlast
      rw [List.append_nil]
      exact ⟨some found, .named hname (keyOf_after_iff.mp hkey), Proc.done.inj hverdict⟩
  · rintro ⟨found, hname | ⟨hname, hkey⟩, rfl⟩
    · exact ⟨log, none, [], (List.append_nil log).symm, senderName_after_iff.mpr hname, .start _⟩
    · exact ⟨_, some _, _, rfl, senderName_after_iff.mpr hname,
        after_bind_done_iff.mpr ⟨_, _, [], (List.append_nil _).symm, keyOf_after_iff.mpr hkey, .start _⟩⟩

theorem checkSender_asks {op : Op} {next : op.Answer → Proc (Except SignatureError Unit)}
    (h : (n.checkSender source m).After log (.ask op next)) : op.IsLookup ∧ op.OnMiss log :=
  ⟨(h.within (checkSender_within n source m)).2.2.asks,
    ((checkSender_obeys onMiss_of_keepsKeys keyOf_onMiss source m []).after h).1⟩

end Node

namespace Engine

variable {n : Node} {e : Engine}

def finding (e : Engine) (source : Address) (m : Message) : Finding :=
  (m.claimedName?.or (e.book.peerAt? source)).map fun peer => (e.keyCache.keyOf e.directory peer).1

def keysAfter (e : Engine) (source : Address) (m : Message) : KeyCache :=
  match m.claimedName?.or (e.book.peerAt? source) with
  | none => e.keyCache
  | some peer => (e.keyCache.keyOf e.directory peer).2

theorem keysAfter_spec (e : Engine) (source : Address) (m : Message) :
    e.keysAfter source m = e.keyCache ∨
      ∃ peer key, m.claimedName?.or (e.book.peerAt? source) = some peer ∧
        e.keyCache.cached? peer = none ∧ e.directory.key peer = .ok key ∧
          e.keysAfter source m = e.keyCache.insert peer key := by
  unfold keysAfter
  cases m.claimedName?.or (e.book.peerAt? source) with
  | none => exact .inl rfl
  | some peer =>
    dsimp only
    unfold KeyCache.keyOf
    cases hcached : e.keyCache.cached? peer with
    | some key => exact .inl rfl
    | none =>
      cases hkey : e.directory.key peer with
      | error cause => exact .inl rfl
      | ok key => exact .inr ⟨peer, key, rfl, hcached, hkey, rfl⟩

theorem alone_keyOf (n : Node) (e : Engine) (peer : String) :
    e.alone n (Node.keyOf peer) = some ((e.keyCache.keyOf e.directory peer).1,
      { e with keyCache := (e.keyCache.keyOf e.directory peer).2 }, []) := by
  have hcache : e.perform n (.cachedKey peer) = some (e.keyCache.cached? peer, e, []) := rfl
  have hfind : e.perform n (.findKey peer) = some (e.directory.key peer, e, []) := rfl
  unfold KeyCache.keyOf
  cases hcached : e.keyCache.cached? peer with
  | some key =>
    rw [hcached] at hcache
    exact alone_ask hcache _
  | none =>
    rw [hcached] at hcache
    cases hkey : e.directory.key peer with
    | error cause =>
      rw [hkey] at hfind
      exact (alone_ask hcache _).trans (alone_ask hfind _)
    | ok key =>
      rw [hkey] at hfind
      exact (alone_ask hcache _).trans (alone_ask hfind _)

theorem alone_checkSender (n : Node) (e : Engine) (source : Address) (m : Message) :
    e.alone n (n.checkSender source m) = some (n.ruling m (e.finding source m),
      { e with keyCache := e.keysAfter source m }, []) := by
  have hname := alone_senderName n e source m
  rw [Node.checkSender_eq]
  unfold finding keysAfter
  cases hsender : m.claimedName?.or (e.book.peerAt? source) with
  | none =>
    rw [hsender] at hname
    exact alone_bind hname rfl
  | some peer =>
    rw [hsender] at hname
    exact alone_bind hname (alone_bind (alone_keyOf n e peer) rfl)

theorem perform_lookup_spec {op : Op} (h : op.IsLookup) (n : Node) (e : Engine) :
    ∃ answer keys, e.perform n op = some (answer, { e with keyCache := keys }, []) ∧
      (keys = e.keyCache ∨
        ∃ peer key, op = .rememberKey peer key ∧ keys = e.keyCache.insert peer key) := by
  cases op with
  | peerAt | cachedKey | findKey => exact ⟨_, e.keyCache, rfl, .inl rfl⟩
  | rememberKey peer key => exact ⟨(), _, rfl, .inr ⟨peer, key, rfl, rfl⟩⟩
  | _ => exact h.elim

end Engine
end TreeShare
