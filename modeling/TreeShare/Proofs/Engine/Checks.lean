import TreeShare.Engine.Service
import TreeShare.Proofs.Engine.Dialogue

/-! The check of a sender: what it asks, and what a message that passes it has shown. -/
namespace TreeShare

/-- The questions of a check. None of them sends anything or has to wait. -/
def Op.IsLookup : Op → Prop
  | peerAt _ | cachedKey _ | findKey _ | rememberKey .. => True
  | _ => False

/-- A check takes this name for the sender's: the message claims it, or claims none and the book had it
there when the check began. -/
def Message.Attributed (m : Message) (source : Address) (check : List Asked) (peer : String) : Prop :=
  m.claimedName? = some peer ∨
    m.claimedName? = none ∧ check.head? = some ⟨.peerAt source, some peer⟩

structure KeyAnswers (peer : String) (key : PublicKey) (log : List Asked) : Prop where
  cached : ∀ a, ⟨.cachedKey peer, some a⟩ ∈ log → a = some key
  found : ∀ a, ⟨.findKey peer, a⟩ ∈ log → a = .ok (some key)

theorem KeyAnswers.mono {peer : String} {key : PublicKey} {log more : List Asked}
    (h : KeyAnswers peer key more) (hsub : log ⊆ more) : KeyAnswers peer key log :=
  ⟨fun a ha => h.cached a (hsub ha), fun a ha => h.found a (hsub ha)⟩

theorem Message.checkSignature_eq_ok_iff {scheme : SignatureScheme} {key : PublicKey} {m : Message} :
    m.checkSignature scheme key = .ok () ↔
      m.verifies scheme key = true ∧ (m.type.mustBeSigned = true → m.isSigned = true) := by
  unfold checkSignature verifies isSigned
  cases m.signature with
  | none => cases m.type.mustBeSigned <;> simp
  | some s => cases scheme.isKey key <;> simp

namespace Node

open Proc

/-- A node that sends a request twice at most, and does not sign. -/
def plain : Node where
  settings := {
    peerName := "alice"
    listenAddress := ⟨#v[127, 0, 0, 1], 9000⟩
    serverName := "server"
    reemissions := 1
    replyTimeout := 100
    traversalRounds := 1
    keepAlive := 0
    reapInterval := 50
    signMessages := false
    relayTraversal := false }
  scheme := .p256
  keys := ⟨Vector.replicate 32 1, Vector.replicate 64 1⟩
  ids := UInt32.ofNat

theorem prepare_id (n : Node) (m : Message) : (n.prepare m).id = m.id := by
  unfold prepare
  split <;> rfl

theorem prepare_type (n : Node) (m : Message) : (n.prepare m).type = m.type := by
  unfold prepare
  split <;> rfl

theorem prepare_body (n : Node) (m : Message) : (n.prepare m).body = m.body := by
  unfold prepare
  split <;> rfl

theorem checkReply_congr {sent sent' reply reply' : Message} (ht : sent.type = sent'.type)
    (hb : sent.body = sent'.body) (ht' : reply.type = reply'.type) (hb' : reply.body = reply'.body) :
    checkReply sent reply = checkReply sent' reply' := by
  unfold checkReply
  rw [ht, hb, ht', hb']

theorem senderName_within (source : Address) (m : Message) :
    (senderName source m).Within Op.IsLookup 1 := by
  unfold senderName
  split
  · exact trivial
  · exact ⟨trivial, fun _ => trivial⟩

theorem keyOf_within (peer : String) : (keyOf peer).Within Op.IsLookup 3 := by
  refine ⟨trivial, fun cached => ?_⟩
  cases cached with
  | some key => exact trivial
  | none =>
    refine ⟨trivial, fun found => ?_⟩
    cases found with
    | ok key => exact ⟨trivial, fun _ => trivial⟩
    | error e => exact trivial

theorem checkSender_within (n : Node) (source : Address) (m : Message) :
    (n.checkSender source m).Within Op.IsLookup (1 + 3) := by
  apply (senderName_within source m).bind
  intro name
  cases name with
  | none => exact trivial
  | some peer =>
    apply (keyOf_within peer).bind (l := 0)
    intro key
    rcases key with _ | _ | key <;> exact trivial

theorem senderName_after {source : Address} {m : Message} {log more : List Asked}
    {name : Option String} (h : (senderName source m).After log (.done name)) {peer : String}
    (hpeer : m.Attributed source (log ++ more) peer) : name = some peer := by
  unfold senderName at h
  rcases hpeer with hclaim | ⟨hclaim, hbook⟩
  · rw [hclaim] at h
    cases (after_done_iff.mp h).2
    rfl
  · rw [hclaim] at h
    obtain ⟨answer, rest, rfl, hrest⟩ := after_ask_done_iff.mp h
    cases (after_done_iff.mp hrest).2
    cases Option.some.inj hbook
    rfl

theorem keyOf_after {peer : String} {key : PublicKey} {log : List Asked}
    {found : Except DirectoryError (Option PublicKey)}
    (h : (keyOf peer).After log (.done found)) (hkey : KeyAnswers peer key log) :
    found = .ok (some key) := by
  obtain ⟨cached, rest, rfl, hrest⟩ := after_ask_done_iff.mp h
  cases cached with
  | some a =>
    cases hkey.cached a (by simp)
    cases (after_done_iff.mp hrest).2
    rfl
  | none =>
    obtain ⟨answer, rest, rfl, hfound⟩ := after_ask_done_iff.mp hrest
    cases hkey.found answer (by simp)
    obtain ⟨⟨⟩, rest, rfl, hdone⟩ := after_ask_done_iff.mp hfound
    cases (after_done_iff.mp hdone).2
    rfl

theorem checkSender_after {n : Node} {source : Address} {m : Message} {log : List Asked}
    (h : (n.checkSender source m).After log (.done (.ok ()))) {peer : String} {key : PublicKey}
    (hpeer : m.Attributed source log peer) (hkey : KeyAnswers peer key log) :
    m.checkSignature n.scheme key = .ok () := by
  obtain ⟨first, name, second, rfl, hname, hchecked⟩ := after_bind_done_iff.mp h
  cases senderName_after hname hpeer
  obtain ⟨asking, found, rest, rfl, hfound, hdone⟩ := after_bind_done_iff.mp hchecked
  cases keyOf_after hfound (hkey.mono fun a ha => by simp [ha])
  exact (Proc.done.inj (after_done_iff.mp hdone).2).symm

theorem run_validate_of_ok {sent reply : Message} (h : checkReply sent reply = .ok ()) (n : Node)
    (source : Address) :
    (n.validate source sent reply).run = (n.checkSender source reply).bind fun verdict =>
      .done ((verdict.mapError .signature).map fun _ => reply) := by
  unfold validate
  rw [h]
  refine (bind_bind _ _ _).trans (congrArg (n.checkSender source reply).bind (funext fun v => ?_))
  cases v <;> rfl

end Node
end TreeShare
