import Mathlib.Data.List.Induction
import TreeShare.Config

/-! Settings that variables replace: exactly those of which the variable is set and can be read. Main
statement: `overrides_iff`. -/
namespace TreeShare

/-! Numbers. -/

/-- The text is a way to write the number: its decimal digits, with zeros before them and a plus sign before
these allowed. -/
def IsNumeral (s : String) (n : Nat) : Prop :=
  ∃ (plus : Bool) (zeros : Nat),
    s.toList = (if plus then ['+'] else []) ++ (List.replicate zeros '0' ++ Nat.toDigits 10 n)

theorem digitChar_toNat {c : Char} (hc : c.isDigit = true) :
    c.toNat - '0'.toNat < 10 ∧ (c.toNat - '0'.toNat).digitChar = c := by
  have hbounds : '0'.toNat ≤ c.toNat ∧ c.toNat ≤ '9'.toNat := by
    simpa [Char.isDigit, UInt32.le_iff_toNat_le] using hc
  have all : ∀ k : Fin 10, k.val.digitChar = Char.ofNat (k.val + '0'.toNat) := by decide
  have hlow : '0'.toNat = 48 := rfl
  have hup : '9'.toNat = 57 := rfl
  have hlt : c.toNat - '0'.toNat < 10 := by omega
  refine ⟨hlt, (all ⟨_, hlt⟩).trans ?_⟩
  rw [Nat.sub_add_cancel hbounds.1, Char.ofNat_toNat]

theorem digits_eq {digits : List Char} (hne : digits ≠ []) (hdigits : ∀ c ∈ digits, c.isDigit = true) :
    ∃ zeros, digits = List.replicate zeros '0' ++ Nat.toDigits 10 (Nat.ofDigitChars 10 digits 0) := by
  induction digits using List.reverseRecOn with
  | nil => contradiction
  | append_singleton init c ih =>
    obtain ⟨hlt, hc⟩ := digitChar_toNat (hdigits c (by simp))
    have hlast : Nat.toDigits 10 (c.toNat - '0'.toNat) = [c] := by rw [Nat.toDigits_of_lt_base hlt, hc]
    rw [Nat.ofDigitChars_append, Nat.ofDigitChars_cons, Nat.ofDigitChars_nil]
    by_cases hinit : init = []
    · subst hinit
      exact ⟨0, by simpa using hlast.symm⟩
    · obtain ⟨zeros, hzeros⟩ := ih hinit fun d hd => hdigits d (List.mem_append_left _ hd)
      generalize Nat.ofDigitChars 10 init 0 = n at hzeros ⊢
      rcases Nat.eq_zero_or_pos n with rfl | hpos
      · refine ⟨zeros + 1, ?_⟩
        rw [Nat.mul_zero, Nat.zero_add, hlast, List.replicate_succ', hzeros]
        rfl
      · refine ⟨zeros, ?_⟩
        rw [← Nat.toDigits_append_toDigits (by decide) hpos hlt, hlast, ← List.append_assoc, ← hzeros]

theorem ofDigitChars_zeros (zeros n : Nat) :
    Nat.ofDigitChars 10 (List.replicate zeros '0' ++ Nat.toDigits 10 n) 0 = n := by
  induction zeros with
  | zero => exact Nat.ofDigitChars_ten_toDigits
  | succ zeros ih => exact ih

namespace Environment

theorem number?_of_digits {bound : Nat} {s : String} {digits : List Char} (plus : Bool)
    (hs : s.toList = (if plus then ['+'] else []) ++ digits) (hplus : plus = false → digits.head? ≠ some '+') :
    number? bound s = if digits ≠ [] ∧ digits.all Char.isDigit then
      (if Nat.ofDigitChars 10 digits 0 < bound then some (Nat.ofDigitChars 10 digits 0) else none)
    else none := by
  unfold number?
  rw [hs]
  cases plus with
  | true => rfl
  | false =>
    simp only [Bool.false_eq_true, if_false, List.nil_append]
    split
    · exact absurd rfl (hplus rfl)
    · rfl

theorem number?_eq_some_iff {bound n : Nat} {s : String} :
    number? bound s = some n ↔ n < bound ∧ IsNumeral s n := by
  constructor
  · intro h
    obtain ⟨plus, digits, hs, hplus⟩ : ∃ (plus : Bool) (digits : List Char),
        s.toList = (if plus then ['+'] else []) ++ digits ∧ (plus = false → digits.head? ≠ some '+') := by
      by_cases hplus : s.toList.head? = some '+'
      · obtain ⟨rest, hrest⟩ := List.head?_eq_some_iff.mp hplus
        exact ⟨true, rest, hrest, fun h => nomatch h⟩
      · exact ⟨false, s.toList, rfl, fun _ => hplus⟩
    rw [number?_of_digits plus hs hplus] at h
    split at h
    · rename_i hdigits
      split at h
      · obtain rfl := Option.some.inj h
        obtain ⟨zeros, hzeros⟩ := digits_eq hdigits.1 (List.all_eq_true.mp hdigits.2)
        exact ⟨‹_›, plus, zeros, by rw [← hzeros, hs]⟩
      · contradiction
    · contradiction
  · rintro ⟨hn, plus, zeros, hs⟩
    have hdigits : ∀ c ∈ List.replicate zeros '0' ++ Nat.toDigits 10 n, c.isDigit = true := by
      intro c hc
      rcases List.mem_append.mp hc with hc | hc
      · exact (List.eq_of_mem_replicate hc) ▸ rfl
      · exact Nat.isDigit_of_mem_toDigits (by decide) (by decide) hc
    have hplus : (List.replicate zeros '0' ++ Nat.toDigits 10 n).head? ≠ some '+' :=
      fun hplus => nomatch hdigits _ (List.mem_of_head? hplus)
    have hne : List.replicate zeros '0' ++ Nat.toDigits 10 n ≠ [] :=
      List.append_ne_nil_of_right_ne_nil _ Nat.toDigits_ne_nil
    rw [number?_of_digits plus hs fun _ => hplus, ofDigitChars_zeros,
      if_pos ⟨hne, List.all_eq_true.mpr hdigits⟩, if_pos hn]

theorem port_eq_some_iff (s : String) (n : UInt16) :
    (Environment.number? UInt16.size s).map UInt16.ofNat = some n ↔ IsNumeral s n.toNat := by
  simp only [Option.map_eq_some_iff, number?_eq_some_iff]
  constructor
  · rintro ⟨m, ⟨hm, hs⟩, rfl⟩
    rwa [UInt16.toNat_ofNat_of_lt' hm]
  · exact fun hs => ⟨n.toNat, ⟨n.toNat_lt, hs⟩, UInt16.ofNat_toNat⟩

theorem count_eq_some_iff (s : String) (n : UInt32) :
    (Environment.number? UInt32.size s).map UInt32.ofNat = some n ↔ IsNumeral s n.toNat := by
  simp only [Option.map_eq_some_iff, number?_eq_some_iff]
  constructor
  · rintro ⟨m, ⟨hm, hs⟩, rfl⟩
    rwa [UInt32.toNat_ofNat_of_lt' hm]
  · exact fun hs => ⟨n.toNat, ⟨n.toNat_lt, hs⟩, UInt32.ofNat_toNat⟩

theorem flag?_eq_some_iff {s : String} {b : Bool} : flag? s = some b ↔ s = toString b := by
  unfold flag?
  cases b with
  | false =>
    change _ ↔ s = "false"
    split <;> simp_all
  | true =>
    change _ ↔ s = "true"
    split <;> simp_all

variable {env : Environment} {α : Type} {Means : String → α → Prop}

/-- What becomes of a setting that a variable can replace: what the variable means if it is set and means
anything, and else what it was. -/
inductive Settles (env : Environment) (name : String) (Means : String → α → Prop) (old : α) : α → Prop
  | replaced {s : String} {a : α} (set : env.value? name = some s) (means : Means s a) :
      Settles env name Means old a
  | kept (silent : ∀ s a, env.value? name = some s → ¬ Means s a) : Settles env name Means old old

theorem settles_iff {f : String → Option α} (hf : ∀ s a, f s = some a ↔ Means s a) {name : String} {old a : α} :
    env.Settles name Means old a ↔ a = ((env.value? name).bind f).getD old := by
  constructor
  · rintro (⟨hs, hmeans⟩ | hsilent)
    · rw [hs, Option.bind_some, (hf _ _).mpr hmeans, Option.getD_some]
    · have hnone : (env.value? name).bind f = none :=
        Option.bind_eq_none_iff.mpr fun s hs =>
          Option.eq_none_iff_forall_ne_some.mpr fun a ha => hsilent s a hs ((hf s a).mp ha)
      rw [hnone, Option.getD_none]
  · rintro rfl
    cases h : (env.value? name).bind f with
    | none =>
      refine .kept fun s a hs ha => ?_
      rw [hs, Option.bind_some, (hf s a).mpr ha] at h
      contradiction
    | some a =>
      obtain ⟨s, hs, ha⟩ := Option.bind_eq_some_iff.mp h
      exact .replaced hs ((hf s a).mp ha)

theorem settles_map_iff {g : String → α} {name : String} {old a : α} :
    env.Settles name (fun s a => a = g s) old a ↔ a = ((env.value? name).map g).getD old := by
  rw [Option.map_eq_bind]
  exact settles_iff fun s a => Option.some_inj.trans eq_comm

theorem settles_text_iff {name old a : String} :
    env.Settles name (fun s a => a = s) old a ↔ a = (env.value? name).getD old := by
  have h := @settles_map_iff env String id name old a
  rwa [Option.map_id] at h

end Environment

namespace Config

def replacing (c : Config) (name : String) (port : UInt16) (url : String) (relay : Bool) (directory : Path)
    (reemissions : UInt32) : Config :=
  { c with
    identity.peerName := name
    network.listenPort := port
    network.directoryUrl := url
    network.relayTraversal := relay
    «export».sharedDirectory := directory
    reliability.reemissions := reemissions }

/-- The second configuration is the first with all variables regarded: each of the six settings that have one
is what becomes of it, and nothing else is different. -/
structure Overrides (env : Environment) (c c' : Config) : Prop where
  peerName : env.Settles "ARBOR_IDENTITY__PEER_NAME" (fun s a => a = s) c.identity.peerName c'.identity.peerName
  listenPort : env.Settles "ARBOR_NETWORK__LISTEN_PORT" (fun s a => IsNumeral s a.toNat)
    c.network.listenPort c'.network.listenPort
  directoryUrl : env.Settles "ARBOR_NETWORK__DIRECTORY_URL" (fun s a => a = s)
    c.network.directoryUrl c'.network.directoryUrl
  relayTraversal : env.Settles "ARBOR_NETWORK__RELAY_TRAVERSAL" (fun s a => s = toString a)
    c.network.relayTraversal c'.network.relayTraversal
  sharedDirectory : env.Settles "ARBOR_EXPORT__SHARED_DIR" (fun s a => a = .ofString s)
    c.export.sharedDirectory c'.export.sharedDirectory
  reemissions : env.Settles "ARBOR_RELIABILITY__REEMISSIONS" (fun s a => IsNumeral s a.toNat)
    c.reliability.reemissions c'.reliability.reemissions
  others : c' = c.replacing c'.identity.peerName c'.network.listenPort c'.network.directoryUrl
    c'.network.relayTraversal c'.export.sharedDirectory c'.reliability.reemissions

theorem overrides_iff {env : Environment} {c c' : Config} : Overrides env c c' ↔ c' = c.overridden env := by
  constructor
  · intro h
    rw [h.others, env.settles_text_iff.mp h.peerName, env.settles_text_iff.mp h.directoryUrl,
      (env.settles_iff Environment.port_eq_some_iff).mp h.listenPort,
      (env.settles_iff fun _ _ => Environment.flag?_eq_some_iff).mp h.relayTraversal,
      env.settles_map_iff.mp h.sharedDirectory,
      (env.settles_iff Environment.count_eq_some_iff).mp h.reemissions]
    rfl
  · rintro rfl
    exact {
      peerName := env.settles_text_iff.mpr rfl
      listenPort := (env.settles_iff Environment.port_eq_some_iff).mpr rfl
      directoryUrl := env.settles_text_iff.mpr rfl
      relayTraversal := (env.settles_iff fun _ _ => Environment.flag?_eq_some_iff).mpr rfl
      sharedDirectory := env.settles_map_iff.mpr rfl
      reemissions := (env.settles_iff Environment.count_eq_some_iff).mpr rfl
      others := rfl }

end Config

end TreeShare
