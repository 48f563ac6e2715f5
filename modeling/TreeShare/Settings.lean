import TreeShare.Net.Address

/-! What a node runs with, and the arithmetic of its retries. Times are in milliseconds. -/
namespace TreeShare

structure Settings where
  peerName : String
  listenAddress : Endpoint
  /-- The name under which the directory lists the rendezvous server. -/
  serverName : String
  /-- How often a request is sent again after the first time. -/
  reemissions : UInt32
  replyTimeout : Nat
  traversalRounds : UInt32
  keepAlive : Nat
  reapInterval : Nat
  signMessages : Bool
  /-- Whether to pass on requests for traversal, as only the rendezvous server should. -/
  relayTraversal : Bool

inductive Overflow where
  | addition
  | duration
deriving DecidableEq

def Overflow.message : Overflow → String
  | addition => "attempt to add with overflow"
  | duration => "overflow when multiplying duration by scalar"

namespace Settings

/-- How often one request is sent at most, counted in 32 bits. -/
def attempts (s : Settings) : Except Overflow Nat :=
  let n := s.reemissions.toNat + 1
  if n < UInt32.size then .ok n else .error .addition

/-- The longest wait for one address. Its seconds are counted in 64 bits. -/
def retryWindow (s : Settings) : Except Overflow Nat := do
  let window := s.replyTimeout * (← s.attempts)
  if window / 1000 < UInt64.size then pure window else .error .duration

variable {s : Settings}

theorem attempts_eq_ok_iff {k : Nat} :
    s.attempts = .ok k ↔ s.reemissions ≠ 0xFFFFFFFF ∧ k = s.reemissions.toNat + 1 := by
  have hlt : s.reemissions.toNat < 2 ^ 32 := s.reemissions.toNat_lt
  have hlast : s.reemissions = 0xFFFFFFFF ↔ s.reemissions.toNat = 0xFFFFFFFF :=
    UInt32.toNat_inj.symm
  have hsize : UInt32.size = 2 ^ 32 := rfl
  unfold attempts
  simp only [ne_eq, hlast, hsize]
  split
  · simp only [Except.ok.injEq]
    omega
  · simp only [reduceCtorEq, false_iff]
    omega

theorem retryWindow_eq_ok_iff {w : Nat} :
    s.retryWindow = .ok w ↔ s.reemissions ≠ 0xFFFFFFFF ∧
      w = s.replyTimeout * (s.reemissions.toNat + 1) ∧ w < 1000 * UInt64.size := by
  unfold retryWindow
  cases h : s.attempts with
  | error cause =>
    have hno : ¬ s.reemissions ≠ 0xFFFFFFFF := fun hfits => by
      rw [attempts_eq_ok_iff.mpr ⟨hfits, rfl⟩] at h
      cases h
    simp [hno, bind, Except.bind]
  | ok k =>
    obtain ⟨hfits, rfl⟩ := attempts_eq_ok_iff.mp h
    simp only [bind, Except.bind, pure, Except.pure, Nat.div_lt_iff_lt_mul (Nat.zero_lt_succ 999)]
    split
    · simp only [Except.ok.injEq]
      constructor
      · rintro rfl
        exact ⟨hfits, rfl, by omega⟩
      · exact fun h => h.2.1.symm
    · simp only [reduceCtorEq, false_iff]
      rintro ⟨-, rfl, hlt⟩
      omega

end Settings
end TreeShare
