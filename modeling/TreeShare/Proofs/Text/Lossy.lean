import Mathlib.Tactic.IntervalCases
import TreeShare.Proofs.Text.Utf8

/-! Reading bytes as text leaves text as it is, character by character, as no byte of one is broken. Main
statement: `lossy_encode`. -/
namespace TreeShare.Utf8

variable {x : UInt8} {b : Bytes} {high n : Nat} {low up : UInt8} {due : UInt8 × UInt8}
  {later : List (UInt8 × UInt8)} {c : Char}

theorem lossyChars_whole (h : lead x = .whole c) (b : Bytes) :
    lossyChars none (x :: b) = c :: lossyChars none b := by
  simp [lossyChars, step, beginAt, h]

theorem lossyChars_lead (h : lead x = .more high (due :: later)) (b : Bytes) :
    lossyChars none (x :: b) = lossyChars (some ⟨high, due, later⟩) b := by
  simp [lossyChars, step, beginAt, h]

theorem toNat_tail (n : Nat) : (UInt8.ofNat (n % 64 + 128)).toNat = n % 64 + 128 := by
  rw [UInt8.toNat_ofNat']
  omega

theorem step_tail (hlow : low.toNat ≤ n % 64 + 128) (hup : n % 64 + 128 ≤ up.toNat)
    (later : List (UInt8 × UInt8)) :
    step (some ⟨high, (low, up), later⟩) (UInt8.ofNat (n % 64 + 128)) =
      match later with
      | [] => ([Char.ofNat (high * 64 + n % 64)], none)
      | due :: later => ([], some ⟨high * 64 + n % 64, due, later⟩) := by
  have hrange : low ≤ UInt8.ofNat (n % 64 + 128) ∧ UInt8.ofNat (n % 64 + 128) ≤ up := by
    rw [UInt8.le_iff_toNat_le, UInt8.le_iff_toNat_le, toNat_tail]
    exact ⟨hlow, hup⟩
  have hbits : (n % 64 + 128) % 64 = n % 64 := by omega
  cases later <;> simp only [step, if_pos hrange, toNat_tail, hbits]

theorem lossyChars_tail (hlow : low.toNat ≤ n % 64 + 128) (hup : n % 64 + 128 ≤ up.toNat) (b : Bytes) :
    lossyChars (some ⟨high, (low, up), due :: later⟩) (UInt8.ofNat (n % 64 + 128) :: b) =
      lossyChars (some ⟨high * 64 + n % 64, due, later⟩) b := by
  rw [lossyChars, step_tail hlow hup, List.nil_append]

theorem lossyChars_last (hlow : low.toNat ≤ n % 64 + 128) (hup : n % 64 + 128 ≤ up.toNat) (b : Bytes) :
    lossyChars (some ⟨high, (low, up), []⟩) (UInt8.ofNat (n % 64 + 128) :: b) =
      Char.ofNat (high * 64 + n % 64) :: lossyChars none b := by
  rw [lossyChars, step_tail hlow hup, List.singleton_append]

/-! What the first byte of a character announces. -/

theorem lead_ascii (h : n < 128) : lead (UInt8.ofNat n) = .whole (Char.ofNat n) := by
  interval_cases n <;> rfl

theorem lead_two (hlow : 2 ≤ n) (hup : n < 32) :
    lead (UInt8.ofNat (n % 32 + 0xc0)) = .more n [(0x80, 0xbf)] := by
  interval_cases n <;> rfl

/-- The range of the second byte leaves out shorter encodings and surrogates. -/
theorem lead_three (h : n < 16) : lead (UInt8.ofNat (n % 16 + 0xe0)) =
    .more n [(if n = 0 then 0xa0 else 0x80, if n = 13 then 0x9f else 0xbf), (0x80, 0xbf)] := by
  interval_cases n <;> rfl

/-- The range of the second byte leaves out shorter encodings and what is no character any more. -/
theorem lead_four (h : n < 5) : lead (UInt8.ofNat (n % 8 + 0xf0)) =
    .more n [(if n = 0 then 0x90 else 0x80, if n = 4 then 0x8f else 0xbf), (0x80, 0xbf), (0x80, 0xbf)] := by
  interval_cases n <;> rfl

theorem lossyChars_utf8EncodeChar (c : Char) (b : Bytes) :
    lossyChars none (String.utf8EncodeChar c ++ b) = c :: lossyChars none b := by
  have hvalid : c.val.toNat.isValidChar := c.valid
  have hc : Char.ofNat c.val.toNat = c := Char.ofNat_toNat c
  unfold String.utf8EncodeChar
  dsimp only
  generalize c.val.toNat = v at hvalid hc ⊢
  subst hc
  unfold Nat.isValidChar at hvalid
  split
  · rename_i hv
    exact lossyChars_whole (lead_ascii (by omega)) b
  split
  · rename_i hlow hup
    refine (lossyChars_lead (lead_two (by omega) (by omega)) _).trans ?_
    refine (lossyChars_last (by simp) (by simp; omega) b).trans ?_
    rw [Nat.div_add_mod']
  split
  · rename_i hlow hup
    refine (lossyChars_lead (lead_three (by omega)) _).trans ?_
    refine (lossyChars_tail (by split <;> simp; omega) (by split <;> (simp; omega)) _).trans ?_
    refine (lossyChars_last (by simp) (by simp; omega) b).trans ?_
    rw [show (v / 4096 * 64 + v / 64 % 64) * 64 + v % 64 = v by omega]
  · rename_i hlow
    refine (lossyChars_lead (lead_four (by omega)) _).trans ?_
    refine (lossyChars_tail (by split <;> simp; omega) (by split <;> (simp; omega)) _).trans ?_
    refine (lossyChars_tail (by simp) (by simp; omega) _).trans ?_
    refine (lossyChars_last (by simp) (by simp; omega) b).trans ?_
    rw [show ((v / 262144 * 64 + v / 4096 % 64) * 64 + v / 64 % 64) * 64 + v % 64 = v by omega]

/-- Text is read as it is. -/
theorem lossy_encode (s : String) : lossy (encode s) = s := by
  have hchars : ∀ cs : List Char, lossyChars none (cs.flatMap String.utf8EncodeChar) = cs := by
    intro cs
    induction cs with
    | nil => rfl
    | cons c cs ih => rw [List.flatMap_cons, lossyChars_utf8EncodeChar, ih]
  unfold lossy
  rw [encode_eq_flatMap, hchars, String.ofList_toList]

end TreeShare.Utf8
