import TreeShare.Proofs.Text.Utf8
import TreeShare.Web.Percent

/-! Percent-encoding undone. Whatever set of characters is encoded, decoding gives the text back if the set
has the percent sign. Main statements: `decodedBytes_encoded`, `mem_encoded`. -/
namespace TreeShare.Web

def upperDigit (n : Nat) : Char := (Hex.digit n).toUpper

theorem upperDigit_spec {n : Nat} (h : n < 16) :
    Hex.value? (upperDigit n) = some n ∧ (upperDigit n).toNat < 128 ∧
      upperDigit n ∈ "0123456789ABCDEF".toList := by
  have all : ∀ m : Fin 16, Hex.value? (upperDigit m.val) = some m.val ∧
      (upperDigit m.val).toNat < 128 ∧ upperDigit m.val ∈ "0123456789ABCDEF".toList := by decide
  exact all ⟨n, h⟩

theorem encodedByte_eq (x : UInt8) :
    encodedByte x = ['%', upperDigit (x.toNat / 16), upperDigit (x.toNat % 16)] := rfl

theorem decodedBytes_append_of_notMem {b : Bytes} (h : (0x25 : UInt8) ∉ b) (rest : Bytes) :
    decodedBytes (b ++ rest) = b ++ decodedBytes rest := by
  induction b with
  | nil => rfl
  | cons x b ih =>
    obtain ⟨hx, hb⟩ := not_or.mp (mt List.mem_cons.mpr h)
    rw [List.cons_append, List.cons_append, ← ih hb]
    exact decodedBytes.eq_2 _ _ fun hi lo tail heq _ => hx heq.symm

theorem decodedBytes_percent {hi lo : UInt8} {h l : Nat} (rest : Bytes)
    (hhi : Hex.value? (Char.ofNat hi.toNat) = some h)
    (hlo : Hex.value? (Char.ofNat lo.toNat) = some l) :
    decodedBytes (0x25 :: hi :: lo :: rest) = UInt8.ofNat (16 * h + l) :: decodedBytes rest := by
  rw [decodedBytes, hhi, hlo]

theorem decodedBytes_encodedByte (x : UInt8) (rest : Bytes) :
    decodedBytes ((encodedByte x).flatMap String.utf8EncodeChar ++ rest) = x :: decodedBytes rest := by
  have hx : x.toNat < 256 := x.toNat_lt
  obtain ⟨hhi, hhiAscii, -⟩ := upperDigit_spec (n := x.toNat / 16) (by omega)
  obtain ⟨hlo, hloAscii, -⟩ := upperDigit_spec (n := x.toNat % 16) (by omega)
  have hbyte {d : Char} (hd : d.toNat < 128) : Char.ofNat (UInt8.ofNat d.toNat).toNat = d := by
    rw [UInt8.toNat_ofNat', Nat.mod_eq_of_lt (by omega), Char.ofNat_toNat]
  have hbytes : (encodedByte x).flatMap String.utf8EncodeChar =
      [0x25, UInt8.ofNat (upperDigit (x.toNat / 16)).toNat,
        UInt8.ofNat (upperDigit (x.toNat % 16)).toNat] := by
    rw [encodedByte_eq, List.flatMap_cons, List.flatMap_cons, List.flatMap_cons,
      Utf8.utf8EncodeChar_of_ascii hhiAscii, Utf8.utf8EncodeChar_of_ascii hloAscii]
    rfl
  rw [hbytes]
  refine (decodedBytes_percent rest ((congrArg _ (hbyte hhiAscii)).trans hhi)
    ((congrArg _ (hbyte hloAscii)).trans hlo)).trans ?_
  rw [Nat.div_add_mod, UInt8.ofNat_toNat]

theorem decodedBytes_encodedBytes (b rest : Bytes) :
    decodedBytes ((b.flatMap encodedByte).flatMap String.utf8EncodeChar ++ rest) =
      b ++ decodedBytes rest := by
  induction b with
  | nil => rfl
  | cons x b ih =>
    rw [List.flatMap_cons, List.flatMap_append, List.append_assoc, decodedBytes_encodedByte, ih,
      List.cons_append]

variable {inSet : Char → Bool} {cs ds : List Char}

theorem decodedBytes_encodedChar (hpercent : inSet '%' = true) (c : Char) (rest : Bytes) :
    decodedBytes ((encodedChar inSet c).flatMap String.utf8EncodeChar ++ rest) =
      String.utf8EncodeChar c ++ decodedBytes rest := by
  unfold encodedChar
  split
  · rw [decodedBytes_encodedBytes, Utf8.encode_ofList, List.flatMap_singleton]
  · rename_i hplain
    have hother : c ≠ '%' := fun hc => hplain (hc ▸ hpercent)
    rw [List.flatMap_singleton]
    exact decodedBytes_append_of_notMem
      (mt (Utf8.ascii_mem_utf8EncodeChar (d := '%') (by decide)).mp hother) rest

theorem decodedBytes_encoded (hpercent : inSet '%' = true) (cs : List Char) :
    decodedBytes (Utf8.encode (encoded inSet cs)) = Utf8.encode (String.ofList cs) := by
  unfold encoded
  rw [Utf8.encode_ofList, Utf8.encode_ofList]
  induction cs with
  | nil => rfl
  | cons c cs ih =>
    rw [List.flatMap_cons, List.flatMap_append, decodedBytes_encodedChar hpercent, ih,
      List.flatMap_cons]

theorem encoded_inj (hpercent : inSet '%' = true) (h : encoded inSet cs = encoded inSet ds) :
    cs = ds := by
  have hbytes := congrArg (fun s => decodedBytes (Utf8.encode s)) h
  simp only [decodedBytes_encoded hpercent] at hbytes
  exact String.ofList_inj.mp (Utf8.encode_inj hbytes)

/-- What is encoded is written with percent signs and digits; everything else was there before. -/
theorem mem_encoded {x : Char} (h : x ∈ (encoded inSet cs).toList) :
    inSet x = false ∧ x ∈ cs ∨ x ∈ "%0123456789ABCDEF".toList := by
  unfold encoded at h
  rw [String.toList_ofList] at h
  obtain ⟨c, hc, hx⟩ := List.mem_flatMap.mp h
  unfold encodedChar at hx
  split at hx
  · right
    obtain ⟨b, -, hx⟩ := List.mem_flatMap.mp hx
    have hb : b.toNat < 256 := b.toNat_lt
    have hdigit {n : Nat} (hn : n < 16) : upperDigit n ∈ "%0123456789ABCDEF".toList :=
      List.mem_cons_of_mem _ (upperDigit_spec hn).2.2
    rw [encodedByte_eq] at hx
    simp only [List.mem_cons, List.not_mem_nil, or_false] at hx
    rcases hx with rfl | rfl | rfl
    · decide
    · exact hdigit (by omega)
    · exact hdigit (by omega)
  · rename_i hplain
    obtain rfl := List.mem_singleton.mp hx
    exact .inl ⟨Bool.not_eq_true _ ▸ hplain, hc⟩

end TreeShare.Web
