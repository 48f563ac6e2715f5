import TreeShare.Message.Hello
import TreeShare.Proofs.Text.Utf8

/-! Bodies of Hello and HelloReply, as they are written and as they are read. What is read is written again
as it was; what is written is read again unless the name in it is empty. -/
namespace TreeShare

namespace Hello

variable {h : Hello} {body : Bytes}

theorem length_toBody (h : Hello) : h.toBody.length = 4 + (Utf8.encode h.peer).length := by
  unfold toBody
  rw [List.length_append, Bytes.length_ofNat]

theorem take_toBody (h : Hello) : h.toBody.take 4 = Bytes.ofNat 4 h.extensions.toNat :=
  List.take_left' (Bytes.length_ofNat 4 _)

theorem drop_toBody (h : Hello) : h.toBody.drop 4 = Utf8.encode h.peer :=
  List.drop_left' (Bytes.length_ofNat 4 _)

theorem toNat_take_toBody (h : Hello) :
    UInt32.ofNat (Bytes.toNat (h.toBody.take 4)) = h.extensions := by
  have hfits : h.extensions.toNat < Bytes.capacity 4 := h.extensions.toNat_lt
  rw [take_toBody, Bytes.toNat_ofNat, Nat.mod_eq_of_lt hfits, UInt32.ofNat_toNat]

theorem ofNat_take {b : Bytes} (hlength : 4 ≤ b.length) :
    Bytes.ofNat 4 (UInt32.ofNat (Bytes.toNat (b.take 4))).toNat = b.take 4 := by
  have hfirst : (b.take 4).length = 4 := by rw [List.length_take, Nat.min_eq_left hlength]
  have hfits : Bytes.toNat (b.take 4) < UInt32.size := by
    have := Bytes.toNat_lt (b.take 4)
    rwa [hfirst] at this
  have hdigits := Bytes.ofNat_toNat (b.take 4)
  rw [hfirst] at hdigits
  rw [UInt32.toNat_ofNat_of_lt' hfits, hdigits]

theorem parse_toBody (h : Hello) :
    parse h.toBody = if h.peer = "" then .error (.badHello .short) else .ok h := by
  have hshort : h.toBody.length ≤ 4 ↔ h.peer = "" := by
    rw [length_toBody, ← Utf8.encode_eq_nil_iff, ← List.length_eq_zero_iff]
    omega
  unfold parse
  rw [drop_toBody, Utf8.decode?_encode, toNat_take_toBody]
  simp only [hshort]

theorem toBody_of_parse (hparse : parse body = .ok h) : h.toBody = body := by
  unfold parse at hparse
  split at hparse
  · contradiction
  · rename_i hlong
    split at hparse <;> cases hparse
    rename_i peer hpeer
    unfold toBody
    rw [ofNat_take (by omega), Utf8.encode_of_decode? hpeer, List.take_append_drop]

theorem parse_eq_ok_iff : parse body = .ok h ↔ h.peer ≠ "" ∧ h.toBody = body := by
  constructor
  · intro hparse
    obtain rfl := toBody_of_parse hparse
    rw [parse_toBody] at hparse
    refine ⟨fun hempty => ?_, rfl⟩
    rw [if_pos hempty] at hparse
    contradiction
  · rintro ⟨hpeer, rfl⟩
    rw [parse_toBody, if_neg hpeer]

end Hello

namespace Message

variable {id : UInt32} {type : MessageType} {name : String} {m : Message}

theorem hello_eq_ok_iff : hello id type name = .ok m ↔
    type.isHello = true ∧ m.id = id ∧ m.type = type ∧ m.body = Hello.toBody ⟨0, name⟩ ∧
      m.signature = none := by
  unfold hello new
  constructor
  · intro h
    split at h
    · split at h <;> cases h
      exact ⟨‹_›, rfl, rfl, rfl, rfl⟩
    · contradiction
  · obtain ⟨_, _, _, _, hfits⟩ := m
    rintro ⟨htype, rfl, rfl, rfl, rfl⟩
    rw [if_pos htype, dif_pos hfits]

theorem exists_hello_iff : (∃ m, hello id type name = .ok m) ↔
    type.isHello = true ∧ (Utf8.encode name).length ≤ 65531 := by
  have hlength : (Hello.toBody ⟨0, name⟩).length = 4 + (Utf8.encode name).length :=
    Hello.length_toBody _
  simp only [hello_eq_ok_iff]
  constructor
  · rintro ⟨m, htype, -, -, hbody, -⟩
    have := m.body_length
    rw [hbody, hlength] at this
    exact ⟨htype, by omega⟩
  · rintro ⟨htype, hfits⟩
    exact ⟨⟨id, type, Hello.toBody ⟨0, name⟩, none, by omega⟩, htype, rfl, rfl, rfl, rfl⟩

theorem claimedName?_of_body {h : Hello} (htype : m.type.isHello = true) (hbody : m.body = h.toBody) :
    m.claimedName? = if h.peer = "" then none else some h.peer := by
  unfold claimedName?
  rw [if_pos htype, hbody, Hello.parse_toBody]
  split
  · rename_i hparse
    split at hparse <;> cases hparse
    rw [if_neg ‹_›]
  · rename_i hparse
    split at hparse <;> cases hparse
    rw [if_pos ‹_›]

end Message

end TreeShare
