import TreeShare.Datum
import TreeShare.Proofs.Except

/-! Bodies of datums read back. What is made from a content within its bounds parses to that content
and passes the integrity check. -/
namespace TreeShare

namespace Slot

theorem used_append_zeros {b : Bytes} (hb : (0 : UInt8) ∉ b) (k : Nat) :
    used (b ++ List.replicate k 0) = b := by
  unfold used
  rw [List.takeWhile_append_of_pos (by
    intro x hx
    simpa using fun h0 : x = 0 => hb (h0 ▸ hx))]
  cases k <;> simp [List.replicate_succ]

theorem nameOf_of_ofName {name : String} {slot : Slot} (h : ofName name = .ok slot) :
    nameOf slot.toList = .ok name := by
  unfold ofName at h
  dsimp only at h
  split at h
  · contradiction
  split at h
  · contradiction
  split at h
  · contradiction
  rename_i hne hlen hzero
  cases Except.ok.inj h
  have hused : used (Bytes.padded 32 (Utf8.encode name)).toList = Utf8.encode name := by
    rw [Bytes.toList_padded, List.take_of_length_le (by omega)]
    exact used_append_zeros hzero _
  unfold nameOf
  simp only [hused, hne, if_false, Utf8.decode?_encode]

end Slot

namespace DirectoryEntry

theorem length_toBytes {e : DirectoryEntry} {b : Bytes} (h : e.toBytes = .ok b) : b.length = 64 := by
  obtain ⟨slot, -, rfl⟩ := Except.map_eq_ok_iff.mp h
  simp

theorem ofBytes_of_toBytes {e : DirectoryEntry} {b : Bytes} (h : e.toBytes = .ok b) :
    ofBytes b = .ok e := by
  obtain ⟨slot, hs, rfl⟩ := Except.map_eq_ok_iff.mp h
  have hhash : Bytes.padded 32 e.hash.toList = e.hash := by
    apply Vector.toList_inj.mp
    rw [Bytes.toList_padded, List.take_of_length_le (by simp)]
    simp
  have htake : (slot.toList ++ e.hash.toList).take 32 = slot.toList := by simp
  have hdrop : (slot.toList ++ e.hash.toList).drop 32 = e.hash.toList := by simp
  unfold ofBytes
  rw [htake, hdrop, Slot.nameOf_of_ofName hs, hhash]
  rfl

theorem length_allToBytes {es : List DirectoryEntry} {b : Bytes} (h : allToBytes es = .ok b) :
    b.length = 64 * es.length := by
  induction es generalizing b with
  | nil => cases Except.ok.inj h; rfl
  | cons e es ih =>
    obtain ⟨first, hfirst, h⟩ := Except.bind_eq_ok_iff.mp h
    obtain ⟨rest, hrest, h⟩ := Except.bind_eq_ok_iff.mp h
    cases Except.ok.inj h
    rw [List.length_append, length_toBytes hfirst, ih hrest, List.length_cons]
    omega

theorem allOfBytes_of_allToBytes {es : List DirectoryEntry} {b : Bytes}
    (h : allToBytes es = .ok b) : allOfBytes es.length b = .ok es := by
  induction es generalizing b with
  | nil => rfl
  | cons e es ih =>
    obtain ⟨first, hfirst, h⟩ := Except.bind_eq_ok_iff.mp h
    obtain ⟨rest, hrest, h⟩ := Except.bind_eq_ok_iff.mp h
    cases Except.ok.inj h
    have hlen := length_toBytes hfirst
    have htake : (first ++ rest).take 64 = first := by rw [← hlen]; exact List.take_left
    have hdrop : (first ++ rest).drop 64 = rest := by rw [← hlen]; exact List.drop_left
    rw [List.length_cons, allOfBytes, htake, hdrop, ofBytes_of_toBytes hfirst, ih hrest]
    rfl

end DirectoryEntry

namespace Content

@[simp] theorem inBounds_chunk (data : Bytes) : (chunk data).InBounds ↔ data.length ≤ 1024 := by
  simp [InBounds, checkSize]

@[simp] theorem inBounds_tree (children : List Digest) :
    (tree children).InBounds ↔ 2 ≤ children.length ∧ children.length ≤ 32 := by
  simp [InBounds, checkSize]

@[simp] theorem inBounds_directory (entries : List DirectoryEntry) :
    (directory entries).InBounds ↔ entries.length ≤ 16 := by
  simp [InBounds, checkSize]

theorem length_digests (hs : List Digest) : (hs.flatMap Vector.toList).length = 32 * hs.length := by
  induction hs with
  | nil => rfl
  | cons h hs ih => simp [ih]; omega

theorem length_payload_le {c : Content} {payload : Bytes} (hc : c.InBounds)
    (hp : c.payload = .ok payload) : payload.length ≤ 1024 := by
  cases c with
  | chunk data =>
    cases Except.ok.inj hp
    exact (inBounds_chunk _).mp hc
  | tree children =>
    cases Except.ok.inj hp
    have := (inBounds_tree _).mp hc
    rw [length_digests]
    omega
  | directory entries =>
    have := (inBounds_directory _).mp hc
    rw [DirectoryEntry.length_allToBytes hp]
    omega

end Content

namespace Datum

theorem digests_flatMap (hs : List Digest) : digests hs.length (hs.flatMap Vector.toList) = hs := by
  induction hs with
  | nil => rfl
  | cons h hs ih =>
    have hfirst : Bytes.padded 32 (h.toList ++ hs.flatMap Vector.toList) = h := by
      apply Vector.toList_inj.mp
      simp
    have hdrop : (h.toList ++ hs.flatMap Vector.toList).drop 32 = hs.flatMap Vector.toList := by
      simp
    rw [List.length_cons, List.flatMap_cons, digests, hfirst, hdrop, ih]

theorem readContent_of_payload {c : Content} {payload : Bytes} (hp : c.payload = .ok payload) :
    readContent c.kind payload = c.checkSize.map fun _ => c := by
  cases c with
  | chunk data =>
    cases Except.ok.inj hp
    simp only [Content.kind, readContent, Content.checkSize]
    split <;> rfl
  | tree children =>
    cases Except.ok.inj hp
    have hlen := Content.length_digests children
    have hcount : (children.flatMap Vector.toList).length / 32 = children.length := by omega
    have haligned : (children.flatMap Vector.toList).length % 32 = 0 := by omega
    simp only [Content.kind, readContent, Content.checkSize, hcount, haligned, ne_eq,
      not_true_eq_false, if_false, digests_flatMap]
    split <;> rfl
  | directory entries =>
    have hlen := DirectoryEntry.length_allToBytes hp
    have hcount : payload.length / 64 = entries.length := by omega
    have haligned : payload.length % 64 = 0 := by omega
    simp only [Content.kind, readContent, Content.checkSize, hcount, haligned, ne_eq,
      not_true_eq_false, if_false, DirectoryEntry.allOfBytes_of_allToBytes hp]
    split <;> rfl

theorem toBody_eq_ok_iff {d : Datum} {b : Bytes} :
    d.toBody = .ok b ↔
      ∃ payload, d.content.payload = .ok payload ∧
        d.hash.toList ++ d.content.kind.toByte :: payload = b := by
  unfold toBody
  rw [Except.bind_eq_ok_iff]
  simp only [Except.mapError_eq_ok_iff, pure, Except.pure, Except.ok.injEq]

theorem parse_append (hash : Digest) (kind : DatumKind) (payload : Bytes) :
    parse (hash.toList ++ kind.toByte :: payload) =
      (readContent kind payload).map fun c => ⟨hash, c⟩ := by
  have hdrop : (hash.toList ++ kind.toByte :: payload).drop 32 = kind.toByte :: payload := by simp
  have hhash : Bytes.padded 32 (hash.toList ++ kind.toByte :: payload) = hash := by
    apply Vector.toList_inj.mp
    simp
  unfold parse
  rw [hdrop]
  simp only [DatumKind.ofByte?_toByte, hhash]

theorem parse_of_toBody_eq {d : Datum} {b : Bytes} (h : d.toBody = .ok b) :
    parse b = d.content.checkSize.map fun _ => d := by
  obtain ⟨payload, hp, rfl⟩ := toBody_eq_ok_iff.mp h
  rw [parse_append, readContent_of_payload hp]
  cases d.content.checkSize <;> rfl

theorem parse_of_toBody {d : Datum} {b : Bytes} (hc : d.content.InBounds) (h : d.toBody = .ok b) :
    parse b = .ok d := by
  rw [parse_of_toBody_eq h, hc]
  rfl

theorem ofContent_eq_ok_iff {c : Content} {d : Datum} :
    ofContent c = .ok d ↔
      c.InBounds ∧ ∃ payload, c.payload = .ok payload ∧ d = ⟨hashOf c.kind payload, c⟩ := by
  unfold ofContent Content.InBounds
  simp only [Except.bind_eq_ok_iff, Except.mapError_eq_ok_iff, pure, Except.pure,
    Except.ok.injEq, eq_comm (a := d)]
  constructor
  · rintro ⟨⟨⟩, hc, h⟩
    exact ⟨hc, h⟩
  · rintro ⟨hc, h⟩
    exact ⟨(), hc, h⟩

theorem checkIntegrity_of_ofContent {c : Content} {d : Datum} (h : ofContent c = .ok d) :
    ∃ b, d.toBody = .ok b ∧ b.take 32 = d.hash.toList ∧ checkIntegrity b = .ok () := by
  obtain ⟨hc, payload, hp, rfl⟩ := ofContent_eq_ok_iff.mp h
  let b := (hashOf c.kind payload).toList ++ c.kind.toByte :: payload
  have hbody : toBody ⟨hashOf c.kind payload, c⟩ = .ok b := toBody_eq_ok_iff.mpr ⟨payload, hp, rfl⟩
  have htake : b.take 32 = (hashOf c.kind payload).toList := by simp [b]
  have hdrop : b.drop 32 = c.kind.toByte :: payload := by simp [b]
  have hlen : ¬ b.length < 33 := by
    simp only [b, List.length_append, Vector.length_toList, List.length_cons]
    omega
  refine ⟨b, hbody, htake, ?_⟩
  have hdigest : Sha256.digest (c.kind.toByte :: payload) = hashOf c.kind payload := rfl
  unfold checkIntegrity
  rw [if_neg hlen, hdrop, htake, hdigest, if_neg (not_not_intro rfl), parse_of_toBody hc hbody]
  rfl

theorem toMessage_of_inBounds {d : Datum} {b : Bytes} (hc : d.content.InBounds)
    (h : d.toBody = .ok b) (id : UInt32) :
    ∃ m, d.toMessage id = .ok m ∧ m.id = id ∧ m.type = .datum ∧ m.body = b ∧
      m.signature = none := by
  have hlen : b.length ≤ 1057 := by
    obtain ⟨payload, hp, rfl⟩ := toBody_eq_ok_iff.mp h
    have := Content.length_payload_le hc hp
    simp only [List.length_append, Vector.length_toList, List.length_cons]
    omega
  unfold toMessage
  rw [h]
  simp only [Except.bind_ok, dif_pos hlen]
  exact ⟨_, rfl, rfl, rfl, rfl, rfl⟩

end Datum
end TreeShare
