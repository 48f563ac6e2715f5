import TreeShare.Proofs.Datum.Codec

/-! Datums that were read, written again. What comes out has the length of what was read, and is the same
unless a slot holds something after its name. Main statement: `reencoding`. -/
namespace TreeShare

namespace Slot

def Padded (slot : Bytes) : Prop := ∀ x ∈ slot.dropWhile (· ≠ 0), x = 0

instance (slot : Bytes) : Decidable (Padded slot) :=
  decidable_of_iff ((slot.dropWhile (· ≠ 0)).all (· == 0) = true) (by simp [Padded])

def cleared (slot : Bytes) : Slot := Bytes.padded 32 (used slot)

theorem zero_notMem_used (slot : Bytes) : (0 : UInt8) ∉ used slot := by
  have hall := List.all_takeWhile (p := (· ≠ (0 : UInt8))) (l := slot)
  intro h
  simpa using List.all_eq_true.mp hall 0 h

theorem length_used_le (slot : Bytes) : (used slot).length ≤ slot.length :=
  (List.takeWhile_sublist _).length_le

theorem cleared_eq_iff {slot : Bytes} (hlen : slot.length = 32) :
    (cleared slot).toList = slot ↔ Padded slot := by
  have hsplit : used slot ++ slot.dropWhile (· ≠ 0) = slot := List.takeWhile_append_dropWhile
  have hused := length_used_le slot
  have hrest : 32 - (used slot).length = (slot.dropWhile (· ≠ 0)).length := by
    have := congrArg List.length hsplit
    rw [List.length_append] at this
    omega
  have hcleared : (cleared slot).toList =
      used slot ++ List.replicate (slot.dropWhile (· ≠ 0)).length 0 := by
    unfold cleared
    rw [Bytes.toList_padded, List.take_of_length_le (by omega), hrest]
  calc (cleared slot).toList = slot
      ↔ used slot ++ List.replicate (slot.dropWhile (· ≠ 0)).length 0 =
          used slot ++ slot.dropWhile (· ≠ 0) := by rw [hcleared, hsplit]
    _ ↔ slot.dropWhile (· ≠ 0) = List.replicate (slot.dropWhile (· ≠ 0)).length 0 := by
      rw [List.append_cancel_left_eq, eq_comm]
    _ ↔ Padded slot := List.eq_replicate_iff.trans (and_iff_right rfl)

theorem nameOf_eq_ok_iff {slot : Bytes} {name : String} :
    nameOf slot = .ok name ↔ used slot ≠ [] ∧ used slot = Utf8.encode name := by
  unfold nameOf
  dsimp only
  split
  · simp [*]
  · rename_i hne
    rw [and_iff_right hne, ← Utf8.decode?_eq_some_iff]
    cases Utf8.decode? (used slot) <;> simp

theorem ofName_of_nameOf {slot : Bytes} {name : String} (hlen : slot.length = 32)
    (h : nameOf slot = .ok name) : ofName name = .ok (cleared slot) := by
  obtain ⟨hne, hname⟩ := nameOf_eq_ok_iff.mp h
  have hused := length_used_le slot
  unfold ofName
  rw [← hname, if_neg hne, if_neg (by omega), if_neg (zero_notMem_used slot)]
  rfl

end Slot

namespace DirectoryEntry

def cleared (b : Bytes) : Bytes := (Slot.cleared (b.take 32)).toList ++ b.drop 32

theorem length_cleared {b : Bytes} (hlen : b.length = 64) : (cleared b).length = b.length := by
  simp [cleared, hlen]

theorem cleared_eq_iff {b : Bytes} (hlen : b.length = 64) :
    cleared b = b ↔ Slot.Padded (b.take 32) := by
  rw [← Slot.cleared_eq_iff (by simp [hlen])]
  calc cleared b = b
      ↔ (Slot.cleared (b.take 32)).toList ++ b.drop 32 = b.take 32 ++ b.drop 32 := by
        rw [List.take_append_drop]
        rfl
    _ ↔ (Slot.cleared (b.take 32)).toList = b.take 32 := by rw [List.append_cancel_right_eq]

theorem toBytes_of_ofBytes {b : Bytes} {e : DirectoryEntry} (hlen : b.length = 64)
    (h : ofBytes b = .ok e) : e.toBytes = .ok (cleared b) := by
  obtain ⟨name, hname, rfl⟩ := Except.map_eq_ok_iff.mp h
  have hslot := Slot.ofName_of_nameOf (by simp [hlen]) hname
  have hhash : (Bytes.padded 32 (b.drop 32)).toList = b.drop 32 := by
    rw [Bytes.toList_padded, List.take_of_length_le (by simp [hlen])]
    simp [hlen]
  unfold toBytes
  rw [hslot]
  exact congrArg (fun hash => Except.ok ((Slot.cleared (b.take 32)).toList ++ hash)) hhash

theorem length_allOfBytes {count : Nat} {b : Bytes} {es : List DirectoryEntry}
    (h : allOfBytes count b = .ok es) : es.length = count := by
  induction count generalizing b es with
  | zero => cases Except.ok.inj h; rfl
  | succ count ih =>
    obtain ⟨e, -, h⟩ := Except.bind_eq_ok_iff.mp h
    obtain ⟨rest, hrest, h⟩ := Except.bind_eq_ok_iff.mp h
    cases Except.ok.inj h
    rw [List.length_cons, ih hrest]

def allCleared (count : Nat) (b : Bytes) : Bytes := (Bytes.blocks 64 count b).flatMap cleared

theorem allToBytes_of_allOfBytes {count : Nat} {b : Bytes} {es : List DirectoryEntry}
    (hlen : b.length = 64 * count) (h : allOfBytes count b = .ok es) :
    allToBytes es = .ok (allCleared count b) := by
  induction count generalizing b es with
  | zero => cases Except.ok.inj h; rfl
  | succ count ih =>
    obtain ⟨e, he, h⟩ := Except.bind_eq_ok_iff.mp h
    obtain ⟨rest, hrest, h⟩ := Except.bind_eq_ok_iff.mp h
    cases Except.ok.inj h
    have htake : (b.take 64).length = 64 := by rw [List.length_take]; omega
    have hdrop : (b.drop 64).length = 64 * count := by rw [List.length_drop]; omega
    have hfirst := toBytes_of_ofBytes htake he
    have hothers := ih hdrop hrest
    unfold allToBytes
    rw [hfirst, hothers]
    rfl

theorem allCleared_eq_iff {count : Nat} {b : Bytes} (hlen : b.length = 64 * count) :
    allCleared count b = b ↔ ∀ entry ∈ Bytes.blocks 64 count b, Slot.Padded (entry.take 32) := by
  induction count generalizing b with
  | zero =>
    have hb : b = [] := List.eq_nil_of_length_eq_zero (by omega)
    simp [allCleared, Bytes.blocks, hb]
  | succ count ih =>
    have htake : (b.take 64).length = 64 := by rw [List.length_take]; omega
    have hdrop : (b.drop 64).length = 64 * count := by rw [List.length_drop]; omega
    have hrest := ih hdrop
    have hcons : allCleared (count + 1) b = cleared (b.take 64) ++ allCleared count (b.drop 64) := rfl
    rw [hcons, Bytes.blocks, List.forall_mem_cons, ← cleared_eq_iff htake, ← hrest]
    constructor
    · intro h
      rw [← List.take_append_drop 64 b] at h
      simpa using List.append_inj h (by simp [length_cleared, htake])
    · rintro ⟨hfirst, hothers⟩
      rw [hfirst, hothers, List.take_append_drop]

end DirectoryEntry

namespace Datum

theorem flatMap_digests {count : Nat} {b : Bytes} (hlen : b.length = 32 * count) :
    (digests count b).flatMap Vector.toList = b := by
  induction count generalizing b with
  | zero => exact (List.eq_nil_of_length_eq_zero (by omega)).symm
  | succ count ih =>
    have hfirst : (Bytes.padded 32 b).toList = b.take 32 := by
      rw [Bytes.toList_padded, show 32 - b.length = 0 by omega]
      simp
    rw [digests, List.flatMap_cons, hfirst, ih (by rw [List.length_drop]; omega), List.take_append_drop]

theorem length_digests (count : Nat) (b : Bytes) : (digests count b).length = count := by
  induction count generalizing b with
  | zero => rfl
  | succ count ih => rw [digests, List.length_cons, ih]

def clearedPayload (kind : DatumKind) (payload : Bytes) : Bytes :=
  match kind with
  | .chunk | .tree => payload
  | .directory => DirectoryEntry.allCleared (payload.length / 64) payload

theorem payload_of_readContent {kind : DatumKind} {payload : Bytes} {c : Content}
    (h : readContent kind payload = .ok c) :
    c.kind = kind ∧ c.InBounds ∧ c.payload = .ok (clearedPayload kind payload) := by
  unfold readContent at h
  cases kind with
  | chunk =>
    dsimp only at h
    split at h <;> try contradiction
    cases Except.ok.inj h
    exact ⟨rfl, (Content.inBounds_chunk _).mpr ‹_›, rfl⟩
  | tree =>
    dsimp only at h
    split at h <;> try contradiction
    split at h <;> cases h
    rename_i haligned hcount
    refine ⟨rfl, ?_, ?_⟩
    · rw [Content.inBounds_tree, length_digests]
      exact hcount
    · exact congrArg _ (flatMap_digests (by omega))
  | directory =>
    dsimp only at h
    split at h <;> try contradiction
    split at h <;> try contradiction
    split at h <;> cases h
    rename_i haligned hcount _ entries hentries
    have hpayload := DirectoryEntry.allToBytes_of_allOfBytes (by omega) hentries
    refine ⟨rfl, ?_, hpayload⟩
    rw [Content.inBounds_directory, DirectoryEntry.length_allOfBytes hentries]
    exact hcount

theorem parse_eq_ok {body : Bytes} {d : Datum} (h : parse body = .ok d) :
    ∃ payload, body = d.hash.toList ++ d.content.kind.toByte :: payload ∧
      readContent d.content.kind payload = .ok d.content := by
  unfold parse at h
  split at h
  · contradiction
  · rename_i k payload hdrop
    split at h
    · contradiction
    · rename_i kind hkind
      obtain ⟨c, hc, rfl⟩ := Except.map_eq_ok_iff.mp h
      obtain ⟨rfl, -, -⟩ := payload_of_readContent hc
      have hlen : 32 ≤ body.length := by
        have := congrArg List.length hdrop
        rw [List.length_drop, List.length_cons] at this
        omega
      have hhash : (Bytes.padded 32 body).toList = body.take 32 := by
        rw [Bytes.toList_padded, show 32 - body.length = 0 by omega]
        simp
      refine ⟨payload, ?_, hc⟩
      rw [hhash, DatumKind.toByte_of_ofByte? hkind, ← hdrop, List.take_append_drop]

def slotsOf (body : Bytes) : List Bytes :=
  if body[32]? = some DatumKind.directory.toByte then
    (Bytes.blocks 64 ((body.length - 33) / 64) (body.drop 33)).map (·.take 32)
  else []

theorem slotsOf_append (hash : Digest) (kind : DatumKind) (payload : Bytes) :
    slotsOf (hash.toList ++ kind.toByte :: payload) =
      if kind = .directory then
        (Bytes.blocks 64 (payload.length / 64) payload).map (·.take 32)
      else [] := by
  have hkind : (hash.toList ++ kind.toByte :: payload)[32]? = some kind.toByte := by simp
  have hpayload : (hash.toList ++ kind.toByte :: payload).drop 33 = payload := by
    rw [List.drop_append]
    simp
  have hlen : (hash.toList ++ kind.toByte :: payload).length - 33 = payload.length := by
    simp only [List.length_append, Vector.length_toList, List.length_cons]
    omega
  unfold slotsOf
  rw [hkind, hpayload, hlen]
  cases kind <;> rfl

theorem clearedPayload_eq_iff {kind : DatumKind} {payload : Bytes} {c : Content}
    (h : readContent kind payload = .ok c) (hash : Digest) :
    clearedPayload kind payload = payload ↔
      ∀ slot ∈ slotsOf (hash.toList ++ kind.toByte :: payload), Slot.Padded slot := by
  rw [slotsOf_append]
  cases kind with
  | chunk => simp [clearedPayload]
  | tree => simp [clearedPayload]
  | directory =>
    have haligned : payload.length = 64 * (payload.length / 64) := by
      unfold readContent at h
      dsimp only at h
      split at h
      · contradiction
      · omega
    rw [if_pos rfl, List.forall_mem_map]
    exact DirectoryEntry.allCleared_eq_iff haligned

/-- Whatever parses can be written again: the same hash, the same kind, and the payload with its slots
cleared. It parses to the same datum. -/
theorem toBody_of_parse {body : Bytes} {d : Datum} (h : parse body = .ok d) :
    ∃ payload, body = d.hash.toList ++ d.content.kind.toByte :: payload ∧
      readContent d.content.kind payload = .ok d.content ∧
      d.toBody = .ok
        (d.hash.toList ++ d.content.kind.toByte :: clearedPayload d.content.kind payload) ∧
      parse (d.hash.toList ++ d.content.kind.toByte :: clearedPayload d.content.kind payload) =
        .ok d := by
  obtain ⟨payload, hbody, hread⟩ := parse_eq_ok h
  obtain ⟨-, hbounds, hpayload⟩ := payload_of_readContent hread
  have hagain := toBody_eq_ok_iff.mpr ⟨_, hpayload, rfl⟩
  exact ⟨payload, hbody, hread, hagain, parse_of_toBody hbounds hagain⟩

theorem length_of_parse {body : Bytes} {d : Datum} (h : parse body = .ok d) : 33 ≤ body.length := by
  obtain ⟨payload, rfl, -⟩ := parse_eq_ok h
  simp only [List.length_append, Vector.length_toList, List.length_cons]
  omega

theorem checkIntegrity_eq_ok_iff {body : Bytes} :
    checkIntegrity body = .ok () ↔
      (Sha256.digest (body.drop 32)).toList = body.take 32 ∧ ∃ d, parse body = .ok d := by
  unfold checkIntegrity
  constructor
  · intro h
    split at h
    · contradiction
    · split at h
      · contradiction
      · rename_i hdigest
        obtain ⟨d, hd, -⟩ := Except.map_eq_ok_iff.mp h
        exact ⟨Classical.not_not.mp hdigest, d, hd⟩
  · rintro ⟨hdigest, d, hd⟩
    have hlength := length_of_parse hd
    rw [if_neg (by omega), if_neg (Classical.not_not.mpr hdigest), hd]
    rfl

/-- A slot that reads as a name is given back by that name exactly if it is padded with zeros. A body that
parses is given back by its datum exactly if all its slots are, and a body that passes the check passes it
again after that if no byte was lost or the lost bytes leave the digest as it was. -/
theorem reencoding (slot : Slot) (name : String) (body : Bytes) (d : Datum) :
    (Slot.nameOf slot.toList = .ok name →
      ∃ again, Slot.ofName name = .ok again ∧ (again = slot ↔ Slot.Padded slot.toList)) ∧
    (parse body = .ok d →
      ∃ again, d.toBody = .ok again ∧
        (again = body ↔ ∀ slot ∈ slotsOf body, Slot.Padded slot) ∧
        (checkIntegrity body = .ok () →
          (checkIntegrity again = .ok () ↔
            Sha256.digest (again.drop 32) = Sha256.digest (body.drop 32)))) := by
  constructor
  · intro h
    refine ⟨_, Slot.ofName_of_nameOf (by simp) h, ?_⟩
    rw [← Vector.toList_inj, Slot.cleared_eq_iff (by simp)]
  · intro h
    obtain ⟨payload, rfl, hread, hagain, hparse⟩ := toBody_of_parse h
    refine ⟨_, hagain, ?_, fun hintegrity => ?_⟩
    · rw [← clearedPayload_eq_iff hread d.hash, List.append_cancel_left_eq, List.cons_inj_right]
    · have hdigest := (checkIntegrity_eq_ok_iff.mp hintegrity).1
      rw [checkIntegrity_eq_ok_iff, ← Vector.toList_inj, hdigest]
      simp [hparse]

/-- A directory of two names, one of which has a letter of two bytes and one the whole width of a slot. -/
theorem reencoding_of_two_names :
    let short : Slot := Bytes.padded 32 (Utf8.encode "é.txt")
    let wide : Slot := Vector.replicate 32 0x61
    let hash : Digest := Vector.replicate 32 7
    let stated : Digest :=
      #v[222, 115, 23, 140, 62, 89, 227, 5, 117, 200, 104, 165, 230, 138, 135, 98, 192, 58, 99,
      216, 15, 199, 239, 21, 135, 200, 88, 115, 30, 14, 36, 209]
    let body := stated.toList ++ 2 :: (short.toList ++ hash.toList ++ (wide.toList ++ hash.toList))
    Slot.nameOf short.toList = .ok "é.txt" ∧ Slot.ofName "é.txt" = .ok short ∧
      checkIntegrity body = .ok () ∧ ∃ d, parse body = .ok d ∧ d.toBody = .ok body := by
  intro short wide hash stated body
  have hname : Slot.nameOf short.toList = .ok "é.txt" := by decide +kernel
  let d : Datum := ⟨stated,
    .directory [⟨"é.txt", hash⟩, ⟨"aaaaaaaaaaaaaaaaaaaaaaaaaaaaaaaa", hash⟩]⟩
  have hparse : parse body = .ok d := by decide +kernel
  have hintegrity : checkIntegrity body = .ok () := by decide +kernel
  obtain ⟨hnames, hbodies⟩ := reencoding short "é.txt" body d
  obtain ⟨slot, hslot, hsame⟩ := hnames hname
  obtain ⟨again, hagain, hbody, hchecked⟩ := hbodies hparse
  cases hsame.mpr (by decide +kernel)
  cases hbody.mpr (by decide +kernel)
  exact ⟨hname, hslot, (hchecked hintegrity).mpr rfl, d, hparse, hagain⟩

/-- A slot with a byte after its first zero reads as a name that is not given back as that slot. The body
of such a directory passes the check, and what its datum is written to does not. -/
theorem not_reencoded_after_zero :
    let slot : Slot := Bytes.padded 32 [0x61, 0, 0x62]
    let hash : Digest := Vector.replicate 32 7
    let stated : Digest :=
      #v[30, 246, 18, 107, 127, 137, 103, 122, 106, 216, 96, 27, 241, 126, 242, 254, 83, 96, 13,
      26, 201, 96, 33, 163, 52, 112, 20, 97, 81, 132, 118, 153]
    let body := stated.toList ++ 2 :: (slot.toList ++ hash.toList)
    Slot.nameOf slot.toList = .ok "a" ∧ Slot.ofName "a" ≠ .ok slot ∧
      checkIntegrity body = .ok () ∧
      ∃ d again, parse body = .ok d ∧ d.toBody = .ok again ∧ again ≠ body ∧
        checkIntegrity again = .error .corrupted := by
  intro slot hash stated body
  refine ⟨by decide +kernel, by decide +kernel, by decide +kernel,
    ⟨stated, .directory [⟨"a", hash⟩]⟩,
    stated.toList ++ 2 :: ((Slot.cleared slot.toList).toList ++ hash.toList), ?_, ?_, ?_, ?_⟩
  all_goals decide +kernel

end Datum
end TreeShare
