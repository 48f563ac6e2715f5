import TreeShare.Datum
import TreeShare.Message.Hello
import TreeShare.Message.Text
import TreeShare.Proofs.Except

/-! Readings that fail where they reach for what is not there. Each access to bytes and each difference is
an operation that can go wrong, and each function is written once more with these operations, in the order in
which it needs them. Main statements: `decode_eq`, `text_eq`, `parse_eq`, `checkIntegrity_eq` and
`toMessage_eq`, nothing goes wrong and what is read is the same. -/
namespace TreeShare

inductive Fault where
  | index (i size : Nat)
  | slice (start stop size : Nat)
  /-- Bytes for a field of another width. -/
  | width (expected size : Nat)
  | difference (a b : Nat)
deriving DecidableEq

abbrev Guarded := Except Fault

namespace Guarded

/-! The operations. -/

def byteAt (b : Bytes) (i : Nat) : Guarded UInt8 :=
  if h : i < b.length then .ok b[i] else .error (.index i b.length)

def slice (b : Bytes) (start stop : Nat) : Guarded { s : Bytes // s.length = stop - start } :=
  if h : start ≤ stop ∧ stop ≤ b.length then
    .ok ⟨(b.take stop).drop start, by rw [List.length_drop, List.length_take]; omega⟩
  else .error (.slice start stop b.length)

def field (width : Nat) (b : Bytes) : Guarded (Vector UInt8 width) :=
  match Bytes.block? width b with
  | some v => .ok v
  | none => .error (.width width b.length)

/-- A field of zeros with bytes written over its start. -/
def overlay (width : Nat) (b : Bytes) : Guarded (Vector UInt8 width) :=
  if b.length ≤ width then .ok (Bytes.padded width b) else .error (.slice 0 b.length width)

def difference (a b : Nat) : Guarded Nat :=
  if b ≤ a then .ok (a - b) else .error (.difference a b)

section

variable {α β : Type}

@[simp] theorem pure_eq (a : α) : (pure a : Guarded α) = .ok a := rfl

theorem byteAt_eq {b : Bytes} {i : Nat} (h : i < b.length) : byteAt b i = .ok b[i] := dif_pos h

example : byteAt [1, 2] 2 = .error (.index 2 2) := rfl

theorem slice_eq {b : Bytes} {start stop : Nat} (h : start ≤ stop) (h' : stop ≤ b.length) :
    slice b start stop = .ok ⟨(b.take stop).drop start, by
      rw [List.length_drop, List.length_take]; omega⟩ :=
  dif_pos ⟨h, h'⟩

theorem block?_eq {width : Nat} {b : Bytes} (h : b.length = width) :
    Bytes.block? width b = some (Bytes.padded width b) := by
  rw [Bytes.block?_eq_some_iff, Bytes.toList_padded]
  simp [← h]

theorem padded_take (width : Nat) (b : Bytes) :
    Bytes.padded width (b.take width) = Bytes.padded width b := by
  have hzeros : width - min width b.length = width - b.length := by omega
  apply Vector.toList_inj.mp
  rw [Bytes.toList_padded, Bytes.toList_padded, List.take_take, Nat.min_self, List.length_take, hzeros]

theorem field_eq {width : Nat} {b : Bytes} (h : b.length = width) :
    field width b = .ok (Bytes.padded width b) := by
  unfold field
  rw [block?_eq h]

theorem overlay_eq {width : Nat} {b : Bytes} (h : b.length ≤ width) :
    overlay width b = .ok (Bytes.padded width b) := if_pos h

theorem difference_eq {a b : Nat} (h : b ≤ a) : difference a b = .ok (a - b) := if_pos h

theorem mapM_eq {f : α → Guarded β} {g : α → β} {l : List α} (h : ∀ a ∈ l, f a = .ok (g a)) :
    l.mapM f = .ok (l.map g) := by
  induction l with
  | nil => rfl
  | cons a l ih =>
    rw [List.mapM_cons, h a (by simp), ih fun b hb => h b (by simp [hb])]
    rfl

end

/-! Messages. -/

def decodeBody (data : Bytes) (id : UInt32) (type : MessageType) (size : Nat) (fits : size < 65536) :
    Guarded (Except MessageError Message) := do
  let bodyEnd := 7 + size
  if data.length < bodyEnd then pure (.error (.truncated size data.length))
  else
    let read (body : { s : Bytes // s.length = bodyEnd - 7 }) (signature : Option Signature) : Message :=
      ⟨id, type, body, signature, by omega⟩
    let extra ← difference data.length bodyEnd
    if extra = 0 then pure (.ok (read (← slice data 7 bodyEnd) none))
    else if extra = 64 then
      let signature ← field 64 (← slice data bodyEnd data.length)
      pure (.ok (read (← slice data 7 bodyEnd) (some signature)))
    else pure (.error (.trailing extra))

theorem toNat_pair_lt (p q : UInt8) : Bytes.toNat [p, q] < 65536 :=
  Nat.lt_of_lt_of_eq (Bytes.toNat_lt [p, q]) (show Bytes.capacity 2 = 65536 by decide)

def decode (buffer : Bytes) (count : Nat) : Guarded (Except MessageError Message) :=
  if count ≤ buffer.length then
    match buffer.take count with
    | i :: j :: k :: l :: t :: p :: q :: rest =>
      match MessageType.ofByte? t with
      | none => pure (.error (.unknownType t))
      | some type =>
        decodeBody (i :: j :: k :: l :: t :: p :: q :: rest) (UInt32.ofNat (Bytes.toNat [i, j, k, l])) type
          (Bytes.toNat [p, q]) (toNat_pair_lt p q)
    | data => pure (.error (.tooShort data.length))
  else pure (.error (.tooShort buffer.length))

theorem length_take_lt {size : Nat} (fits : size < 65536) (data : Bytes) :
    ((data.drop 7).take size).length < 65536 := by
  rw [List.length_take]
  omega

theorem decodeBody_eq {data : Bytes} (hheader : 7 ≤ data.length) (id : UInt32) (type : MessageType)
    {size : Nat} (fits : size < 65536) :
    decodeBody data id type size fits = .ok (
      if (data.drop 7).length < size then .error (.truncated size data.length)
      else
        let read (signature : Option Signature) : Message :=
          ⟨id, type, (data.drop 7).take size, signature, length_take_lt fits data⟩
        let extra := (data.drop 7).drop size
        if extra = [] then .ok (read none)
        else match Bytes.block? 64 extra with
          | some s => .ok (read (some s))
          | none => .error (.trailing extra.length)) := by
  have hrest : (data.drop 7).length = data.length - 7 := List.length_drop
  unfold decodeBody
  by_cases hshort : data.length < 7 + size
  · rw [if_pos hshort, if_pos (by omega)]
    rfl
  · have hbody : (data.drop 7).take size = (data.take (7 + size)).drop 7 := by
      rw [List.drop_take, Nat.add_sub_cancel_left]
    have hextra : ((data.drop 7).drop size).length = data.length - (7 + size) := by
      rw [List.length_drop, hrest, Nat.sub_sub]
    have hread : slice data 7 (7 + size) = .ok ⟨(data.take (7 + size)).drop 7, _⟩ :=
      slice_eq (by omega) (by omega)
    rw [if_neg hshort, if_neg (by omega), difference_eq (by omega)]
    simp only [Except.bind_ok, hread, pure_eq]
    by_cases hnone : data.length - (7 + size) = 0
    · rw [if_pos hnone, if_pos (List.eq_nil_of_length_eq_zero (hextra.trans hnone))]
      simp only [hbody]
    · have hsome : (data.drop 7).drop size ≠ [] := by
        intro h
        rw [h] at hextra
        exact hnone hextra.symm
      rw [if_neg hnone, if_neg hsome, hextra]
      by_cases hsigned : data.length - (7 + size) = 64
      · have hblock : Bytes.block? 64 ((data.drop 7).drop size) =
            some (Bytes.padded 64 ((data.drop 7).drop size)) :=
          block?_eq (hextra.trans hsigned)
        have htail : (data.take data.length).drop (7 + size) = (data.drop 7).drop size := by
          rw [List.take_length, List.drop_drop]
        rw [if_pos hsigned, slice_eq (by omega) (Nat.le_refl _), hblock]
        simp only [Except.bind_ok, htail, field_eq (hextra.trans hsigned), hbody]
      · have hblock : Bytes.block? 64 ((data.drop 7).drop size) = none :=
          dif_neg (hextra ▸ hsigned)
        rw [if_neg hsigned, hblock]

theorem decode_eq (buffer : Bytes) (count : Nat) :
    decode buffer count = .ok (Message.decode buffer count) := by
  unfold decode Message.decode
  by_cases hcount : count ≤ buffer.length
  · rw [if_pos hcount, if_pos hcount]
    generalize buffer.take count = data
    unfold Message.ofDatagram
    split
    · rename_i i j k l t p q rest
      cases ht : MessageType.ofByte? t with
      | none => simp [ht]
      | some type =>
        simp only [ht]
        exact decodeBody_eq (by simp) _ _ _
    · rename_i hshort
      split
      · exact (hshort _ _ _ _ _ _ _ _ rfl).elim
      · rfl
  · rw [if_neg hcount, if_neg hcount]
    rfl

def nameEnd (slot : Bytes) : Nat := (slot.findIdx? (· = 0)).getD slot.length

theorem take_nameEnd (slot : Bytes) : slot.take (nameEnd slot) = Slot.used slot := by
  unfold nameEnd Slot.used
  rw [← List.findIdx_eq_getD_findIdx?, List.takeWhile_eq_take_findIdx_not]
  simp

theorem nameEnd_le (slot : Bytes) : nameEnd slot ≤ slot.length := by
  unfold nameEnd
  rw [← List.findIdx_eq_getD_findIdx?]
  exact List.findIdx_le_length

def used (slot : Bytes) : Guarded Bytes := do pure (← slice slot 0 (nameEnd slot))

theorem used_eq (slot : Bytes) : used slot = .ok (Slot.used slot) := by
  unfold used
  rw [slice_eq (Nat.zero_le _) (nameEnd_le slot)]
  simp only [Except.bind_ok, pure_eq, List.drop_zero, take_nameEnd]

def entryName (body : Bytes) (i : Nat) : Guarded String := do
  let start := 33 + i * 64
  let raw ← slice body start (start + 32)
  pure (Utf8.lossy (← used raw))

def entryNames (body : Bytes) : Guarded (List String) :=
  (List.range ((body.length - 33) / 64)).mapM (entryName body)

def text (m : Message) : Guarded String := do
  let kind? := if m.type = .datum then m.body[32]?.bind DatumKind.ofByte? else none
  let kind := match kind? with
    | some k => " " ++ k.name
    | none => ""
  let shown ← slice m.body 0 (min m.body.length 100)
  let children ←
    if m.type = .datum ∧ m.body[32]? = some DatumKind.directory.toByte then do
      pure (" Children:" ++ String.join ((← entryNames m.body).map (" " ++ ·)))
    else pure ""
  pure (s!"Id: {m.id.toNat} Type: {m.type.name}{kind} Length: {m.body.length} "
    ++ s!"Body: {Utf8.lossy shown}{children}")

theorem blocks_eq (width count : Nat) (b : Bytes) :
    Bytes.blocks width count b = (List.range count).map fun i => (b.drop (width * i)).take width := by
  induction count generalizing b with
  | zero => rfl
  | succ count ih =>
    rw [Bytes.blocks, ih, List.range_succ_eq_map, List.map_cons, List.map_map]
    congr 1
    apply List.map_congr_left
    intro i _
    simp only [Function.comp_apply, List.drop_drop]
    congr 2
    rw [Nat.mul_succ, Nat.add_comm]

theorem entryName_eq {body : Bytes} {i : Nat} (h : i < (body.length - 33) / 64) :
    entryName body i = .ok (Utf8.lossy (Slot.used (((body.drop 33).drop (64 * i)).take 64 |>.take 32))) := by
  have hend : 33 + i * 64 + 32 ≤ body.length := by omega
  have hraw : (((body.drop 33).drop (64 * i)).take 64).take 32 =
      (body.take (33 + i * 64 + 32)).drop (33 + i * 64) := by
    rw [List.take_take, List.drop_drop, List.drop_take, Nat.mul_comm 64]
    congr 1
    omega
  unfold entryName
  simp only [slice_eq (Nat.le_add_right _ _) hend, Except.bind_ok, used_eq, pure_eq, hraw]

theorem entryNames_eq (body : Bytes) : entryNames body = .ok (Message.entryNames body) := by
  unfold entryNames Message.entryNames
  rw [blocks_eq, List.map_map]
  exact mapM_eq fun i hi => entryName_eq (List.mem_range.mp hi)

theorem ofByte?_eq_directory_iff {b : UInt8} :
    DatumKind.ofByte? b = some .directory ↔ b = DatumKind.directory.toByte :=
  ⟨fun h => (DatumKind.toByte_of_ofByte? h).symm, fun h => h ▸ DatumKind.ofByte?_toByte _⟩

theorem text_eq (m : Message) : text m = .ok m.text := by
  have hdirectory : (if m.type = .datum then m.body[32]?.bind DatumKind.ofByte? else none) =
      some .directory ↔ m.type = .datum ∧ m.body[32]? = some DatumKind.directory.toByte := by
    by_cases ht : m.type = .datum
    · simp [ht, Option.bind_eq_some_iff, ofByte?_eq_directory_iff]
    · simp [ht]
  have hshown : (m.body.take (min m.body.length 100)).drop 0 = m.body.take 100 := by
    rw [List.drop_zero, Nat.min_comm, ← List.take_take, List.take_length]
  unfold text Message.text
  simp only [slice_eq (Nat.zero_le _) (Nat.min_le_left _ _), Except.bind_ok, hshown, entryNames_eq, pure_eq,
    hdirectory]
  split <;> rfl

/-! Datums. -/

def nameOf (slot : Bytes) : Guarded (Except NameError String) := do
  if nameEnd slot = 0 then pure (.error .empty)
  else
    let b ← used slot
    match Utf8.decode? b with
    | some name => pure (.ok name)
    | none => pure (.error (.notUtf8 b))

def entry (b : Bytes) : Guarded (Except NameError DirectoryEntry) := do
  match ← nameOf (← slice b 0 32) with
  | .error cause => pure (.error cause)
  | .ok name => pure (.ok ⟨name, ← field 32 (← slice b 32 b.length)⟩)

def entries : List Bytes → Guarded (Except NameError (List DirectoryEntry))
  | [] => pure (.ok [])
  | b :: rest => do
    match ← entry b with
    | .error cause => pure (.error cause)
    | .ok e => pure ((← entries rest).map (e :: ·))

def readContent (kind : DatumKind) (payload : Bytes) : Guarded (Except DatumError Content) :=
  match kind with
  | .chunk =>
    if payload.length ≤ 1024 then pure (.ok (.chunk payload))
    else pure (.error (.chunkTooLarge payload.length))
  | .tree => do
    let count := payload.length / 32
    if payload.length % 32 ≠ 0 then pure (.error (.misaligned kind payload.length))
    else if 2 ≤ count ∧ count ≤ 32 then
      pure (.ok (.tree (← (Bytes.blocks 32 count payload).mapM (field 32))))
    else pure (.error (.fanout count))
  | .directory => do
    let count := payload.length / 64
    if payload.length % 64 ≠ 0 then pure (.error (.misaligned kind payload.length))
    else if count ≤ 16 then
      match ← entries (Bytes.blocks 64 count payload) with
      | .ok entries => pure (.ok (.directory entries))
      | .error cause => pure (.error (.badName cause))
    else pure (.error (.tooManyEntries count))

def parse (body : Bytes) : Guarded (Except DatumError Datum) := do
  if body.length < 33 then pure (.error (.tooShort body.length))
  else
    let hash ← field 32 (← slice body 0 32)
    let k ← byteAt body 32
    match DatumKind.ofByte? k with
    | none => pure (.error (.unknownKind k))
    | some kind => pure ((← readContent kind (← slice body 33 body.length)).map fun c => ⟨hash, c⟩)

def checkIntegrity (body : Bytes) : Guarded (Except DatumError Unit) := do
  if body.length < 33 then pure (.error (.tooShort body.length))
  else
    let rest ← slice body 32 body.length
    let stated ← slice body 0 32
    if (Sha256.digest rest).toList ≠ stated then pure (.error .corrupted)
    else pure ((← parse body).map fun _ => ())

def slotOf (name : String) : Guarded (Except NameError Slot) := do
  let b := Utf8.encode name
  if b = [] then pure (.error .empty)
  else if b.length > 32 then pure (.error (.tooLong name))
  else if (0 : UInt8) ∈ b then pure (.error (.hasNul name))
  else pure (.ok (← overlay 32 b))

def payloadOf : List DirectoryEntry → Guarded (Except NameError Bytes)
  | [] => pure (.ok [])
  | e :: es => do
    match ← slotOf e.name with
    | .error cause => pure (.error cause)
    | .ok slot => pure ((← payloadOf es).map (slot.toList ++ e.hash.toList ++ ·))

def toBody (d : Datum) : Guarded (Except DatumError Bytes) := do
  let payload : Except NameError Bytes ← match d.content with
    | .chunk data => pure (.ok data)
    | .tree children => pure (.ok (children.flatMap Vector.toList))
    | .directory entries => payloadOf entries
  pure ((payload.mapError .badName).map (d.hash.toList ++ d.content.kind.toByte :: ·))

theorem fits_of_full {body : Bytes} (h : body.length ≤ 1057) : body.length < 65536 :=
  Nat.lt_of_le_of_lt h (by decide)

def toMessage (id : UInt32) (d : Datum) : Guarded (Except DatumError Message) := do
  match ← toBody d with
  | .error cause => pure (.error cause)
  | .ok body =>
    if h : body.length ≤ 1057 then pure (.ok ⟨id, .datum, body, none, fits_of_full h⟩)
    else pure (.error (.chunkTooLarge (← difference body.length 33)))

theorem used_eq_nil_iff (slot : Bytes) : Slot.used slot = [] ↔ nameEnd slot = 0 := by
  rw [← List.length_eq_zero_iff, ← take_nameEnd, List.length_take, Nat.min_eq_left (nameEnd_le slot)]

theorem nameOf_eq (slot : Bytes) : nameOf slot = .ok (Slot.nameOf slot) := by
  unfold nameOf Slot.nameOf
  simp only [used_eq, Except.bind_ok, used_eq_nil_iff]
  cases Utf8.decode? (Slot.used slot) <;> split <;> rfl

theorem entry_eq {b : Bytes} (h : b.length = 64) : entry b = .ok (DirectoryEntry.ofBytes b) := by
  have hhash : (b.drop 32).length = 32 := by
    rw [List.length_drop, h]
  unfold entry DirectoryEntry.ofBytes
  rw [slice_eq (Nat.zero_le _) (by omega), slice_eq (by omega) (Nat.le_refl _)]
  simp only [Except.bind_ok, nameOf_eq, List.drop_zero, field_eq hhash, List.take_length]
  cases Slot.nameOf (b.take 32) <;> rfl

theorem entries_eq {count : Nat} {payload : Bytes} (h : payload.length = count * 64) :
    entries (Bytes.blocks 64 count payload) = .ok (DirectoryEntry.allOfBytes count payload) := by
  induction count generalizing payload with
  | zero => rfl
  | succ count ih =>
    have hfirst : (payload.take 64).length = 64 := by
      rw [List.length_take]
      omega
    have hrest : (payload.drop 64).length = count * 64 := by
      rw [List.length_drop]
      omega
    rw [Bytes.blocks, entries, entry_eq hfirst, DirectoryEntry.allOfBytes]
    cases DirectoryEntry.ofBytes (payload.take 64) with
    | error cause => rfl
    | ok e =>
      simp only [Except.bind_ok, ih hrest]
      cases DirectoryEntry.allOfBytes count (payload.drop 64) <;> rfl

theorem children_eq {count : Nat} {payload : Bytes} (h : payload.length = count * 32) :
    (Bytes.blocks 32 count payload).mapM (field 32) = .ok (Datum.digests count payload) := by
  induction count generalizing payload with
  | zero => rfl
  | succ count ih =>
    have hfirst : (payload.take 32).length = 32 := by
      rw [List.length_take]
      omega
    have hrest : (payload.drop 32).length = count * 32 := by
      rw [List.length_drop]
      omega
    rw [Bytes.blocks, List.mapM_cons, field_eq hfirst, ih hrest, padded_take]
    rfl

theorem readContent_eq (kind : DatumKind) (payload : Bytes) :
    readContent kind payload = .ok (Datum.readContent kind payload) := by
  unfold readContent Datum.readContent
  cases kind with
  | chunk =>
    dsimp only
    split <;> rfl
  | tree =>
    dsimp only
    split
    · rfl
    · split
      · rw [children_eq (by omega)]
        rfl
      · rfl
  | directory =>
    dsimp only
    split
    · rfl
    · split
      · rw [entries_eq (by omega)]
        cases DirectoryEntry.allOfBytes (payload.length / 64) payload <;> rfl
      · rfl

theorem parse_eq (body : Bytes) : parse body = .ok (Datum.parse body) := by
  unfold parse Datum.parse
  by_cases hshort : body.length < 33
  · rw [if_pos hshort, List.drop_eq_nil_of_le (by omega)]
    rfl
  · have hhash : (body.take 32).length = 32 := by
      rw [List.length_take]
      omega
    have hdrop : body.drop 32 = body[32] :: body.drop 33 := List.drop_eq_getElem_cons (by omega)
    rw [if_neg hshort, slice_eq (Nat.zero_le _) (by omega), slice_eq (by omega) (Nat.le_refl _), hdrop]
    simp only [Except.bind_ok, field_eq hhash, byteAt_eq (show 32 < body.length by omega), List.drop_zero,
      padded_take, List.take_length, readContent_eq]
    cases DatumKind.ofByte? body[32] <;> rfl

theorem checkIntegrity_eq (body : Bytes) : checkIntegrity body = .ok (Datum.checkIntegrity body) := by
  unfold checkIntegrity Datum.checkIntegrity
  split
  · rfl
  · rw [slice_eq (by omega) (Nat.le_refl _), slice_eq (Nat.zero_le _) (by omega)]
    simp only [Except.bind_ok, List.take_length, List.drop_zero, parse_eq]
    split <;> rfl

theorem slotOf_eq (name : String) : slotOf name = .ok (Slot.ofName name) := by
  unfold slotOf Slot.ofName
  dsimp only
  split
  · rfl
  · split
    · rfl
    · split
      · rfl
      · rw [overlay_eq (by omega)]
        rfl

theorem payloadOf_eq (es : List DirectoryEntry) :
    payloadOf es = .ok (DirectoryEntry.allToBytes es) := by
  induction es with
  | nil => rfl
  | cons e es ih =>
    rw [payloadOf, slotOf_eq, ih, DirectoryEntry.allToBytes, DirectoryEntry.toBytes]
    cases Slot.ofName e.name with
    | error cause => rfl
    | ok slot => cases DirectoryEntry.allToBytes es <;> rfl

theorem toBody_eq (d : Datum) : toBody d = .ok d.toBody := by
  obtain ⟨hash, content⟩ := d
  unfold toBody Datum.toBody
  cases content with
  | chunk data => rfl
  | tree children => rfl
  | directory entries =>
    simp only [payloadOf_eq, Except.bind_ok, Content.payload]
    cases DirectoryEntry.allToBytes entries <;> rfl

/-- Only a body that is far too large is measured. -/
theorem toMessage_eq (id : UInt32) (d : Datum) : toMessage id d = .ok (d.toMessage id) := by
  unfold toMessage Datum.toMessage
  rw [toBody_eq]
  cases d.toBody with
  | error cause => rfl
  | ok body =>
    simp only [Except.bind_ok]
    by_cases h : body.length ≤ 1057
    · rw [dif_pos h, dif_pos h]
      rfl
    · rw [dif_neg h, dif_neg h, difference_eq (by omega)]
      rfl

end Guarded
end TreeShare
