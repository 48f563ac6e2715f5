import TreeShare.Text.Utf8

/-! UTF-8 one character at a time. A byte below 128 is a character of its own wherever it stands, so text can
be cut at such a character before it is decoded or after. Main statement: `exists_decode?_iff_splitOn`. -/
namespace TreeShare.Utf8

theorem encode_eq_flatMap (s : String) : encode s = s.toList.flatMap String.utf8EncodeChar := by
  unfold encode
  rw [← String.utf8Encode_toList, List.utf8Encode, List.data_toByteArray]

theorem encode_ofList (cs : List Char) :
    encode (String.ofList cs) = cs.flatMap String.utf8EncodeChar := by
  rw [encode_eq_flatMap, String.toList_ofList]

theorem encode_eq_nil_iff {s : String} : encode s = [] ↔ s = "" :=
  ⟨fun h => encode_inj h, fun h => h ▸ encode_empty⟩

variable {c d : Char}

theorem utf8EncodeChar_of_ascii (hd : d.toNat < 128) :
    String.utf8EncodeChar d = [UInt8.ofNat d.toNat] := by
  have hcode : d.val.toNat ≤ 0x7f := Nat.le_of_lt_succ hd
  unfold String.utf8EncodeChar
  dsimp only
  rw [if_pos hcode]
  rfl

theorem encode_of_ascii {cs : List Char} (h : ∀ c ∈ cs, c.toNat < 128) :
    encode (String.ofList cs) = cs.map fun c => UInt8.ofNat c.toNat := by
  rw [encode_ofList]
  induction cs with
  | nil => rfl
  | cons c cs ih =>
    obtain ⟨hc, hcs⟩ := List.forall_mem_cons.mp h
    rw [List.flatMap_cons, utf8EncodeChar_of_ascii hc, ih hcs, List.map_cons, List.singleton_append]

theorem ascii_mem_utf8EncodeChar (hd : d.toNat < 128) :
    UInt8.ofNat d.toNat ∈ String.utf8EncodeChar c ↔ c = d := by
  have hcode : c = d ↔ c.val.toNat = d.toNat := by
    rw [← Char.val_inj, ← UInt32.toNat_inj]
    rfl
  unfold String.utf8EncodeChar
  dsimp only
  rw [hcode]
  generalize d.toNat = x at hd
  generalize c.val.toNat = code
  repeat' split
  all_goals
    simp [← UInt8.toNat_inj]
    omega

theorem ascii_mem_encode (hd : d.toNat < 128) {s : String} :
    UInt8.ofNat d.toNat ∈ encode s ↔ d ∈ s.toList := by
  simp [encode_eq_flatMap, ascii_mem_utf8EncodeChar hd]

/-! Text in parts. -/

theorem flatMap_intercalate {α β : Type} (f : α → List β) (sep : List α) (parts : List (List α)) :
    (sep.intercalate parts).flatMap f = (sep.flatMap f).intercalate (parts.map (·.flatMap f)) := by
  induction parts with
  | nil => rfl
  | cons part parts ih =>
    cases parts with
    | nil => simp
    | cons next parts =>
      rw [List.intercalate_cons_cons, List.map_cons, List.map_cons, List.intercalate_cons_cons,
        List.flatMap_append, List.flatMap_append, ih, List.map_cons]

theorem encode_intercalate (hd : d.toNat < 128) (parts : List (List Char)) :
    encode (String.ofList ([d].intercalate parts)) =
      [UInt8.ofNat d.toNat].intercalate (parts.map fun part => encode (String.ofList part)) := by
  have hsep : [d].flatMap String.utf8EncodeChar = [UInt8.ofNat d.toNat] := by
    rw [List.flatMap_cons, utf8EncodeChar_of_ascii hd]
    rfl
  simp only [encode_ofList, flatMap_intercalate, hsep]

theorem notMem_of_mem_splitOn {α : Type} [DecidableEq α] {x : α} {xs part : List α}
    (h : part ∈ xs.splitOn x) : x ∉ part := by
  induction xs generalizing part with
  | nil =>
    rw [List.splitOn_nil, List.mem_singleton] at h
    exact h ▸ List.not_mem_nil
  | cons y xs ih =>
    rw [List.splitOn_cons_eq_if_modifyHead] at h
    split at h
    · rcases List.mem_cons.mp h with rfl | h
      · exact List.not_mem_nil
      · exact ih h
    · rename_i hyx
      obtain ⟨first, rest, hparts⟩ := List.exists_cons_of_ne_nil (List.splitOn_ne_nil x xs)
      rw [hparts] at ih h
      rw [List.modifyHead_cons] at h
      rcases List.mem_cons.mp h with rfl | h
      · rw [List.mem_cons, not_or]
        exact ⟨fun hy => hyx (beq_iff_eq.mpr hy.symm), ih List.mem_cons_self⟩
      · exact ih (List.mem_cons_of_mem _ h)

theorem encode_splitOn (hd : d.toNat < 128) (cs : List Char) :
    (encode (String.ofList cs)).splitOn (UInt8.ofNat d.toNat) =
      (cs.splitOn d).map fun part => encode (String.ofList part) := by
  have hwhole := encode_intercalate hd (cs.splitOn d)
  rw [List.intercalate_splitOn] at hwhole
  rw [hwhole]
  apply List.splitOn_intercalate
  · rw [List.forall_mem_map]
    intro part hpart
    rw [ascii_mem_encode hd, String.toList_ofList]
    exact notMem_of_mem_splitOn hpart
  · exact mt List.map_eq_nil_iff.mp (List.splitOn_ne_nil d cs)

/-- Bytes are text exactly if the parts between the bytes of a character of ASCII are. -/
theorem exists_decode?_iff_splitOn (hd : d.toNat < 128) {b : Bytes} :
    (∃ s, decode? b = some s) ↔
      ∀ part ∈ b.splitOn (UInt8.ofNat d.toNat), ∃ s, decode? part = some s := by
  constructor
  · rintro ⟨s, hs⟩ part hpart
    rw [← encode_of_decode? hs, ← String.ofList_toList (s := s), encode_splitOn hd] at hpart
    obtain ⟨cs, -, rfl⟩ := List.mem_map.mp hpart
    exact ⟨_, decode?_encode _⟩
  · intro h
    let text (part : Bytes) : List Char := ((decode? part).getD "").toList
    have htext : ∀ part ∈ b.splitOn (UInt8.ofNat d.toNat),
        encode (String.ofList (text part)) = part := by
      intro part hpart
      obtain ⟨s, hs⟩ := h part hpart
      simp only [text, hs, Option.getD_some, String.ofList_toList]
      exact encode_of_decode? hs
    refine ⟨String.ofList ([d].intercalate ((b.splitOn (UInt8.ofNat d.toNat)).map text)), ?_⟩
    rw [decode?_eq_some_iff, encode_intercalate hd, List.map_map]
    simp only [Function.comp_def]
    rw [List.map_congr_left htext, List.map_id', List.intercalate_splitOn]

end TreeShare.Utf8
