import TreeShare.Datum
import TreeShare.Proofs.Datum.Codec

/-! Content apart from any disk, and its hash. Main statement: `eq_or_collision`, a hash binds the whole
tree unless two of its nodes collide. -/
namespace TreeShare

/-- A file, or a directory with its entries by name. -/
inductive FileTree where
  | file (data : Bytes)
  | directory (entries : List (Bytes × FileTree))

namespace FileTree

@[elab_as_elim, induction_eliminator]
theorem induction {motive : FileTree → Prop} (file : ∀ data, motive (.file data))
    (directory : ∀ entries, (∀ e ∈ entries, motive e.2) → motive (.directory entries)) :
    ∀ t, motive t
  | .file data => file data
  | .directory entries => directory entries fun e _ => induction file directory e.2
termination_by t => sizeOf t
decreasing_by
  rename_i he
  have hlt := List.sizeOf_lt_of_mem he
  obtain ⟨name, t⟩ := e
  simp at *
  omega

mutual

def hash : FileTree → Digest
  | .file data => Sha256.digest (0 :: data)
  | .directory entries => Sha256.digest (2 :: payload entries)

def payload : List (Bytes × FileTree) → Bytes
  | [] => []
  | (name, t) :: rest => (Bytes.padded 32 name).toList ++ t.hash.toList ++ payload rest

end

def preimage : FileTree → Bytes
  | .file data => 0 :: data
  | .directory entries => 2 :: payload entries

theorem hash_eq_digest (t : FileTree) : t.hash = Sha256.digest t.preimage := by
  cases t <;> rw [hash, preimage]

inductive PartOf : FileTree → FileTree → Prop
  | refl (t : FileTree) : PartOf t t
  | entry {s : FileTree} {entries : List (Bytes × FileTree)} {e : Bytes × FileTree} :
      e ∈ entries → PartOf s e.2 → PartOf s (.directory entries)

@[simp] theorem partOf_file {s : FileTree} {data : Bytes} :
    s.PartOf (.file data) ↔ s = .file data := by
  constructor
  · intro h
    cases h
    rfl
  · rintro rfl
    exact .refl _

@[simp] theorem partOf_directory {s : FileTree} {entries : List (Bytes × FileTree)} :
    s.PartOf (.directory entries) ↔ s = .directory entries ∨ ∃ e ∈ entries, s.PartOf e.2 := by
  constructor
  · intro h
    cases h with
    | refl => exact .inl rfl
    | entry he hs => exact .inr ⟨_, he, hs⟩
  · rintro (rfl | ⟨e, he, hs⟩)
    · exact .refl _
    · exact .entry he hs

theorem PartOf.trans {r s t : FileTree} (hrs : r.PartOf s) (hst : s.PartOf t) : r.PartOf t := by
  induction hst with
  | refl => exact hrs
  | entry he _ ih => exact .entry he ih

/-- Somewhere in two trees there are two different nodes with one digest. -/
def Collision (s t : FileTree) : Prop :=
  ∃ a b : FileTree, a.PartOf s ∧ b.PartOf t ∧ a.preimage ≠ b.preimage ∧
    Sha256.digest a.preimage = Sha256.digest b.preimage

theorem Collision.mono {s s' t t' : FileTree} (h : Collision s t) (hs : s.PartOf s')
    (ht : t.PartOf t') : Collision s' t' := by
  obtain ⟨a, b, ha, hb, hcollide⟩ := h
  exact ⟨a, b, ha.trans hs, hb.trans ht, hcollide⟩

theorem collision_of_preimage_ne {s t : FileTree} (hne : s.preimage ≠ t.preimage)
    (h : s.hash = t.hash) : Collision s t := by
  rw [hash_eq_digest, hash_eq_digest] at h
  exact ⟨s, t, .refl s, .refl t, hne, h⟩

mutual

def parts : FileTree → List FileTree
  | .file data => [.file data]
  | .directory entries => .directory entries :: partsOfAll entries

def partsOfAll : List (Bytes × FileTree) → List FileTree
  | [] => []
  | (_, t) :: rest => t.parts ++ partsOfAll rest

end

theorem mem_partsOfAll {s : FileTree} {entries : List (Bytes × FileTree)} :
    s ∈ partsOfAll entries ↔ ∃ e ∈ entries, s ∈ e.2.parts := by
  induction entries with
  | nil => simp [partsOfAll]
  | cons e entries ih => simp [partsOfAll, ih]

theorem mem_parts {s t : FileTree} : s ∈ t.parts ↔ s.PartOf t := by
  induction t with
  | file data => simp [parts]
  | directory entries ih =>
    rw [parts, List.mem_cons, mem_partsOfAll, partOf_directory]
    apply or_congr_right
    constructor
    · rintro ⟨e, he, hs⟩
      exact ⟨e, he, (ih e he).mp hs⟩
    · rintro ⟨e, he, hs⟩
      exact ⟨e, he, (ih e he).mpr hs⟩

instance (s t : FileTree) : Decidable (Collision s t) :=
  decidable_of_iff (∃ a ∈ s.parts, ∃ b ∈ t.parts, a.preimage ≠ b.preimage ∧
      Sha256.digest a.preimage = Sha256.digest b.preimage) (by
    simp only [mem_parts, Collision]
    constructor
    · rintro ⟨a, ha, b, hb, h⟩
      exact ⟨a, b, ha, hb, h⟩
    · rintro ⟨a, b, ha, hb, h⟩
      exact ⟨a, ha, b, hb, h⟩)

/-- What is asked of the data of a file, or of the names in a directory. -/
def Here (file : Bytes → Prop) (names : List Bytes → Prop) : FileTree → Prop
  | .file data => file data
  | .directory entries => names (entries.map Prod.fst)

def Every (file : Bytes → Prop) (names : List Bytes → Prop) (t : FileTree) : Prop :=
  ∀ s : FileTree, s.PartOf t → s.Here file names

section Every

variable {file : Bytes → Prop} {names : List Bytes → Prop}

theorem Every.part {s t : FileTree} (h : Every file names t) (hs : s.PartOf t) :
    Every file names s :=
  fun r hr => h r (hr.trans hs)

@[simp] theorem every_file {data : Bytes} : Every file names (.file data) ↔ file data := by
  simp [Every, Here]

@[simp] theorem every_directory {entries : List (Bytes × FileTree)} :
    Every file names (.directory entries) ↔
      names (entries.map Prod.fst) ∧ ∀ e ∈ entries, Every file names e.2 := by
  simp only [Every, partOf_directory]
  constructor
  · intro h
    exact ⟨h _ (.inl rfl), fun e he s hs => h s (.inr ⟨e, he, hs⟩)⟩
  · rintro ⟨hnames, hbelow⟩ s (rfl | ⟨e, he, hs⟩)
    · exact hnames
    · exact hbelow e he s hs

instance [DecidablePred file] [DecidablePred names] (t : FileTree) :
    Decidable (Here file names t) := by
  cases t <;> unfold Here <;> infer_instance

instance [DecidablePred file] [DecidablePred names] (t : FileTree) :
    Decidable (Every file names t) :=
  decidable_of_iff (∀ s ∈ t.parts, s.Here file names) (by simp only [mem_parts, Every])

end Every

def Slotted : FileTree → Prop :=
  Every (fun _ => True) fun names => ∀ name ∈ names, name.length ≤ 32 ∧ (0 : UInt8) ∉ name

theorem used_padded {name : Bytes} (hname : name.length ≤ 32 ∧ (0 : UInt8) ∉ name) :
    Slot.used (Bytes.padded 32 name).toList = name := by
  rw [Bytes.toList_padded, List.take_of_length_le hname.1]
  exact Slot.used_append_zeros hname.2 _

theorem payload_cons_inj {e f : Bytes × FileTree} {es fs : List (Bytes × FileTree)}
    (h : payload (e :: es) = payload (f :: fs)) :
    Bytes.padded 32 e.1 = Bytes.padded 32 f.1 ∧ e.2.hash = f.2.hash ∧
      payload es = payload fs := by
  rw [payload, payload, List.append_assoc, List.append_assoc] at h
  obtain ⟨hname, h⟩ := List.append_inj h (by rw [Vector.length_toList, Vector.length_toList])
  obtain ⟨hhash, hrest⟩ := List.append_inj h (by simp)
  exact ⟨Vector.toList_inj.mp hname, Vector.toList_inj.mp hhash, hrest⟩

theorem payload_cons_ne_nil (e : Bytes × FileTree) (es : List (Bytes × FileTree)) :
    payload (e :: es) ≠ [] := by
  intro h
  have hlen := congrArg List.length h
  rw [payload] at hlen
  simp at hlen

theorem entries_eq_or {P : Prop} {es fs : List (Bytes × FileTree)}
    (hes : ∀ name ∈ es.map Prod.fst, name.length ≤ 32 ∧ (0 : UInt8) ∉ name)
    (hfs : ∀ name ∈ fs.map Prod.fst, name.length ≤ 32 ∧ (0 : UInt8) ∉ name)
    (hbelow : ∀ e ∈ es, ∀ f ∈ fs, e.2.hash = f.2.hash → e.2 = f.2 ∨ P)
    (h : payload es = payload fs) : es = fs ∨ P := by
  induction es generalizing fs with
  | nil =>
    cases fs with
    | nil => exact .inl rfl
    | cons f fs => exact absurd h.symm (payload_cons_ne_nil f fs)
  | cons e es ih =>
    cases fs with
    | nil => exact absurd h (payload_cons_ne_nil e es)
    | cons f fs =>
      obtain ⟨hslot, hhash, hrest⟩ := payload_cons_inj h
      rw [List.map_cons, List.forall_mem_cons] at hes hfs
      have hname : e.1 = f.1 := by
        rw [← used_padded hes.1, hslot, used_padded hfs.1]
      rcases hbelow e (by simp) f (by simp) hhash with htree | hp
      · have hlater : ∀ x ∈ es, ∀ y ∈ fs, x.2.hash = y.2.hash → x.2 = y.2 ∨ P :=
          fun x hx y hy => hbelow x (by simp [hx]) y (by simp [hy])
        apply (ih hes.2 hfs.2 hlater hrest).imp_left
        intro heq
        rw [Prod.ext hname htree, heq]
      · exact .inr hp

/-- Trees with one hash are the same, unless there is a collision in them. The kind byte keeps files and
directories apart. -/
theorem eq_or_collision {s t : FileTree} (hs : s.Slotted) (ht : t.Slotted) (h : s.hash = t.hash) :
    s = t ∨ Collision s t := by
  -- Two nodes with one digest have one preimage, or they collide themselves.
  induction s generalizing t with
  | file data =>
    by_cases hsame : (file data).preimage = t.preimage
    · cases t with
      | file data' => exact .inl (congrArg file (List.cons.inj hsame).2)
      | directory fs => cases hsame
    · exact .inr (collision_of_preimage_ne hsame h)
  | directory es ih =>
    by_cases hsame : (directory es).preimage = t.preimage
    · cases t with
      | file data => cases hsame
      | directory fs =>
        obtain ⟨hes, hes'⟩ := every_directory.mp hs
        obtain ⟨hfs, hfs'⟩ := every_directory.mp ht
        have hbelow : ∀ e ∈ es, ∀ f ∈ fs, e.2.hash = f.2.hash →
            e.2 = f.2 ∨ Collision (directory es) (directory fs) := by
          intro e he f hf hhash
          apply (ih e he (hes' e he) (hfs' f hf) hhash).imp_right
          intro hcollision
          exact hcollision.mono (.entry he (.refl _)) (.entry hf (.refl _))
        exact (entries_eq_or hes hfs hbelow (List.cons.inj hsame).2).imp_left (congrArg directory)
    · exact .inr (collision_of_preimage_ne hsame h)

end FileTree
end TreeShare
