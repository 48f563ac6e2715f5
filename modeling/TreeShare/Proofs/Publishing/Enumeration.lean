import Mathlib.Data.List.Dedup
import TreeShare.Publishing.Build
import TreeShare.Proofs.Except

/-! Directories listed in other orders. A walk puts the names of a directory in order before it looks at
any of them, so that nothing it finds, and no error it ends with, shows how a directory was listed. Main
statement: `enumeration_independent`. -/
namespace TreeShare

namespace Disk

/-- The same objects at the same places, with each directory listed in an order of its own. -/
structure Reordered (d d' : Disk) : Prop where
  object : ∀ loc, d'.object? loc = d.object? loc
  names : ∀ loc, (d'.namesIn loc).Perm (d.namesIn loc)

variable {d d' : Disk}

theorem Reordered.refl (d : Disk) : d.Reordered d := ⟨fun _ => rfl, fun _ => .refl _⟩

theorem Reordered.symm (h : d.Reordered d') : d'.Reordered d :=
  ⟨fun loc => (h.object loc).symm, fun loc => (h.names loc).symm⟩

theorem Reordered.trans {d'' : Disk} (h : d.Reordered d') (h' : d'.Reordered d'') :
    d.Reordered d'' :=
  ⟨fun loc => (h'.object loc).trans (h.object loc), fun loc => (h'.names loc).trans (h.names loc)⟩

/-! Paths are resolved by the objects alone. -/

theorem Reordered.isDirectory (h : d.Reordered d') (loc : Location) :
    d'.isDirectory loc = d.isDirectory loc := by
  unfold Disk.isDirectory
  rw [h.object]

theorem Reordered.walkUntilLink (h : d.Reordered d') (purpose : Purpose)
    (onLink : Location → List Bytes → Except FileError Place) (here : Location)
    (steps : List Bytes) :
    d'.walkUntilLink purpose onLink here steps = d.walkUntilLink purpose onLink here steps := by
  induction steps generalizing here with
  | nil => rfl
  | cons n rest ih =>
    unfold Disk.walkUntilLink
    simp only [h.isDirectory, h.object, ih]

theorem Reordered.walk (h : d.Reordered d') (purpose : Purpose) (links : Nat) :
    d'.walk purpose links = d.walk purpose links := by
  induction links with
  | zero =>
    funext here steps
    exact h.walkUntilLink purpose _ here steps
  | succ links ih =>
    funext here steps
    unfold Disk.walk
    rw [ih]
    exact h.walkUntilLink purpose _ here steps

theorem Reordered.resolve (h : d.Reordered d') (p : Path) : d'.resolve p = d.resolve p := by
  unfold Disk.resolve locate
  rw [h.walk]

theorem Reordered.stat (h : d.Reordered d') (p : Path) : d'.stat p = d.stat p := by
  unfold Disk.stat
  simp only [h.resolve, h.object]

theorem Reordered.read (h : d.Reordered d') (p : Path) : d'.read p = d.read p := by
  unfold Disk.read
  simp only [h.resolve, h.object]

theorem Reordered.readChunk (h : d.Reordered d') (p : Path) (index : Nat) :
    d'.readChunk p index = d.readChunk p index := by
  unfold Disk.readChunk
  rw [h.read]

theorem Reordered.list (h : d.Reordered d') (p : Path) :
    (∃ e, d'.list p = .error e ∧ d.list p = .error e) ∨
      ∃ names' names, d'.list p = .ok names' ∧ d.list p = .ok names ∧
        Bytes.inOrder names' = Bytes.inOrder names := by
  unfold Disk.list
  rw [h.resolve]
  cases d.resolve p with
  | error e => exact .inl ⟨e, rfl, rfl⟩
  | ok loc =>
    simp only [Except.bind_ok, h.isDirectory]
    split
    · exact .inr ⟨_, _, rfl, rfl,
        Bytes.eq_inOrder ((Bytes.inOrder_perm _).trans (h.names loc)) (Bytes.pairwise_inOrder _)⟩
    · exact .inl ⟨_, rfl, rfl⟩

end Disk

namespace Disk

variable {d : Disk} {here : Location} {name : Bytes}

theorem object?_entry (d : Disk) (here : Location) (name : Bytes) :
    d.object? (here ++ [name]) = d.objects.get? (here ++ [name]) :=
  if_neg (by simp)

theorem mem_namesIn_iff : name ∈ d.namesIn here ↔ (d.object? (here ++ [name])).isSome := by
  rw [object?_entry, Table.isSome_get?_iff]
  constructor
  · intro h
    obtain ⟨⟨loc, o⟩, hrow, hlast⟩ := List.mem_filterMap.mp h
    split at hlast
    · rename_i hhere
      refine ⟨o, ?_⟩
      rw [← hhere, List.dropLast_append_getLast? name hlast]
      exact hrow
    · contradiction
  · rintro ⟨o, hrow⟩
    exact List.mem_filterMap.mpr ⟨_, hrow, by simp⟩

def listedBy (d : Disk) (order : Location → List Bytes) : Disk :=
  ⟨⟨(d.objects.keys.map List.dropLast).dedup.flatMap fun here =>
    (order here).filterMap fun name =>
      (d.object? (here ++ [name])).map fun o => (here ++ [name], o)⟩⟩

variable {order : Location → List Bytes}

theorem mem_rows_listedBy {loc : Location} {o : FileObject} :
    (loc, o) ∈ (d.listedBy order).objects.rows ↔
      ∃ here ∈ d.objects.keys.map List.dropLast, ∃ name ∈ order here,
        loc = here ++ [name] ∧ d.object? loc = some o := by
  unfold listedBy
  simp only [List.mem_flatMap, List.mem_dedup, List.mem_filterMap, Option.map_eq_some_iff,
    Prod.mk.injEq]
  constructor
  · rintro ⟨here, hhere, name, hname, o', ho, rfl, rfl⟩
    exact ⟨here, hhere, name, hname, rfl, ho⟩
  · rintro ⟨here, hhere, name, hname, rfl, ho⟩
    exact ⟨here, hhere, name, hname, o, ho, rfl, rfl⟩

theorem parent_mem_of_mem_namesIn (h : name ∈ d.namesIn here) :
    here ∈ d.objects.keys.map List.dropLast := by
  obtain ⟨row, hrow, hlast⟩ := List.mem_filterMap.mp h
  split at hlast
  · rename_i hhere
    exact List.mem_map.mpr ⟨row.1, List.mem_map_of_mem hrow, hhere⟩
  · contradiction

theorem object?_listedBy (horder : ∀ here, (order here).Perm (d.namesIn here)) (loc : Location) :
    (d.listedBy order).object? loc = d.object? loc := by
  rcases List.eq_nil_or_concat loc with rfl | ⟨here, name, rfl⟩
  · rfl
  rw [List.concat_eq_append, object?_entry]
  cases hlisted : (d.listedBy order).objects.get? (here ++ [name]) with
  | some o =>
    obtain ⟨_, -, _, -, -, ho⟩ := mem_rows_listedBy.mp (Table.mem_rows_of_get? hlisted)
    exact ho.symm
  | none =>
    cases hobject : d.object? (here ++ [name]) with
    | none => rfl
    | some o =>
      have hname : name ∈ d.namesIn here := mem_namesIn_iff.mpr (by rw [hobject]; rfl)
      have hrow := mem_rows_listedBy.mpr ⟨here, parent_mem_of_mem_namesIn hname, name,
        (horder here).mem_iff.mpr hname, rfl, hobject⟩
      have hsome := Table.isSome_get?_iff.mpr ⟨o, hrow⟩
      rw [hlisted] at hsome
      contradiction

theorem filterMap_entries (here there : Location) :
    ((order there).filterMap fun name =>
        (d.object? (there ++ [name])).map fun o => (there ++ [name], o)).filterMap
          (fun row => if row.1.dropLast = here then row.1.getLast? else none) =
      if there = here then (order there).filter fun name => (d.object? (there ++ [name])).isSome
      else [] := by
  rw [List.filterMap_filterMap]
  split
  · rename_i heq
    subst heq
    rw [← List.filterMap_eq_filter]
    apply List.filterMap_congr
    intro name _
    cases hobject : d.object? (there ++ [name]) <;> simp [Option.guard, hobject]
  · rename_i hne
    rw [List.filterMap_eq_nil_iff]
    intro name _
    cases d.object? (there ++ [name]) <;> simp [hne]

theorem flatMap_ite_eq {α β : Type} [DecidableEq α] {l : List α} (hl : l.Nodup) (a : α)
    (f : α → List β) : (l.flatMap fun x => if x = a then f x else []) = if a ∈ l then f a else [] := by
  induction l with
  | nil => rfl
  | cons x l ih =>
    obtain ⟨hx, hl⟩ := List.nodup_cons.mp hl
    rw [List.flatMap_cons, ih hl]
    by_cases h : x = a
    · subst h
      rw [if_pos rfl, if_neg hx, if_pos List.mem_cons_self, List.append_nil]
    · rw [if_neg h, List.nil_append]
      simp [Ne.symm h]

theorem namesIn_listedBy (horder : ∀ here, (order here).Perm (d.namesIn here)) (here : Location) :
    (d.listedBy order).namesIn here = order here := by
  have hall : ((order here).filter fun name => (d.object? (here ++ [name])).isSome) = order here :=
    List.filter_eq_self.mpr fun name hname =>
      mem_namesIn_iff.mp ((horder here).mem_iff.mp hname)
  unfold namesIn listedBy
  rw [List.filterMap_flatMap]
  simp only [filterMap_entries]
  rw [flatMap_ite_eq (List.nodup_dedup _), hall]
  split
  · rfl
  · rename_i hnone
    symm
    rw [List.eq_nil_iff_forall_not_mem]
    intro name hname
    have hparent := parent_mem_of_mem_namesIn ((horder here).mem_iff.mp hname)
    exact hnone (List.mem_dedup.mpr hparent)

theorem exists_reordered (horder : ∀ here, (order here).Perm (d.namesIn here)) :
    ∃ d', d.Reordered d' ∧ ∀ here, d'.namesIn here = order here :=
  ⟨d.listedBy order,
    ⟨object?_listedBy horder, fun here => (namesIn_listedBy horder here).symm ▸ horder here⟩,
    namesIn_listedBy horder⟩

end Disk

namespace PublishedTree

variable {d d' : Disk}

/-- One directory at a time: its names are the same once they are in order, and what follows looks at
nothing else. -/
theorem addNode_of_reordered (h : d.Reordered d') (room : Nat) : addNode d' room = addNode d room := by
  induction room with
  | zero => rfl
  | succ room ih =>
    funext path name nodes
    unfold addNode
    rw [h.stat, h.readChunk, ih]
    refine bind_congr fun stat => ?_
    split
    · rcases h.list path with ⟨e, hd', hd⟩ | ⟨names', names, hd', hd, hsame⟩
      · rw [hd', hd]
      · simp only [hd', hd, Except.mapError_ok, Except.bind_ok, hsame]
    · rfl

/-- Every directory may be listed in any order, and a walk comes to the same: the same nodes in the same
places, or the same error at the same path. -/
theorem enumeration_independent (d : Disk) :
    (∀ order : Location → List Bytes, (∀ here, (order here).Perm (d.namesIn here)) →
        ∃ d', d.Reordered d' ∧ ∀ here, d'.namesIn here = order here) ∧
      ∀ first second, d.Reordered first → d.Reordered second → ∀ path,
        walk first path = walk second path := by
  refine ⟨fun order horder => Disk.exists_reordered horder, ?_⟩
  intro first second hfirst hsecond path
  unfold walk
  rw [addNode_of_reordered (hfirst.symm.trans hsecond)]

/-- Of two links that lead nowhere it is the first by name that ends the walk, in whichever order they are
listed. -/
theorem enumeration_independent_of_two_faults :
    let d : Disk := ⟨⟨[([[0x64]], .directory), ([[0x64], [0x62]], .link ⟨[0x78]⟩),
      ([[0x64], [0x61]], .link ⟨[0x61]⟩)]⟩⟩
    d.namesIn [[0x64]] = [[0x62], [0x61]] ∧
      walk d ⟨[0x64]⟩ = .error (.file ⟨[0x64, 0x2f, 0x61]⟩ .tooManyLinks) ∧
      ∃ d', d.Reordered d' ∧ d'.namesIn [[0x64]] = [[0x61], [0x62]] ∧
        walk d' ⟨[0x64]⟩ = .error (.file ⟨[0x64, 0x2f, 0x61]⟩ .tooManyLinks) := by
  intro d
  have hnames : d.namesIn [[0x64]] = [[0x62], [0x61]] := by decide
  have hwalk : walk d ⟨[0x64]⟩ = .error (.file ⟨[0x64, 0x2f, 0x61]⟩ .tooManyLinks) := by
    decide +kernel
  have h := enumeration_independent d
  obtain ⟨d', hd', horder⟩ :=
    h.1 (fun here => (d.namesIn here).reverse) fun here => List.reverse_perm _
  have hsame : walk d ⟨[0x64]⟩ = walk d' ⟨[0x64]⟩ := h.2 d d' (.refl d) hd' ⟨[0x64]⟩
  exact ⟨hnames, hwalk, d', hd', by rw [horder, hnames]; rfl, hsame.symm.trans hwalk⟩

end PublishedTree
end TreeShare
