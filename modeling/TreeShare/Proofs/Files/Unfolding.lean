import TreeShare.Files.Disk
import TreeShare.Files.Order
import TreeShare.Proofs.Except
import TreeShare.Proofs.Publishing.FileTree

/-! What a path unfolds to: the file or directory it leads to and all that is below, links followed. Main
statement: `Unfolds.unique`. -/
namespace TreeShare

namespace Path

theorem length_lt_join {p : Path} {name : Bytes} (hname : name ≠ [] ∧ slash ∉ name) :
    p.bytes.length < (p.join ⟨name⟩).bytes.length := by
  obtain ⟨x, rest, rfl⟩ := List.exists_cons_of_ne_nil hname.1
  have hrelative : (⟨x :: rest⟩ : Path).isAbsolute = false := by
    have hx : x ≠ slash := by
      rintro rfl
      exact hname.2 List.mem_cons_self
    simp [isAbsolute, hx]
  unfold join
  rw [hrelative, if_neg Bool.false_ne_true]
  split <;> simp

theorem mem_join {p : Path} {name : Bytes} {x : UInt8} (h : x ∈ name) :
    x ∈ (p.join ⟨name⟩).bytes := by
  unfold join
  split
  · exact h
  · split <;> simp [h]

end Path

namespace Disk

variable {d : Disk} {p : Path} {data : Bytes} {names : List Bytes}

/-- Names have a byte and no slash, as in every file system. -/
def WellNamed (d : Disk) : Prop :=
  ∀ o ∈ d.objects.rows, ∀ name ∈ o.1, name ≠ [] ∧ Path.slash ∉ name

instance (d : Disk) : Decidable d.WellNamed := by
  unfold WellNamed
  infer_instance

theorem resolve_bounds {loc : Location} (h : d.resolve p = .ok loc) :
    (0 : UInt8) ∉ p.bytes ∧ p.bytes ≠ [] ∧ p.bytes.length < pathMax := by
  obtain ⟨place, hplace, -⟩ := Except.bind_eq_ok_iff.mp h
  unfold locate at hplace
  split at hplace
  · contradiction
  split at hplace
  · contradiction
  split at hplace
  · contradiction
  exact ⟨‹_›, ‹_›, by omega⟩

theorem read_eq_ok_iff :
    d.read p = .ok data ↔
      ∃ loc mode, d.resolve p = .ok loc ∧ d.object? loc = some (.file data mode) := by
  unfold read
  rw [Except.bind_eq_ok_iff]
  constructor
  · rintro ⟨loc, hloc, h⟩
    split at h
    · cases Except.ok.inj h
      exact ⟨loc, _, hloc, ‹_›⟩
    · contradiction
    · contradiction
  · rintro ⟨loc, mode, hloc, hobject⟩
    exact ⟨loc, hloc, by rw [hobject]; rfl⟩

theorem list_eq_ok_iff :
    d.list p = .ok names ↔
      ∃ loc, d.resolve p = .ok loc ∧ d.object? loc = some .directory ∧ d.namesIn loc = names := by
  unfold list isDirectory
  rw [Except.bind_eq_ok_iff]
  apply exists_congr
  intro loc
  apply and_congr_right
  intro hloc
  by_cases hobject : d.object? loc = some .directory
  · simp [hobject, pure, Except.pure]
  · simp [hobject]

theorem stat_of_read (h : d.read p = .ok data) : ∃ mode, d.stat p = .ok ⟨false, data.length, mode⟩ := by
  obtain ⟨loc, mode, hloc, hobject⟩ := read_eq_ok_iff.mp h
  exact ⟨mode, by unfold stat; rw [hloc, Except.bind_ok, hobject]; rfl⟩

theorem stat_of_list (h : d.list p = .ok names) : d.stat p = .ok ⟨true, 0, 0o755⟩ := by
  obtain ⟨loc, hloc, hobject, -⟩ := list_eq_ok_iff.mp h
  unfold stat
  rw [hloc, Except.bind_ok, hobject]
  rfl

theorem not_list_of_read (hread : d.read p = .ok data) (hlist : d.list p = .ok names) : False := by
  obtain ⟨mode, hfile⟩ := stat_of_read hread
  rw [stat_of_list hlist] at hfile
  cases hfile

theorem exists_mem_rows_of_list (h : d.list p = .ok names) {name : Bytes} (hname : name ∈ names) :
    ∃ o ∈ d.objects.rows, name ∈ o.1 := by
  obtain ⟨loc, -, -, rfl⟩ := list_eq_ok_iff.mp h
  obtain ⟨o, ho, hlast⟩ := List.mem_filterMap.mp hname
  split at hlast
  · exact ⟨o, ho, List.mem_of_getLast? hlast⟩
  · contradiction

theorem wellNamed_list (hd : d.WellNamed) (h : d.list p = .ok names) {name : Bytes}
    (hname : name ∈ names) : name ≠ [] ∧ Path.slash ∉ name := by
  obtain ⟨o, ho, hmem⟩ := exists_mem_rows_of_list h hname
  exact hd o ho name hmem

/-- A path unfolds to a file with its data, or to a directory with its entries in the order of their
names. There is none if anything on the way cannot be read. -/
inductive Unfolds (d : Disk) : Path → FileTree → Prop
  | file {p : Path} {data : Bytes} (read : d.read p = .ok data) : Unfolds d p (.file data)
  | directory {p : Path} {listed : List Bytes} {entries : List (Bytes × FileTree)}
      (list : d.list p = .ok listed) (perm : (entries.map Prod.fst).Perm listed)
      (sorted : (entries.map Prod.fst).Pairwise (· ≤ ·))
      (below : ∀ e ∈ entries, Unfolds d (p.join ⟨e.1⟩) e.2) : Unfolds d p (.directory entries)

theorem Unfolds.bounds {t : FileTree} (h : d.Unfolds p t) :
    (0 : UInt8) ∉ p.bytes ∧ p.bytes ≠ [] ∧ p.bytes.length < pathMax := by
  cases h with
  | file hread =>
    obtain ⟨loc, -, hloc, -⟩ := read_eq_ok_iff.mp hread
    exact resolve_bounds hloc
  | directory hlist =>
    obtain ⟨loc, hloc, -⟩ := list_eq_ok_iff.mp hlist
    exact resolve_bounds hloc

theorem Unfolds.zero_notMem {name : Bytes} {t : FileTree} (h : d.Unfolds (p.join ⟨name⟩) t) :
    (0 : UInt8) ∉ name :=
  fun hzero => h.bounds.1 (Path.mem_join hzero)

theorem entries_unique {R : Bytes → FileTree → Prop} {es fs : List (Bytes × FileTree)}
    (hes : ∀ e ∈ es, ∀ t, R e.1 t → e.2 = t) (hfs : ∀ f ∈ fs, R f.1 f.2)
    (hnames : es.map Prod.fst = fs.map Prod.fst) : es = fs := by
  induction es generalizing fs with
  | nil => exact (List.map_eq_nil_iff.mp hnames.symm).symm
  | cons e es ih =>
    cases fs with
    | nil => cases hnames
    | cons f fs =>
      obtain ⟨hname, hrest⟩ := List.cons.inj hnames
      rw [List.forall_mem_cons] at hes hfs
      have htree : e.2 = f.2 := hes.1 f.2 (hname ▸ hfs.1)
      rw [Prod.ext hname htree, ih hes.2 hfs.2 hrest]

theorem Unfolds.unique {s t : FileTree} (hs : d.Unfolds p s) (ht : d.Unfolds p t) : s = t := by
  induction hs generalizing t with
  | file hread =>
    cases ht with
    | file hread' => rw [Except.ok.inj (hread.symm.trans hread')]
    | directory hlist => exact (not_list_of_read hread hlist).elim
  | @directory p listed es hlist hperm hsorted _ ih =>
    cases ht with
    | file hread => exact (not_list_of_read hread hlist).elim
    | @directory _ _ fs hlist' hperm' hsorted' hbelow =>
      cases Except.ok.inj (hlist.symm.trans hlist')
      have hnames : es.map Prod.fst = fs.map Prod.fst :=
        (Bytes.eq_inOrder hperm hsorted).trans (Bytes.eq_inOrder hperm' hsorted').symm
      have hsame : es = fs :=
        entries_unique (R := fun name t => d.Unfolds (p.join ⟨name⟩) t)
          (fun e he t ht => ih e he ht) hbelow hnames
      rw [hsame]

inductive FileBelow (d : Disk) : Path → Path → Bytes → Prop
  | here {p : Path} {data : Bytes} (read : d.read p = .ok data) : FileBelow d p p data
  | entry {p q : Path} {data name : Bytes} {listed : List Bytes} (list : d.list p = .ok listed)
      (mem : name ∈ listed) (below : FileBelow d (p.join ⟨name⟩) q data) : FileBelow d p q data

theorem FileBelow.of_read {q : Path} {data' : Bytes} (h : d.FileBelow p q data')
    (hread : d.read p = .ok data) : q = p ∧ data' = data := by
  cases h with
  | here hread' => exact ⟨rfl, Except.ok.inj (hread'.symm.trans hread)⟩
  | entry hlist => exact (not_list_of_read hread hlist).elim

theorem FileBelow.of_list {q : Path} (h : d.FileBelow p q data) (hlist : d.list p = .ok names) :
    ∃ name ∈ names, d.FileBelow (p.join ⟨name⟩) q data := by
  cases h with
  | here hread => exact (not_list_of_read hread hlist).elim
  | entry hlist' hmem hbelow =>
    cases Except.ok.inj (hlist'.symm.trans hlist)
    exact ⟨_, hmem, hbelow⟩

end Disk
end TreeShare
