import TreeShare.Proofs.Publishing.Content
import TreeShare.Proofs.Publishing.Serving

/-! What an export says with its root hash. Main statement: `root_binds_content`. -/
namespace TreeShare

namespace FileTree

theorem slotted_of_unfolds {d : Disk} {path : Path} {c : FileTree} (hc : d.Unfolds path c)
    (he : c.Exportable) : c.Slotted := by
  induction hc with
  | file => exact every_file.mpr trivial
  | directory _ _ _ hbelow ih =>
    obtain ⟨hnames, hentries⟩ := every_directory.mp he
    refine every_directory.mpr ⟨fun name hname => ?_, fun e he => ih e he (hentries e he)⟩
    obtain ⟨e, he, rfl⟩ := List.mem_map.mp hname
    exact ⟨(hnames.2 _ hname).2.2, (hbelow e he).zero_notMem⟩

end FileTree

namespace Publication

variable {s s' : Publication} {d d' : Disk} {path path' : Path} {root : Digest}

theorem exportPath_eq_ok (h : s.exportPath d path = (.ok root, s')) :
    ∃ t c, PublishedTree.build d path = .ok t ∧ s' = publish t ∧ d.Unfolds path c ∧
      c.Exportable ∧ root = c.hash := by
  cases hbuild : PublishedTree.build d path with
  | error e =>
    rw [exportPath_of_error hbuild] at h
    cases h
  | ok t =>
    obtain ⟨x, hx, hexport⟩ := exportPath_of_build hbuild s
    cases hexport.symm.trans h
    obtain ⟨c, hc, he, -⟩ := PublishedTree.build_shows hbuild
    have hhash := PublishedTree.build_hash hbuild hc
    exact ⟨t, c, rfl, rfl, hc, he, Option.some.inj (hx.symm.trans hhash)⟩

theorem exportPath_of_unfolds (hd : d.WellNamed) {c : FileTree} (hc : d.Unfolds path c)
    (he : c.Exportable) (s : Publication) :
    ∃ t, s.exportPath d path = (.ok c.hash, publish t) := by
  obtain ⟨t, hbuild⟩ := (PublishedTree.exists_build_iff hd path).mpr ⟨c, hc, he⟩
  obtain ⟨x, hx, hexport⟩ := exportPath_of_build hbuild s
  cases Option.some.inj (hx.symm.trans (PublishedTree.build_hash hbuild hc))
  exact ⟨t, hexport⟩

/-- Exports with one root hash are exports of one content, unless two nodes of the contents collide. -/
theorem root_binds_content (h : (s.exportPath d path).1 = .ok root)
    (h' : (s'.exportPath d' path').1 = .ok root) :
    ∃ c c', (∀ x, d.Unfolds path x ↔ x = c) ∧ (∀ x, d'.Unfolds path' x ↔ x = c') ∧
      (c = c' ∨ c.Collision c') := by
  obtain ⟨-, c, -, -, hc, he, hroot⟩ := exportPath_eq_ok (Prod.ext h rfl)
  obtain ⟨-, c', -, -, hc', he', hroot'⟩ := exportPath_eq_ok (Prod.ext h' rfl)
  refine ⟨c, c', fun x => ⟨fun hx => hx.unique hc, fun hx => hx ▸ hc⟩,
    fun x => ⟨fun hx => hx.unique hc', fun hx => hx ▸ hc'⟩, ?_⟩
  exact FileTree.eq_or_collision (FileTree.slotted_of_unfolds hc he)
    (FileTree.slotted_of_unfolds hc' he') (hroot.symm.trans hroot')

/-- The same file in a directory at the top of one disk and, by a link, further down on another. -/
theorem root_binds_content_of_moved_file :
    let d : Disk := ⟨⟨[([[0x64]], .directory), ([[0x64], [0x61]], .file [7] 0o644)]⟩⟩
    let d' : Disk := ⟨⟨[([[0x65]], .directory), ([[0x65], [0x66]], .directory),
      ([[0x65], [0x66], [0x61]], .link ⟨[0x2f, 0x67]⟩), ([[0x67]], .file [7] 0o600)]⟩⟩
    let path : Path := ⟨[0x64]⟩
    let path' : Path := ⟨[0x2f, 0x65, 0x2f, 0x66]⟩
    ∃ root, (empty.exportPath d path).1 = .ok root ∧ (empty.exportPath d' path').1 = .ok root ∧
      ∃ c c', (∀ x, d.Unfolds path x ↔ x = c) ∧ (∀ x, d'.Unfolds path' x ↔ x = c') ∧
        (c = c' ∨ c.Collision c') := by
  intro d d' path path'
  let c : FileTree := .directory [([0x61], .file [7])]
  have he : c.Exportable := by decide +kernel
  have hlist : d.list path = .ok [[0x61]] := rfl
  have hc : d.Unfolds path c := by
    refine .directory hlist (by decide) (by decide) ?_
    simp only [List.forall_mem_cons]
    exact ⟨.file rfl, by simp⟩
  have hlist' : d'.list path' = .ok [[0x61]] := rfl
  have hc' : d'.Unfolds path' c := by
    refine .directory hlist' (by decide) (by decide) ?_
    simp only [List.forall_mem_cons]
    exact ⟨.file rfl, by simp⟩
  obtain ⟨t, hexport⟩ := exportPath_of_unfolds (by decide) hc he empty
  obtain ⟨t', hexport'⟩ := exportPath_of_unfolds (by decide) hc' he empty
  have h : (empty.exportPath d path).1 = .ok c.hash := by rw [hexport]
  have h' : (empty.exportPath d' path').1 = .ok c.hash := by rw [hexport']
  exact ⟨c.hash, h, h', root_binds_content h h'⟩

end Publication
end TreeShare
