import TreeShare.Proofs.Publishing.Serving

/-! Trees that come of walks and of computing hashes, in any order and on any disks. Main statement:
`carriesDatum_of_made`, what is published of them is given only for its own hash. -/
namespace TreeShare

namespace PublishedTree

inductive Made : PublishedTree → Prop
  | walked {d : Disk} {path : Path} {t : PublishedTree} (walk : walk d path = .ok t) : Made t
  | hashed {d : Disk} {count : Nat} {t t' : PublishedTree} (made : Made t)
      (compute : t.computeHashes d = .ok (count, t')) : Made t'

theorem fillHashes_of_hashed (d : Disk) {nodes : List TreeNode} (hh : Hashed nodes) (ids : List Nat) :
    fillHashes d ids nodes = .ok (0, nodes) := by
  induction ids with
  | nil => rfl
  | cons id ids ih =>
    unfold fillHashes
    split
    · exact ih
    · rename_i node hnode
      obtain ⟨x, hx, -⟩ := hh node (List.mem_of_getElem? hnode)
      rw [if_pos (by rw [hx]; rfl)]
      exact ih

theorem Complete.computeHashes {t t' : PublishedTree} (ht : t.Complete) {d : Disk} {count : Nat}
    (h : t.computeHashes d = .ok (count, t')) : t'.Complete := by
  unfold PublishedTree.computeHashes at h
  rw [fillHashes_of_hashed d ht.hashed] at h
  cases Except.ok.inj h
  exact complete_of_hashed ht.arena ht.hashed ht.root

theorem Made.complete_or_walked {t : PublishedTree} (h : t.Made) :
    t.Complete ∨ ∃ d path, walk d path = .ok t := by
  induction h with
  | walked hwalk => exact .inr ⟨_, _, hwalk⟩
  | @hashed d _ _ _ _ hcompute ih =>
    rcases ih with hcomplete | ⟨_, _, hwalk⟩
    · exact .inl (hcomplete.computeHashes hcompute)
    · obtain ⟨_, _, hcompute', hcomplete, -⟩ := computeHashes_complete hwalk d
      cases Except.ok.inj (hcompute.symm.trans hcompute')
      exact .inl hcomplete

theorem lookup?_of_walk {d : Disk} {path : Path} {t : PublishedTree} (h : walk d path = .ok t)
    (x : Digest) : t.lookup? x = none := by
  obtain ⟨⟨root, nodes⟩, -, h⟩ := Except.bind_eq_ok_iff.mp h
  cases Except.ok.inj h
  rfl

theorem made_of_build {d : Disk} {path : Path} {t : PublishedTree} (h : build d path = .ok t) :
    t.Made := by
  obtain ⟨walked, hwalk, h⟩ := Except.bind_eq_ok_iff.mp h
  obtain ⟨⟨count, t'⟩, hcompute, h⟩ := Except.bind_eq_ok_iff.mp h
  cases Except.ok.inj h
  exact .hashed (.walked hwalk) hcompute

theorem signature_of_datumMessage {t : PublishedTree} {d : Disk} {id : Nat} {request : UInt32}
    {m : Message} (h : t.datumMessage d id request = .ok m) : m.signature = none := by
  obtain ⟨datum, -, h⟩ := Except.bind_eq_ok_iff.mp h
  rw [Except.mapError_eq_ok_iff] at h
  obtain ⟨body, -, h⟩ := Except.bind_eq_ok_iff.mp h
  split at h
  · cases Except.ok.inj h
    rfl
  · contradiction

theorem Complete.datumMessage_of_lookup? {t : PublishedTree} (ht : t.Complete) {x : Digest} {id : Nat}
    (hl : t.lookup? x = some id) {d : Disk} {request : UInt32} {m : Message}
    (h : t.datumMessage d id request = .ok m) : m.CarriesDatum x request := by
  rcases ht.datumMessage_of_isLastWith (ht.lookup?_eq_some_iff.mp hl) d request with
    ⟨m', hm', hcarries⟩ | ⟨_, _, _, -, -, ⟨_, herror⟩ | herror⟩
  · cases Except.ok.inj (h.symm.trans hm')
    exact hcarries
  · cases h.symm.trans herror
  · cases h.symm.trans herror

end PublishedTree

namespace Publication

def Made (s : Publication) : Prop := ∀ t, s.tree = some t → t.Made

theorem made_empty : empty.Made := nofun

theorem Made.exportPath {s : Publication} (hs : s.Made) (d : Disk) (path : Path) :
    (s.exportPath d path).2.Made := by
  cases hbuild : PublishedTree.build d path with
  | error e => rwa [exportPath_of_error hbuild]
  | ok t =>
    obtain ⟨x, -, hexport⟩ := exportPath_of_build hbuild s
    rw [hexport]
    intro t' ht'
    cases Option.some.inj ht'
    exact PublishedTree.made_of_build hbuild

theorem Made.exportAll {s : Publication} (hs : s.Made) (exports : List (Disk × Path)) :
    (s.exportAll exports).Made := by
  induction exports generalizing s with
  | nil => exact hs
  | cons x exports ih => exact ih (hs.exportPath x.1 x.2)

/-- A reply that is given for a hash carries its datum, unsigned. -/
theorem carriesDatum_of_made {s : Publication} (hs : s.Made) {d : Disk} {x : Digest}
    {request : UInt32} {m : Message} (h : s.datumFor d x request = .ok (some m)) :
    m.CarriesDatum x request ∧ m.signature = none := by
  unfold datumFor at h
  split at h
  · cases h
  · rename_i t ht
    split at h
    · cases h
    · rename_i id hl
      obtain ⟨m', hm, hsome⟩ := Except.map_eq_ok_iff.mp h
      cases Option.some.inj hsome
      refine ⟨?_, PublishedTree.signature_of_datumMessage hm⟩
      rcases (hs t ht).complete_or_walked with hcomplete | ⟨_, _, hwalk⟩
      · exact hcomplete.datumMessage_of_lookup? hl hm
      · rw [PublishedTree.lookup?_of_walk hwalk] at hl
        contradiction

end Publication
end TreeShare
