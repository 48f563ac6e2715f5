import TreeShare.Publishing.Publication
import TreeShare.Proofs.Datum.Codec
import TreeShare.Proofs.Publishing.Hashes

/-! What a publication answers after any exports, whatever is on the disk when it is asked. Main
statements: `tree_exportAll` and `datumMessage_of_isLastWith`. -/
namespace TreeShare

/-- The reply is the datum with this hash. -/
structure Message.CarriesDatum (m : Message) (h : Digest) (request : UInt32) : Prop where
  id : m.id = request
  type : m.type = .datum
  integrity : Datum.checkIntegrity m.body = .ok ()
  states : m.body.take 32 = h.toList

namespace PublishedTree

theorem readChunk_cases (d : Disk) (path : Path) (index : Nat) :
    (∃ data : Bytes, d.readChunk path index = .ok data ∧ data.length ≤ 1024) ∨
      (∃ cause, d.readChunk path index = .error (.file path cause)) ∨
        d.readChunk path index = .error (.stale path) := by
  unfold Disk.readChunk
  cases d.read path with
  | error cause => exact .inr (.inl ⟨cause, rfl⟩)
  | ok bytes =>
    simp only [Except.mapError_ok, Except.bind_ok]
    split
    · exact .inr (.inr rfl)
    · exact .inl ⟨_, rfl, by rw [List.length_take]; omega⟩

theorem entries_of_directoryPayload {nodes : List TreeNode} {children : List (Slot × Nat)}
    {payload : Bytes} (hp : directoryPayload nodes children = .ok payload)
    (hs : ∀ c ∈ children, ∃ child, nodes[c.2]? = some child ∧ Slot.ofName child.name = .ok c.1) :
    ∃ es, entries nodes children = .ok es ∧ es.length = children.length ∧
      DirectoryEntry.allToBytes es = .ok payload := by
  induction children generalizing payload with
  | nil =>
    cases Except.ok.inj hp
    exact ⟨[], rfl, rfl, rfl⟩
  | cons c children ih =>
    obtain ⟨slot, id⟩ := c
    obtain ⟨h, hh, hp⟩ := Except.bind_eq_ok_iff.mp hp
    obtain ⟨rest, hrest, hp⟩ := Except.bind_eq_ok_iff.mp hp
    cases Except.ok.inj hp
    obtain ⟨es, hes, hlen, hbytes⟩ := ih hrest fun c hc => hs c (by simp [hc])
    obtain ⟨child, hchild, hslot⟩ := hs (slot, id) (by simp)
    have hentry : DirectoryEntry.toBytes ⟨child.name, h⟩ = .ok (slot.toList ++ h.toList) := by
      unfold DirectoryEntry.toBytes
      rw [hslot]
      rfl
    refine ⟨⟨child.name, h⟩ :: es, ?_, by rw [List.length_cons, List.length_cons, hlen], ?_⟩
    · unfold entries
      rw [hh, Except.bind_ok, hes, hchild]
      rfl
    · unfold DirectoryEntry.allToBytes
      rw [hentry, Except.bind_ok, hbytes]
      rfl

theorem carriesDatum_of_ofContent {c : Content} {d : Datum} (h : Datum.ofContent c = .ok d)
    (request : UInt32) : ∃ m, d.toMessage request = .ok m ∧ m.CarriesDatum d.hash request := by
  obtain ⟨b, hbody, hstates, hcheck⟩ := Datum.checkIntegrity_of_ofContent h
  obtain ⟨hc, payload, hp, rfl⟩ := Datum.ofContent_eq_ok_iff.mp h
  obtain ⟨m, hm, hid, htype, rfl, -⟩ := Datum.toMessage_of_inBounds hc hbody request
  exact ⟨m, hm, hid, htype, hcheck, hstates⟩

theorem Complete.datum_directory {t : PublishedTree} (ht : t.Complete) {id : Nat} {node : TreeNode}
    {children : List (Slot × Nat)} {h : Digest} (hn : t.nodes[id]? = some node)
    (hh : node.hash = some h) (hbody : node.body = .directory children) :
    ∃ es datum, Datum.ofContent (.directory es) = .ok datum ∧ datum.hash = h ∧
      ∀ d, t.datum d id = .ok datum := by
  have hfits := ht.arena id node hn
  unfold Fits at hfits
  rw [hbody] at hfits
  obtain ⟨x, hx, hpayload⟩ := ht.hashed node (List.mem_of_getElem? hn)
  rw [hbody] at hpayload
  obtain ⟨payload, hp, rfl⟩ := hpayload
  cases Option.some.inj (hh.symm.trans hx)
  obtain ⟨es, hes, hlen, hbytes⟩ := entries_of_directoryPayload hp fun c hc => (hfits.2 c hc).2
  have hdatum := Datum.ofContent_eq_ok_iff.mpr
    ⟨(Content.inBounds_directory es).mpr (hlen ▸ hfits.1), payload, hbytes, rfl⟩
  refine ⟨es, _, hdatum, rfl, fun d => ?_⟩
  unfold datum
  simp only [hashOf_eq_ok_iff.mpr ⟨node, hn, hh⟩, Except.bind_ok, hn, Option.map_some, hbody, hes,
    hdatum]
  rfl

theorem datum_chunk {t : PublishedTree} {id : Nat} {node : TreeNode} {path : Path} {index : Nat}
    {h : Digest} (hn : t.nodes[id]? = some node) (hh : node.hash = some h)
    (hbody : node.body = .chunk path index) (d : Disk) :
    (∃ data datum, Datum.ofContent (.chunk data) = .ok datum ∧ datum.hash = h ∧
        t.datum d id = .ok datum) ∨
      (∃ cause, t.datum d id = .error (.file path cause)) ∨
        t.datum d id = .error (.stale path) := by
  have hexpected := hashOf_eq_ok_iff.mpr ⟨node, hn, hh⟩
  unfold datum
  simp only [hexpected, Except.bind_ok, hn, Option.map_some, hbody]
  rcases readChunk_cases d path index with ⟨data, hread, hlen⟩ | ⟨cause, hread⟩ | hread
  · have hdatum := Datum.ofContent_eq_ok_iff.mpr
      ⟨(Content.inBounds_chunk data).mpr hlen, data, rfl, rfl⟩
    simp only [hread, Except.bind_ok, hdatum, Except.mapError_ok]
    split
    · exact .inl ⟨data, _, hdatum, ‹_›, rfl⟩
    · exact .inr (.inr rfl)
  · exact .inr (.inl ⟨cause, by rw [hread]; rfl⟩)
  · exact .inr (.inr (by rw [hread]; rfl))

/-- The last node with a hash is answered with its datum; only where it is a chunk may its file stand in
the way. -/
theorem Complete.datumMessage_of_isLastWith {t : PublishedTree} (ht : t.Complete) {h : Digest}
    {id : Nat} (hl : IsLastWith t.nodes h id) (d : Disk) (request : UInt32) :
    (∃ m, t.datumMessage d id request = .ok m ∧ m.CarriesDatum h request) ∨
      ∃ node path index, t.nodes[id]? = some node ∧ node.body = .chunk path index ∧
        ((∃ cause, t.datumMessage d id request = .error (.file path cause)) ∨
          t.datumMessage d id request = .error (.stale path)) := by
  obtain ⟨node, hn, hh⟩ := hl.1
  have hanswer {c : Content} {datum : Datum} (hc : Datum.ofContent c = .ok datum)
      (hd : t.datum d id = .ok datum) :
      ∃ m, t.datumMessage d id request = .ok m ∧ m.CarriesDatum datum.hash request := by
    obtain ⟨m, hm, hcarries⟩ := carriesDatum_of_ofContent hc request
    refine ⟨m, ?_, hcarries⟩
    unfold datumMessage
    rw [hd, Except.bind_ok, hm]
    rfl
  cases hbody : node.body with
  | directory children =>
    obtain ⟨es, datum, hc, rfl, hd⟩ := ht.datum_directory hn hh hbody
    exact .inl (hanswer hc (hd d))
  | chunk path index =>
    rcases datum_chunk hn hh hbody d with ⟨data, datum, hc, rfl, hd⟩ | ⟨cause, hd⟩ | hd
    · exact .inl (hanswer hc hd)
    · exact .inr ⟨node, path, index, hn, hbody, .inl ⟨cause, by unfold datumMessage; rw [hd]; rfl⟩⟩
    · exact .inr ⟨node, path, index, hn, hbody, .inr (by unfold datumMessage; rw [hd]; rfl)⟩

end PublishedTree

namespace Publication

def exportAll (s : Publication) (exports : List (Disk × Path)) : Publication :=
  exports.foldl (fun s x => (s.exportPath x.1 x.2).2) s

def lastBuilt (exports : List (Disk × Path)) : Option PublishedTree :=
  (exports.filterMap fun x => (PublishedTree.build x.1 x.2).toOption).getLast?

theorem exportAll_append (s : Publication) (a b : List (Disk × Path)) :
    s.exportAll (a ++ b) = (s.exportAll a).exportAll b :=
  List.foldl_append

theorem exportPath_of_build {d : Disk} {path : Path} {t : PublishedTree}
    (h : PublishedTree.build d path = .ok t) (s : Publication) :
    ∃ x, t.rootHash? = some x ∧ s.exportPath d path = (.ok x, publish t) := by
  obtain ⟨x, hx⟩ := (PublishedTree.build_complete h).rootHash?_eq_some
  exact ⟨x, hx, by unfold exportPath; simp only [h, hx]⟩

theorem exportPath_of_error {d : Disk} {path : Path} {e : PublishError}
    (h : PublishedTree.build d path = .error e) (s : Publication) :
    s.exportPath d path = (.error e, s) := by
  unfold exportPath
  simp only [h]

theorem lastBuilt_cons (x : Disk × Path) (exports : List (Disk × Path)) :
    lastBuilt (x :: exports) =
      (lastBuilt exports).or (PublishedTree.build x.1 x.2).toOption := by
  unfold lastBuilt
  rw [List.filterMap_cons]
  cases (PublishedTree.build x.1 x.2).toOption with
  | none => rw [Option.or_none]
  | some t =>
    rw [List.getLast?_cons]
    cases (exports.filterMap fun x => (PublishedTree.build x.1 x.2).toOption).getLast? <;> rfl

theorem tree_exportAll (s : Publication) (exports : List (Disk × Path)) :
    (s.exportAll exports).tree = (lastBuilt exports).or s.tree := by
  induction exports generalizing s with
  | nil => rfl
  | cons x exports ih =>
    have hrest : (s.exportAll (x :: exports)) = (s.exportPath x.1 x.2).2.exportAll exports := rfl
    rw [hrest, ih, lastBuilt_cons, Option.or_assoc]
    congr 1
    cases hbuild : PublishedTree.build x.1 x.2 with
    | error e => rw [exportPath_of_error hbuild]; rfl
    | ok t =>
      obtain ⟨root, -, hexport⟩ := exportPath_of_build hbuild s
      rw [hexport]
      rfl

theorem complete_of_lastBuilt {exports : List (Disk × Path)} {t : PublishedTree}
    (h : lastBuilt exports = some t) : t.Complete := by
  obtain ⟨x, -, hx⟩ := List.mem_filterMap.mp (List.mem_of_getLast? h)
  cases hbuild : PublishedTree.build x.1 x.2 with
  | error e => simp [hbuild, Except.toOption] at hx
  | ok u =>
    cases (by simpa [hbuild, Except.toOption] using hx : u = t)
    exact PublishedTree.build_complete hbuild

theorem isOk_exportPath_iff (s : Publication) (d : Disk) (path : Path) :
    (∃ root, (s.exportPath d path).1 = .ok root) ↔ ∃ t, PublishedTree.build d path = .ok t := by
  cases h : PublishedTree.build d path with
  | error e => simp [exportPath_of_error h]
  | ok t =>
    obtain ⟨root, -, hexport⟩ := exportPath_of_build h s
    simp [hexport]

theorem datumFor_of_tree {s : Publication} {t : PublishedTree} (hs : s.tree = some t) {h : Digest}
    {id : Nat} (hl : t.lookup? h = some id) (d : Disk) (request : UInt32) :
    s.datumFor d h request = (t.datumMessage d id request).map some := by
  unfold datumFor
  simp only [hs, hl]

theorem datumFor_eq_none_iff (exports : List (Disk × Path)) (d : Disk) (h : Digest)
    (request : UInt32) :
    (empty.exportAll exports).datumFor d h request = .ok none ↔
      ∀ t, lastBuilt exports = some t → ∀ node ∈ t.nodes, node.hash ≠ some h := by
  have htree : (empty.exportAll exports).tree = lastBuilt exports := by
    rw [tree_exportAll]
    exact Option.or_none
  cases hlast : lastBuilt exports with
  | none => simp [datumFor, htree, hlast]
  | some t =>
    have ht := complete_of_lastBuilt hlast
    have hnone := ht.lookup?_eq_none_iff (h := h)
    cases hl : t.lookup? h with
    | none =>
      have hanswer : (empty.exportAll exports).datumFor d h request = .ok none := by
        unfold datumFor
        simp only [htree, hlast, hl]
      simpa [hanswer] using hnone.mp hl
    | some id =>
      have hfound : ¬ ∀ node ∈ t.nodes, node.hash ≠ some h := fun hall => by
        rw [hnone.mpr hall] at hl
        contradiction
      rw [datumFor_of_tree (htree.trans hlast) hl]
      cases t.datumMessage d id request <;> simpa [Except.map] using hfound

theorem datumFor_of_published {exports : List (Disk × Path)} {t : PublishedTree}
    (hlast : lastBuilt exports = some t) {h : Digest} (hh : ∃ node ∈ t.nodes, node.hash = some h)
    (d : Disk) (request : UInt32) :
    ∃ id, PublishedTree.IsLastWith t.nodes h id ∧
      ((∃ m, (empty.exportAll exports).datumFor d h request = .ok (some m) ∧
          m.CarriesDatum h request) ∨
        ∃ node path index, t.nodes[id]? = some node ∧ node.body = .chunk path index ∧
          ((∃ cause, (empty.exportAll exports).datumFor d h request = .error (.file path cause)) ∨
            (empty.exportAll exports).datumFor d h request = .error (.stale path))) := by
  have htree : (empty.exportAll exports).tree = some t := by
    rw [tree_exportAll, hlast]
    rfl
  have ht := complete_of_lastBuilt hlast
  obtain ⟨id, hl⟩ := PublishedTree.exists_isLastWith hh
  refine ⟨id, hl, ?_⟩
  rw [datumFor_of_tree htree (ht.lookup h id hl)]
  rcases ht.datumMessage_of_isLastWith hl d request with
    ⟨m, hm, hcarries⟩ | ⟨node, path, index, hn, hbody, ⟨cause, herror⟩ | herror⟩
  · exact .inl ⟨m, by rw [hm]; rfl, hcarries⟩
  · exact .inr ⟨node, path, index, hn, hbody, .inl ⟨cause, by rw [herror]; rfl⟩⟩
  · exact .inr ⟨node, path, index, hn, hbody, .inr (by rw [herror]; rfl)⟩

theorem carriesDatum_of_datumFor {exports : List (Disk × Path)} {d : Disk} {h : Digest}
    {request : UInt32} {m : Message}
    (hm : (empty.exportAll exports).datumFor d h request = .ok (some m)) :
    m.CarriesDatum h request := by
  by_cases hnone : ∀ t, lastBuilt exports = some t → ∀ node ∈ t.nodes, node.hash ≠ some h
  · rw [(datumFor_eq_none_iff exports d h request).mpr hnone] at hm
    cases hm
  · simp only [Classical.not_forall, ne_eq, Classical.not_not] at hnone
    obtain ⟨t, hlast, node, hnode, hhash⟩ := hnone
    obtain ⟨id, -, ⟨m', hm', hcarries⟩ | ⟨_, _, _, -, -, ⟨_, herror⟩ | herror⟩⟩ :=
      datumFor_of_published hlast ⟨node, hnode, hhash⟩ d request
    · cases (hm.symm.trans hm')
      exact hcarries
    · rw [herror] at hm
      cases hm
    · rw [herror] at hm
      cases hm

end Publication
end TreeShare
