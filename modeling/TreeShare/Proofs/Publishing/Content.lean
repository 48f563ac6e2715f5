import TreeShare.Proofs.Files.Unfolding
import TreeShare.Proofs.Publishing.Hashes

/-! What a published tree has to do with what its path unfolds to: its nodes show the parts of it, with
their hashes. Main statement: `content_hash`. -/
namespace TreeShare

namespace FileTree

def NameFits (name : Bytes) : Prop :=
  (Utf8.decode? name).isSome ∧ 1 ≤ name.length ∧ name.length ≤ 32

instance : DecidablePred NameFits :=
  fun name => inferInstanceAs (Decidable ((Utf8.decode? name).isSome ∧ _ ∧ _))

/-- Files of one chunk, and directories of at most 16 entries whose names fit. -/
def Exportable : FileTree → Prop :=
  Every (fun data => data.length ≤ 1024) fun names =>
    names.length ≤ 16 ∧ ∀ name ∈ names, NameFits name

instance : DecidablePred Exportable :=
  fun t => inferInstanceAs (Decidable (Every _ _ t))

end FileTree

open FileTree (NameFits)

theorem Slot.ofName_eq_ok_iff {name : String} {slot : Slot} :
    Slot.ofName name = .ok slot ↔
      slot = Bytes.padded 32 (Utf8.encode name) ∧ Utf8.encode name ≠ [] ∧
        (Utf8.encode name).length ≤ 32 ∧ (0 : UInt8) ∉ Utf8.encode name := by
  unfold Slot.ofName
  dsimp only
  constructor
  · intro h
    split at h
    · contradiction
    split at h
    · contradiction
    split at h
    · contradiction
    exact ⟨(Except.ok.inj h).symm, ‹_›, by omega, ‹_›⟩
  · rintro ⟨rfl, hne, hlen, hzero⟩
    rw [if_neg hne, if_neg (by omega), if_neg hzero]

theorem Disk.readChunk_eq_ok_iff {d : Disk} {path : Path} {data : Bytes} :
    d.readChunk path 0 = .ok data ↔ d.read path = .ok data ∧ data.length ≤ 1024 := by
  unfold readChunk
  cases d.read path with
  | error e => simp
  | ok bytes =>
    simp only [Except.mapError_ok, Except.bind_ok, Nat.mul_zero, List.drop_zero, true_and,
      Except.ok.injEq]
    by_cases hshort : bytes.length ≤ 1024
    · rw [List.take_of_length_le (by omega), if_neg (by omega), List.take_of_length_le hshort]
      constructor
      · intro h
        cases Except.ok.inj h
        exact ⟨rfl, hshort⟩
      · rintro ⟨rfl, -⟩
        rfl
    · rw [if_pos (by rw [List.length_take]; omega)]
      constructor
      · intro h
        contradiction
      · rintro ⟨rfl, hlen⟩
        exact absurd hlen hshort

namespace PublishedTree

variable {d : Disk} {reads : Path → Bytes → Prop} {nodes nodes' : List TreeNode} {path : Path}

/-- A node shows a file, under a path where it is read, or a directory with its entries in turn. -/
inductive Shows (reads : Path → Bytes → Prop) (nodes : List TreeNode) : Nat → FileTree → Prop
  | file {id : Nat} {node : TreeNode} {path : Path} {data : Bytes} (found : nodes[id]? = some node)
      (body : node.body = .chunk path 0) (hash : node.hash = some (Datum.hashOf .chunk data))
      (read : reads path data) (short : data.length ≤ 1024) : Shows reads nodes id (.file data)
  | directory {id : Nat} {node : TreeNode} {children : List (Slot × Nat)}
      {entries : List (Bytes × FileTree)} (found : nodes[id]? = some node)
      (body : node.body = .directory children) (length : children.length = entries.length)
      (named : ∀ p ∈ children.zip entries, ∃ child, nodes[p.1.2]? = some child ∧
        Utf8.encode child.name = p.2.1)
      (below : ∀ p ∈ children.zip entries, Shows reads nodes p.1.2 p.2.2) :
      Shows reads nodes id (.directory entries)

theorem Shows.keeps (hk : Keeps nodes nodes') {id : Nat} {c : FileTree}
    (h : Shows reads nodes id c) : Shows reads nodes' id c := by
  induction h with
  | file hfound hbody hhash hread hshort =>
    obtain ⟨node', hfound', -, hbody', hhash'⟩ := hk _ _ hfound
    exact .file hfound' (hbody'.trans hbody) (hhash' _ hhash) hread hshort
  | directory hfound hbody hlength hnamed _ ih =>
    obtain ⟨node', hfound', -, hbody', -⟩ := hk _ _ hfound
    refine .directory hfound' (hbody'.trans hbody) hlength (fun p hp => ?_) ih
    obtain ⟨child, hchild, hname⟩ := hnamed p hp
    obtain ⟨child', hchild', hname', -⟩ := hk _ _ hchild
    exact ⟨child', hchild', hname' ▸ hname⟩

/-- What a walk below one path shows: what it unfolds to, and with every new node a part of it. -/
structure Walked (d : Disk) (reads : Path → Bytes → Prop) (path : Path) (nodes : List TreeNode)
    (id : Nat) (nodes' : List TreeNode) (c : FileTree) : Prop where
  unfolds : d.Unfolds path c
  exportable : c.Exportable
  shows : Shows reads nodes' id c
  covers : ∀ i, nodes.length ≤ i → i < nodes'.length →
    ∃ s, s.PartOf c ∧ Shows reads nodes' i s

structure WalkedAll (d : Disk) (reads : Path → Bytes → Prop) (parent : Path) (names : List Bytes)
    (nodes : List TreeNode) (children : List (Slot × Nat)) (nodes' : List TreeNode)
    (entries : List (Bytes × FileTree)) : Prop where
  names_eq : entries.map Prod.fst = names
  fit : ∀ name ∈ names, NameFits name
  unfolds : ∀ e ∈ entries, d.Unfolds (parent.join ⟨e.1⟩) e.2
  exportable : ∀ e ∈ entries, e.2.Exportable
  length : children.length = entries.length
  named : ∀ p ∈ children.zip entries, ∃ child, nodes'[p.1.2]? = some child ∧
    Utf8.encode child.name = p.2.1
  below : ∀ p ∈ children.zip entries, Shows reads nodes' p.1.2 p.2.2
  covers : ∀ i, nodes.length ≤ i → i < nodes'.length →
    ∃ e ∈ entries, ∃ s, s.PartOf e.2 ∧ Shows reads nodes' i s

theorem nameFits_of_entrySlot {name : Bytes} {s : String} {slot : Slot}
    (h : entrySlot path name = .ok (s, slot)) : NameFits name := by
  obtain ⟨hdecode, hslot⟩ := entrySlot_eq_ok h
  obtain ⟨-, hne, hlen, -⟩ := Slot.ofName_eq_ok_iff.mp hslot
  rw [Utf8.encode_of_decode? hdecode] at hne hlen
  exact ⟨Option.isSome_of_eq_some hdecode, List.length_pos_iff.mpr hne, hlen⟩

theorem addEntries_walked {add : Path → String → List TreeNode → Walk}
    (hadded : ∀ path name nodes id nodes', add path name nodes = .ok (id, nodes') →
      Arena nodes → Unfinished nodes → Added name nodes id nodes')
    (hwalked : ∀ path name nodes id nodes', add path name nodes = .ok (id, nodes') →
      Arena nodes → Unfinished nodes → (∀ q data, d.FileBelow path q data → reads q data) →
        ∃ c, Walked d reads path nodes id nodes' c)
    {parent : Path} {names : List Bytes} {children : List (Slot × Nat)}
    (h : addEntries add parent names nodes = .ok (children, nodes'))
    (ha : Arena nodes) (hu : Unfinished nodes)
    (hreads : ∀ name ∈ names, ∀ q data, d.FileBelow (parent.join ⟨name⟩) q data → reads q data) :
    ∃ entries, WalkedAll d reads parent names nodes children nodes' entries := by
  induction names generalizing nodes children with
  | nil =>
    cases Except.ok.inj h
    exact ⟨[], rfl, by simp, by simp, by simp, rfl, by simp, by simp, fun i _ _ => by omega⟩
  | cons name names ih =>
    obtain ⟨⟨s, slot⟩, hslot, h⟩ := Except.bind_eq_ok_iff.mp h
    obtain ⟨⟨id, middle⟩, hfirst, h⟩ := Except.bind_eq_ok_iff.mp h
    obtain ⟨⟨rest, last⟩, hrest, h⟩ := Except.bind_eq_ok_iff.mp h
    cases Except.ok.inj h
    rw [List.forall_mem_cons] at hreads
    -- The nodes of the first entry stay as they are while the others are added.
    have added := hadded _ _ _ _ _ hfirst ha hu
    have keeps := (addEntries_added hadded hrest added.arena added.unfinished).keeps
    obtain ⟨c, first⟩ := hwalked _ _ _ _ _ hfirst ha hu hreads.1
    obtain ⟨entries, later⟩ := ih hrest added.arena added.unfinished hreads.2
    refine ⟨(name, c) :: entries, ?_⟩
    exact {
      names_eq := by rw [List.map_cons, later.names_eq]
      fit := List.forall_mem_cons.mpr ⟨nameFits_of_entrySlot hslot, later.fit⟩
      unfolds := List.forall_mem_cons.mpr ⟨first.unfolds, later.unfolds⟩
      exportable := List.forall_mem_cons.mpr ⟨first.exportable, later.exportable⟩
      length := by rw [List.length_cons, List.length_cons, later.length]
      named := by
        rw [List.zip_cons_cons, List.forall_mem_cons]
        obtain ⟨node, hnode, hname⟩ := added.named
        obtain ⟨node', hnode', hname', -⟩ := keeps _ _ hnode
        refine ⟨⟨node', hnode', ?_⟩, later.named⟩
        rw [hname', hname]
        exact Utf8.encode_of_decode? (entrySlot_eq_ok hslot).1
      below := by
        rw [List.zip_cons_cons, List.forall_mem_cons]
        exact ⟨first.shows.keeps keeps, later.below⟩
      covers := by
        intro i hi hlast
        by_cases hmiddle : i < middle.length
        · obtain ⟨part, hpart, hshows⟩ := first.covers i hi hmiddle
          exact ⟨(name, c), by simp, part, hpart, hshows.keeps keeps⟩
        · obtain ⟨e, he, hshown⟩ := later.covers i (by omega) hlast
          exact ⟨e, by simp [he], hshown⟩ }

theorem WalkedAll.directory {listed : List Bytes} {children : List (Slot × Nat)}
    {entries : List (Bytes × FileTree)} (hlist : d.list path = .ok listed)
    (h : WalkedAll d reads path (Bytes.inOrder listed) nodes children nodes' entries)
    (hcount : (Bytes.inOrder listed).length ≤ 16) (name : String) (ids : List Nat) :
    Walked d reads path nodes nodes'.length
      (setParents nodes'.length ids nodes' ++ [⟨name, .directory children, none, none⟩])
      (.directory entries) := by
  have hk := (keeps_setParents nodes'.length ids nodes').trans
    (.append _ [⟨name, .directory children, none, none⟩])
  have hshows : Shows reads
      (setParents nodes'.length ids nodes' ++ [⟨name, .directory children, none, none⟩])
      nodes'.length (.directory entries) := by
    refine .directory (by rw [List.getElem?_append_right (by simp)]; simp; rfl) rfl h.length ?_ ?_
    · intro p hp
      obtain ⟨child, hchild, hname⟩ := h.named p hp
      obtain ⟨child', hchild', hname', -⟩ := hk _ _ hchild
      exact ⟨child', hchild', hname' ▸ hname⟩
    · exact fun p hp => (h.below p hp).keeps hk
  refine ⟨?_, ?_, hshows, ?_⟩
  · refine .directory hlist ?_ ?_ h.unfolds
    · rw [h.names_eq]
      exact Bytes.inOrder_perm listed
    · rw [h.names_eq]
      exact Bytes.pairwise_inOrder listed
  · apply FileTree.every_directory.mpr
    rw [h.names_eq]
    exact ⟨⟨hcount, h.fit⟩, h.exportable⟩
  · intro i hi hlast
    rw [List.length_append, length_setParents, List.length_singleton] at hlast
    by_cases hnew : i < nodes'.length
    · obtain ⟨e, he, s, hs, hshown⟩ := h.covers i hi hnew
      exact ⟨s, .entry he hs, hshown.keeps hk⟩
    · obtain rfl : i = nodes'.length := by omega
      exact ⟨_, .refl _, hshows⟩

theorem walked_chunk {data : Bytes} (hchunk : d.readChunk path 0 = .ok data)
    (hreads : ∀ q data, d.FileBelow path q data → reads q data) (name : String) :
    Walked d reads path nodes nodes.length
      (nodes ++ [⟨name, .chunk path 0, none, some (Datum.hashOf .chunk data)⟩]) (.file data) := by
  obtain ⟨hread, hshort⟩ := Disk.readChunk_eq_ok_iff.mp hchunk
  have hshows : Shows reads
      (nodes ++ [⟨name, .chunk path 0, none, some (Datum.hashOf .chunk data)⟩]) nodes.length
      (.file data) :=
    .file (by rw [List.getElem?_append_right (Nat.le_refl _)]; simp; rfl) rfl rfl
      (hreads _ _ (.here hread)) hshort
  refine ⟨.file hread, FileTree.every_file.mpr hshort, hshows, fun i hi hlast => ?_⟩
  rw [List.length_append, List.length_singleton] at hlast
  obtain rfl : i = nodes.length := by omega
  exact ⟨_, .refl _, hshows⟩

theorem addNode_walked {room : Nat} {name : String} {id : Nat}
    (h : addNode d room path name nodes = .ok (id, nodes')) (ha : Arena nodes)
    (hu : Unfinished nodes) (hreads : ∀ q data, d.FileBelow path q data → reads q data) :
    ∃ c, Walked d reads path nodes id nodes' c := by
  induction room generalizing path name nodes nodes' id with
  | zero => contradiction
  | succ room ih =>
    unfold addNode at h
    obtain ⟨stat, -, h⟩ := Except.bind_eq_ok_iff.mp h
    split at h
    · obtain ⟨listed, hlist, h⟩ := Except.bind_eq_ok_iff.mp h
      rw [Except.mapError_eq_ok_iff] at hlist
      dsimp only at h
      split at h
      · contradiction
      · rename_i hcount
        obtain ⟨⟨children, middle⟩, hentries, h⟩ := Except.bind_eq_ok_iff.mp h
        cases Except.ok.inj h
        have hbelow : ∀ name ∈ Bytes.inOrder listed, ∀ q data,
            d.FileBelow (path.join ⟨name⟩) q data → reads q data :=
          fun name hname q data hfile =>
            hreads q data (.entry hlist ((Bytes.inOrder_perm listed).mem_iff.mp hname) hfile)
        obtain ⟨entries, walked⟩ := addEntries_walked (fun _ _ _ _ _ h => addNode_added h)
          (fun _ _ _ _ _ h => ih h) hentries ha hu hbelow
        exact ⟨.directory entries, walked.directory hlist (by omega) name _⟩
    · split at h
      · contradiction
      · obtain ⟨data, hchunk, h⟩ := Except.bind_eq_ok_iff.mp h
        cases Except.ok.inj h
        exact ⟨.file data, walked_chunk hchunk hreads name⟩

theorem entrySlot_of_fits {name : Bytes} (hname : NameFits name) (hzero : (0 : UInt8) ∉ name)
    (path : Path) : ∃ s slot, entrySlot path name = .ok (s, slot) := by
  obtain ⟨hdecode, hne, hlen⟩ := hname
  obtain ⟨s, hdecode⟩ := Option.isSome_iff_exists.mp hdecode
  have hencode := Utf8.encode_of_decode? hdecode
  have hslot : Slot.ofName s = .ok (Bytes.padded 32 name) := by
    rw [Slot.ofName_eq_ok_iff, hencode]
    exact ⟨rfl, List.length_pos_iff.mp hne, hlen, hzero⟩
  refine ⟨s, Bytes.padded 32 name, ?_⟩
  unfold entrySlot
  simp only [hdecode, hslot]

theorem addEntries_ok {add : Path → String → List TreeNode → Walk} {parent : Path}
    {entries : List (Bytes × FileTree)} (hunfolds : ∀ e ∈ entries, d.Unfolds (parent.join ⟨e.1⟩) e.2)
    (hfit : ∀ name ∈ entries.map Prod.fst, NameFits name)
    (hadd : ∀ e ∈ entries, ∀ name nodes, ∃ r, add (parent.join ⟨e.1⟩) name nodes = .ok r)
    (nodes : List TreeNode) :
    ∃ r, addEntries add parent (entries.map Prod.fst) nodes = .ok r := by
  induction entries generalizing nodes with
  | nil => exact ⟨_, rfl⟩
  | cons e entries ih =>
    rw [List.map_cons, List.forall_mem_cons] at hfit
    rw [List.forall_mem_cons] at hunfolds hadd
    obtain ⟨s, slot, hslot⟩ := entrySlot_of_fits hfit.1 hunfolds.1.zero_notMem (parent.join ⟨e.1⟩)
    obtain ⟨⟨id, middle⟩, hfirst⟩ := hadd.1 s nodes
    obtain ⟨⟨rest, last⟩, hrest⟩ := ih hunfolds.2 hfit.2 hadd.2 middle
    refine ⟨((slot, id) :: rest, last), ?_⟩
    rw [List.map_cons]
    unfold addEntries
    simp only [hslot, Except.bind_ok, hfirst, hrest]
    rfl

/-- The walk gets to the end of what can be published. Every level takes room, but no path can be
longer than the longest one. -/
theorem addNode_ok (hd : d.WellNamed) {c : FileTree} (hc : d.Unfolds path c) (he : c.Exportable)
    {room : Nat} (hroom : Disk.pathMax + 1 ≤ room + path.bytes.length) (name : String)
    (nodes : List TreeNode) : ∃ r, addNode d room path name nodes = .ok r := by
  induction hc generalizing room name nodes with
  | @file path data hread =>
    have hshorter := (Disk.Unfolds.file hread).bounds.2.2
    obtain ⟨room, rfl⟩ : ∃ k, room = k + 1 := ⟨room - 1, by omega⟩
    have hdata := FileTree.every_file.mp he
    obtain ⟨mode, hstat⟩ := Disk.stat_of_read hread
    have hchunk := Disk.readChunk_eq_ok_iff.mpr ⟨hread, hdata⟩
    let node : TreeNode := ⟨name, .chunk path 0, none, some (Datum.hashOf .chunk data)⟩
    refine ⟨(nodes.length, nodes ++ [node]), ?_⟩
    unfold addNode
    simp only [hstat, Except.mapError_ok, Except.bind_ok, Bool.false_eq_true, if_false]
    rw [if_neg (by omega), hchunk]
    rfl
  | @directory path listed entries hlist hperm hsorted hbelow ih =>
    have hshorter := (Disk.Unfolds.directory hlist hperm hsorted hbelow).bounds.2.2
    obtain ⟨room, rfl⟩ : ∃ k, room = k + 1 := ⟨room - 1, by omega⟩
    obtain ⟨hnames, hentries⟩ := FileTree.every_directory.mp he
    have hadd : ∀ e ∈ entries, ∀ name nodes,
        ∃ r, addNode d room (path.join ⟨e.1⟩) name nodes = .ok r := by
      intro e he
      have hlisted : e.1 ∈ listed := hperm.mem_iff.mp (List.mem_map_of_mem he)
      have hlonger := Path.length_lt_join (p := path) (Disk.wellNamed_list hd hlist hlisted)
      exact ih e he (hentries e he) (by omega)
    obtain ⟨⟨children, last⟩, hall⟩ := addEntries_ok hbelow hnames.2 hadd nodes
    let node : TreeNode := ⟨name, .directory children, none, none⟩
    refine ⟨(last.length, setParents last.length (children.map Prod.snd) last ++ [node]), ?_⟩
    unfold addNode
    simp only [Disk.stat_of_list hlist, Except.mapError_ok, Except.bind_ok, if_true, hlist]
    rw [← Bytes.eq_inOrder hperm hsorted, if_neg (by have := hnames.1; omega), hall]
    rfl

theorem build_eq_ok {t : PublishedTree} (h : build d path = .ok t) :
    ∃ walked, walk d path = .ok walked ∧ t.root = walked.root ∧
      t.nodes.length = walked.nodes.length ∧ Keeps walked.nodes t.nodes := by
  obtain ⟨walked, hwalk, h⟩ := Except.bind_eq_ok_iff.mp h
  obtain ⟨filled, t', hcompute, -, hroot, hlen, hkeeps⟩ := computeHashes_complete hwalk d
  rw [hcompute] at h
  cases Except.ok.inj h
  exact ⟨walked, hwalk, hroot, hlen, hkeeps⟩

theorem build_of_walk {walked : PublishedTree} (h : walk d path = .ok walked) :
    ∃ t, build d path = .ok t := by
  obtain ⟨filled, t, hcompute, -⟩ := computeHashes_complete h d
  exact ⟨t, by unfold build; rw [h, Except.bind_ok, hcompute]; rfl⟩

theorem build_shows {t : PublishedTree} (h : build d path = .ok t) :
    ∃ c, d.Unfolds path c ∧ c.Exportable ∧ Shows (d.FileBelow path) t.nodes t.root c ∧
      ∀ i < t.nodes.length, ∃ s, s.PartOf c ∧ Shows (d.FileBelow path) t.nodes i s := by
  obtain ⟨walked, hwalk, hroot, hlen, hkeeps⟩ := build_eq_ok h
  obtain ⟨⟨root, nodes⟩, hadd, hwalk⟩ := Except.bind_eq_ok_iff.mp hwalk
  cases Except.ok.inj hwalk
  obtain ⟨c, hc⟩ := addNode_walked hadd (by simp [Arena]) (by simp [Unfinished]) fun _ _ h => h
  refine ⟨c, hc.unfolds, hc.exportable, hroot ▸ hc.shows.keeps hkeeps, fun i hi => ?_⟩
  obtain ⟨s, hs, hshows⟩ := hc.covers i (Nat.zero_le i) (hlen ▸ hi)
  exact ⟨s, hs, hshows.keeps hkeeps⟩

theorem directoryPayload_of_shown {children : List (Slot × Nat)} {entries : List (Bytes × FileTree)}
    (hlen : children.length = entries.length)
    (hslots : ∀ p ∈ children.zip entries, p.1.1 = Bytes.padded 32 p.2.1)
    (hhashes : ∀ p ∈ children.zip entries, hashOf nodes p.1.2 = .ok p.2.2.hash) :
    directoryPayload nodes children = .ok (FileTree.payload entries) := by
  induction children generalizing entries with
  | nil =>
    cases List.eq_nil_of_length_eq_zero hlen.symm
    rfl
  | cons c children ih =>
    cases entries with
    | nil => contradiction
    | cons e entries =>
      rw [List.zip_cons_cons, List.forall_mem_cons] at hslots hhashes
      have hrest := ih (Nat.succ.inj hlen) hslots.2 hhashes.2
      unfold directoryPayload FileTree.payload
      rw [hhashes.1, Except.bind_ok, hrest, hslots.1]
      rfl

theorem slots_of_shown (ha : Arena nodes) {id : Nat} {node : TreeNode}
    {children : List (Slot × Nat)} {entries : List (Bytes × FileTree)}
    (hfound : nodes[id]? = some node) (hbody : node.body = .directory children)
    (hnamed : ∀ p ∈ children.zip entries, ∃ child, nodes[p.1.2]? = some child ∧
      Utf8.encode child.name = p.2.1) :
    ∀ p ∈ children.zip entries, p.1.1 = Bytes.padded 32 p.2.1 := by
  intro p hp
  have hfits := ha id node hfound
  unfold Fits at hfits
  rw [hbody] at hfits
  obtain ⟨-, child, hchild, hslot⟩ := hfits.2 p.1 (List.of_mem_zip hp).1
  obtain ⟨child', hchild', hname⟩ := hnamed p hp
  cases Option.some.inj (hchild.symm.trans hchild')
  rw [(Slot.ofName_eq_ok_iff.mp hslot).1, hname]

theorem hashOf_of_shows (ha : Arena nodes) (hh : Hashed nodes) {id : Nat} {c : FileTree}
    (h : Shows reads nodes id c) : hashOf nodes id = .ok c.hash := by
  induction h with
  | file hfound hbody hhash =>
    rw [hashOf_eq_ok_iff, FileTree.hash]
    exact ⟨_, hfound, hhash⟩
  | directory hfound hbody hlen hnamed _ ih =>
    obtain ⟨h, hhash, hpayload⟩ := hh _ (List.mem_of_getElem? hfound)
    rw [hbody] at hpayload
    obtain ⟨payload, hpayload, rfl⟩ := hpayload
    have hshown := directoryPayload_of_shown hlen (slots_of_shown ha hfound hbody hnamed) ih
    cases Except.ok.inj (hpayload.symm.trans hshown)
    rw [hashOf_eq_ok_iff, FileTree.hash]
    exact ⟨_, hfound, hhash⟩

theorem Complete.rootHash?_of_shows {t : PublishedTree} (ht : t.Complete) {c : FileTree}
    (h : Shows reads t.nodes t.root c) : t.rootHash? = some c.hash := by
  obtain ⟨node, hnode, hhash⟩ := hashOf_eq_ok_iff.mp (hashOf_of_shows ht.arena ht.hashed h)
  unfold rootHash?
  rw [hnode]
  exact hhash

theorem build_hash {t : PublishedTree} (h : build d path = .ok t) {c : FileTree}
    (hc : d.Unfolds path c) : t.rootHash? = some c.hash := by
  obtain ⟨c', hc', -, hshows, -⟩ := build_shows h
  cases hc.unique hc'
  exact (build_complete h).rootHash?_of_shows hshows

theorem exists_build_iff (hd : d.WellNamed) (path : Path) :
    (∃ t, build d path = .ok t) ↔ ∃ c, d.Unfolds path c ∧ c.Exportable := by
  constructor
  · rintro ⟨t, h⟩
    obtain ⟨c, hc, he, -⟩ := build_shows h
    exact ⟨c, hc, he⟩
  · rintro ⟨c, hc, he⟩
    have hroom : Disk.pathMax + 1 ≤ Disk.pathMax - path.bytes.length + 1 + path.bytes.length := by
      omega
    obtain ⟨⟨root, nodes⟩, hadd⟩ := addNode_ok hd hc he hroom (rootName path) []
    have hwalk : walk d path = .ok ⟨nodes, root, .empty⟩ := by
      unfold walk
      rw [hadd]
      rfl
    exact build_of_walk hwalk

/-- A path can be published exactly if it unfolds to files of one chunk and directories of at most 16
entries whose names fit. The root hash is then that of its content, wherever else this content is
published and under whatever name. -/
theorem content_hash (hd : d.WellNamed) (path : Path) :
    ((∃ t, build d path = .ok t) ↔ ∃ c, d.Unfolds path c ∧ c.Exportable) ∧
      ∀ t, build d path = .ok t → ∃ c, (∀ x, d.Unfolds path x ↔ x = c) ∧
        t.rootHash? = some c.hash ∧
          ∀ d' path' t', build d' path' = .ok t' → Disk.Unfolds d' path' c →
            t'.rootHash? = t.rootHash? := by
  refine ⟨exists_build_iff hd path, fun t h => ?_⟩
  obtain ⟨c, hc, -⟩ := build_shows h
  have hhash := build_hash h hc
  refine ⟨c, fun x => ⟨fun hx => hx.unique hc, fun hx => hx ▸ hc⟩, hhash, ?_⟩
  intro d' path' t' h' hc'
  rw [hhash]
  exact build_hash h' hc'

/-- A directory with a file, a link to the file and a directory in which there is nothing. -/
theorem content_hash_of_linked_file :
    let d : Disk := ⟨⟨[([[0x64]], .directory), ([[0x64], [0x62]], .link ⟨[0x61]⟩),
      ([[0x64], [0x61]], .file [7] 0o644), ([[0x64], [0x63]], .directory)]⟩⟩
    let c : FileTree :=
      .directory [([0x61], .file [7]), ([0x62], .file [7]), ([0x63], .directory [])]
    d.WellNamed ∧ d.Unfolds ⟨[0x64]⟩ c ∧
      ∃ t, build d ⟨[0x64]⟩ = .ok t ∧ t.rootHash? = some c.hash := by
  intro d c
  have hd : d.WellNamed := by decide
  have hlist : d.list ⟨[0x64]⟩ = .ok [[0x62], [0x61], [0x63]] := rfl
  have hbelow : d.list ⟨[0x64, 0x2f, 0x63]⟩ = .ok [] := rfl
  have hc : d.Unfolds ⟨[0x64]⟩ c := by
    refine .directory hlist (by decide) (by decide) ?_
    simp only [List.forall_mem_cons]
    exact ⟨.file rfl, .file rfl, .directory hbelow (by decide) (by decide) (by simp), by simp⟩
  have he : c.Exportable := by decide +kernel
  have h := content_hash hd ⟨[0x64]⟩
  obtain ⟨t, ht⟩ := h.1.mpr ⟨c, hc, he⟩
  obtain ⟨x, hx, hroot, -⟩ := h.2 t ht
  cases (hx c).mp hc
  exact ⟨hd, hc, t, ht, hroot⟩

end PublishedTree
end TreeShare
