import Mathlib.Data.List.Nodup
import TreeShare.Proofs.Publishing.Arena
import TreeShare.Proofs.Replies

/-! Parents and children in the list of nodes that a walk makes. While a walk goes on, the nodes without a
parent are the roots of what was finished; a directory takes the last of them as its children and becomes a
root itself. Main statement: `walk_lineage`. -/
namespace TreeShare

/-! Names and slots are in the same order. -/

namespace Slot

theorem padded_lt_padded {n : Nat} {a b : Bytes} (h : a < b) (hzero : (0 : UInt8) ∉ b) (ha : a.length ≤ n)
    (hb : b.length ≤ n) :
    a ++ List.replicate (n - a.length) 0 < b ++ List.replicate (n - b.length) 0 := by
  induction a generalizing b n with
  | nil =>
    cases b with
    | nil => exact absurd h (List.not_lt_nil _)
    | cons y b =>
      have hy : 0 < y := UInt8.pos_iff_ne_zero.mpr fun hy => hzero (hy ▸ List.mem_cons_self)
      obtain ⟨n, rfl⟩ : ∃ m, n = m + 1 := ⟨n - 1, by simp at hb; omega⟩
      exact List.cons_lt_cons_iff.mpr (.inl hy)
  | cons x a ih =>
    cases b with
    | nil => exact absurd h (List.not_lt_nil _)
    | cons y b =>
      rw [List.length_cons] at ha hb
      rw [List.length_cons, List.length_cons, List.cons_append, List.cons_append, List.cons_lt_cons_iff]
      rcases List.cons_lt_cons_iff.mp h with hxy | ⟨hxy, hab⟩
      · exact .inl hxy
      · refine .inr ⟨hxy, ?_⟩
        obtain ⟨n, rfl⟩ : ∃ m, n = m + 1 := ⟨n - 1, by omega⟩
        rw [Nat.add_sub_add_right, Nat.add_sub_add_right]
        exact ih hab (fun hmem => hzero (List.mem_cons_of_mem _ hmem)) (by omega) (by omega)

theorem spec_of_ofName {name : String} {slot : Slot} (h : ofName name = .ok slot) :
    (Utf8.encode name).length ≤ 32 ∧ (0 : UInt8) ∉ Utf8.encode name ∧
      slot = Bytes.padded 32 (Utf8.encode name) := by
  unfold ofName at h
  dsimp only at h
  split at h
  · contradiction
  split at h
  · contradiction
  split at h
  · contradiction
  · exact ⟨Nat.le_of_not_lt ‹_›, ‹_›, (Except.ok.inj h).symm⟩

theorem lt_of_names_lt {name name' : String} {slot slot' : Slot} (h : ofName name = .ok slot)
    (h' : ofName name' = .ok slot') (hlt : Utf8.encode name < Utf8.encode name') :
    slot.toList < slot'.toList := by
  obtain ⟨hlength, -, rfl⟩ := spec_of_ofName h
  obtain ⟨hlength', hzero, rfl⟩ := spec_of_ofName h'
  rw [Bytes.toList_padded, Bytes.toList_padded, List.take_of_length_le hlength,
    List.take_of_length_le hlength']
  exact padded_lt_padded hlt hzero hlength hlength'

end Slot

theorem Disk.nodup_namesIn {d : Disk} (hd : d.objects.Distinct) (here : Location) : (d.namesIn here).Nodup := by
  have hnames : d.namesIn here =
      d.objects.keys.filterMap fun loc => if loc.dropLast = here then loc.getLast? else none := by
    unfold Disk.namesIn Table.keys
    rw [List.filterMap_map]
    rfl
  rw [hnames]
  refine hd.filterMap fun loc loc' name hname hname' => ?_
  split at hname
  · split at hname'
    · rename_i hhere hhere'
      rw [← List.dropLast_append_getLast? name hname, hhere, ← hhere',
        List.dropLast_append_getLast? name hname']
    · cases hname'
  · cases hname

theorem Table.Distinct.nodup_list {d : Disk} (hd : d.objects.Distinct) {path : Path} {names : List Bytes}
    (h : d.list path = .ok names) : names.Nodup := by
  obtain ⟨loc, -, h⟩ := Except.bind_eq_ok_iff.mp h
  split at h
  · cases h
    exact Disk.nodup_namesIn hd loc
  · contradiction

theorem Bytes.pairwise_lt_inOrder {names : List Bytes} (h : names.Nodup) :
    (inOrder names).Pairwise (· < ·) := by
  have hne : (inOrder names).Pairwise (· ≠ ·) := (inOrder_perm names).nodup_iff.mpr h
  refine ((pairwise_inOrder names).and hne).imp fun ⟨hle, hne⟩ => ?_
  exact Std.lt_of_le_of_ne hle hne

namespace PublishedTree

def IsChild (nodes : List TreeNode) (p i : Nat) : Prop :=
  ∃ node children, nodes[p]? = some node ∧ node.body = .directory children ∧ i ∈ children.map Prod.snd

/-- A forest with these roots: they are the nodes without a parent, and the parent of every other node is
the one that has it among its children. -/
structure Forest (nodes : List TreeNode) (roots : List Nat) : Prop where
  ascending : roots.Pairwise (· < ·)
  root_iff : ∀ i, i ∈ roots ↔ ∃ node, nodes[i]? = some node ∧ node.parent = none
  parent_iff : ∀ i node, nodes[i]? = some node → ∀ p, node.parent = some p ↔ IsChild nodes p i

/-- The children of a directory are in order, both as nodes and by their slots. -/
def InOrder (nodes : List TreeNode) : Prop :=
  ∀ node ∈ nodes, ∀ children, node.body = .directory children →
    (children.map Prod.snd).Pairwise (· < ·) ∧ (children.map fun c => c.1.toList).Pairwise (· < ·)

variable {nodes nodes' : List TreeNode} {roots ids : List Nat} {node : TreeNode} {i p : Nat}

theorem IsChild.lt_length (h : IsChild nodes p i) : p < nodes.length := by
  obtain ⟨node, children, hp, -⟩ := h
  exact (List.getElem?_eq_some_iff.mp hp).1

theorem IsChild.lt (ha : Arena nodes) (h : IsChild nodes p i) : i < p := by
  obtain ⟨node, children, hp, hbody, hi⟩ := h
  obtain ⟨c, hc, rfl⟩ := List.mem_map.mp hi
  have hfits := ha p node hp
  unfold Fits at hfits
  rw [hbody] at hfits
  exact (hfits.2 c hc).1

theorem Forest.root_lt (h : Forest nodes roots) (hi : i ∈ roots) : i < nodes.length := by
  obtain ⟨node, hnode, -⟩ := (h.root_iff i).mp hi
  exact (List.getElem?_eq_some_iff.mp hnode).1

theorem forest_nil : Forest [] [] where
  ascending := .nil
  root_iff i := by simp
  parent_iff i node h := by simp at h

/-! A node that comes at the end. -/

theorem setParents_nil (parent : Nat) (nodes : List TreeNode) : setParents parent [] nodes = nodes := by
  apply List.ext_getElem?
  intro i
  simp [getElem?_setParents]

theorem getElem?_added_of_lt (hi : i < nodes.length) :
    (setParents nodes.length ids nodes ++ [node])[i]? =
      nodes[i]?.map fun n => if i ∈ ids then { n with parent := some nodes.length } else n := by
  rw [List.getElem?_append_left (by rwa [length_setParents]), getElem?_setParents]

theorem getElem?_added_length :
    (setParents nodes.length ids nodes ++ [node])[nodes.length]? = some node := by
  rw [List.getElem?_append_right (Nat.le_of_eq (length_setParents ..)), length_setParents, Nat.sub_self]
  rfl

theorem length_added :
    (setParents nodes.length ids nodes ++ [node]).length = nodes.length + 1 := by
  rw [List.length_append, length_setParents, List.length_singleton]

theorem isChild_added (hnode : ∀ i, IsChild [node] 0 i ↔ i ∈ ids) :
    IsChild (setParents nodes.length ids nodes ++ [node]) p i ↔
      IsChild nodes p i ∨ p = nodes.length ∧ i ∈ ids := by
  rcases Nat.lt_trichotomy p nodes.length with hp | rfl | hp
  · rw [or_iff_left fun h => Nat.ne_of_lt hp h.1]
    unfold IsChild
    rw [getElem?_added_of_lt hp, List.getElem?_eq_getElem hp]
    simp only [Option.map_some, Option.some.injEq, exists_and_left, exists_eq_left']
    split <;> rfl
  · rw [or_iff_right fun h => Nat.lt_irrefl _ h.lt_length, and_iff_right rfl, ← hnode]
    unfold IsChild
    rw [getElem?_added_length]
    rfl
  · constructor
    · intro h
      have hlength := h.lt_length
      rw [length_added] at hlength
      omega
    · rintro (h | ⟨rfl, -⟩)
      · exact absurd h.lt_length (Nat.lt_asymm hp)
      · exact absurd hp (Nat.lt_irrefl _)

theorem Forest.add (h : Forest nodes (roots ++ ids)) (ha : Arena nodes) (hparent : node.parent = none)
    (hnode : ∀ i, IsChild [node] 0 i ↔ i ∈ ids) :
    Forest (setParents nodes.length ids nodes ++ [node]) (roots ++ [nodes.length]) where
  ascending := by
    refine List.pairwise_append.mpr ⟨(List.pairwise_append.mp h.ascending).1, by simp, fun i hi j hj => ?_⟩
    rw [List.mem_singleton.mp hj]
    exact h.root_lt (List.mem_append_left _ hi)
  root_iff i := by
    rw [List.mem_append, List.mem_singleton]
    rcases Nat.lt_trichotomy i nodes.length with hi | rfl | hi
    · have hroot := h.root_iff i
      rw [getElem?_added_of_lt hi, or_iff_left (Nat.ne_of_lt hi)]
      rw [List.getElem?_eq_getElem hi, List.mem_append] at *
      by_cases hid : i ∈ ids
      · have hnot : i ∉ roots := fun hroot =>
          Nat.lt_irrefl i ((List.pairwise_append.mp h.ascending).2.2 i hroot i hid)
        simp [hid, hnot]
      · simpa [hid] using hroot
    · rw [getElem?_added_length]
      simp [hparent]
    · rw [List.getElem?_eq_none (by rw [length_added]; omega)]
      refine iff_of_false ?_ nofun
      rintro (hroot | rfl)
      · exact Nat.lt_asymm hi (h.root_lt (List.mem_append_left _ hroot))
      · exact Nat.lt_irrefl _ hi
  parent_iff i x hx p := by
    rw [isChild_added hnode]
    have hi : i < nodes.length + 1 := length_added ▸ (List.getElem?_eq_some_iff.mp hx).1
    rcases Nat.lt_succ_iff_lt_or_eq.mp hi with hi | rfl
    · rw [getElem?_added_of_lt hi] at hx
      obtain ⟨y, hy, rfl⟩ := Option.map_eq_some_iff.mp hx
      have hold := h.parent_iff i y hy p
      split
      · rename_i hid
        obtain ⟨y', hy', hnone⟩ := (h.root_iff i).mp (List.mem_append_right _ hid)
        obtain rfl : y' = y := Option.some.inj (hy'.symm.trans hy)
        rw [hnone] at hold
        simp [← hold, hid, eq_comm]
      · rename_i hid
        simp [hold, hid]
    · rw [getElem?_added_length] at hx
      cases hx
      rw [hparent]
      refine iff_of_false nofun ?_
      rintro (hchild | ⟨-, hid⟩)
      · exact Nat.lt_asymm hchild.lt_length (hchild.lt ha)
      · exact Nat.lt_irrefl _ (h.root_lt (List.mem_append_right _ hid))

/-! Walks. -/

theorem addEntries_slots {add : Path → String → List TreeNode → Walk} {parent : Path} {names : List Bytes}
    {children : List (Slot × Nat)} (h : addEntries add parent names nodes = .ok (children, nodes'))
    (hnames : names.Pairwise (· < ·)) :
    (∀ c ∈ children, ∃ s, Utf8.encode s ∈ names ∧ Slot.ofName s = .ok c.1) ∧
      (children.map fun c => c.1.toList).Pairwise (· < ·) := by
  induction names generalizing nodes children with
  | nil =>
    cases Except.ok.inj h
    exact ⟨by simp, .nil⟩
  | cons name names ih =>
    obtain ⟨⟨s, slot⟩, hslot, h⟩ := Except.bind_eq_ok_iff.mp h
    obtain ⟨⟨id, middle⟩, -, h⟩ := Except.bind_eq_ok_iff.mp h
    obtain ⟨⟨rest, last⟩, hrest, h⟩ := Except.bind_eq_ok_iff.mp h
    cases Except.ok.inj h
    obtain ⟨hdecoded, hs⟩ := entrySlot_eq_ok hslot
    obtain rfl := Utf8.decode?_eq_some_iff.mp hdecoded
    obtain ⟨hlt, hnames⟩ := List.pairwise_cons.mp hnames
    obtain ⟨hmem, hslots⟩ := ih hrest hnames
    refine ⟨List.forall_mem_cons.mpr ⟨⟨s, List.mem_cons_self, hs⟩, fun c hc => ?_⟩,
      List.pairwise_cons.mpr ⟨List.forall_mem_map.mpr fun c hc => ?_, hslots⟩⟩
    · obtain ⟨s', hs', hslot'⟩ := hmem c hc
      exact ⟨s', List.mem_cons_of_mem _ hs', hslot'⟩
    · obtain ⟨s', hs', hslot'⟩ := hmem c hc
      exact Slot.lt_of_names_lt hs hslot' (hlt _ hs')

/-- What a walk has made, up to some point: an arena, where what was finished hangs from these roots. -/
structure Grove (nodes : List TreeNode) (roots : List Nat) : Prop where
  arena : Arena nodes
  unfinished : Unfinished nodes
  forest : Forest nodes roots
  inOrder : InOrder nodes

theorem InOrder.add (h : InOrder nodes)
    (hnode : ∀ children, node.body = .directory children →
      (children.map Prod.snd).Pairwise (· < ·) ∧ (children.map fun c => c.1.toList).Pairwise (· < ·)) :
    InOrder (setParents nodes.length ids nodes ++ [node]) := by
  intro x hx children hbody
  rcases List.mem_append.mp hx with hx | hx
  · obtain ⟨i, hi⟩ := List.getElem?_of_mem hx
    obtain ⟨y, hy, -, hsame, -⟩ := setParents_eq hi
    exact h y (List.mem_of_getElem? hy) children (hsame ▸ hbody)
  · exact hnode children (List.mem_singleton.mp hx ▸ hbody)

theorem addEntries_grove {add : Path → String → List TreeNode → Walk}
    (hadd : ∀ path name nodes roots id nodes', add path name nodes = .ok (id, nodes') → Grove nodes roots →
      Grove nodes' (roots ++ [id]))
    {parent : Path} {names : List Bytes} {children : List (Slot × Nat)}
    (h : addEntries add parent names nodes = .ok (children, nodes')) (hg : Grove nodes roots) :
    Grove nodes' (roots ++ children.map Prod.snd) := by
  induction names generalizing nodes children roots with
  | nil =>
    cases Except.ok.inj h
    rwa [List.map_nil, List.append_nil]
  | cons name names ih =>
    obtain ⟨⟨s, slot⟩, -, h⟩ := Except.bind_eq_ok_iff.mp h
    obtain ⟨⟨id, middle⟩, hfirst, h⟩ := Except.bind_eq_ok_iff.mp h
    obtain ⟨⟨rest, last⟩, hrest, h⟩ := Except.bind_eq_ok_iff.mp h
    cases Except.ok.inj h
    have hlater := ih hrest (hadd _ _ _ _ _ _ hfirst hg)
    rwa [List.append_assoc] at hlater

theorem addNode_eq_ok {d : Disk} {room : Nat} {path : Path} {name : String} {id : Nat}
    (h : addNode d room path name nodes = .ok (id, nodes')) :
    (∃ lower names children middle, room = lower + 1 ∧ d.list path = .ok names ∧
        addEntries (addNode d lower) path (Bytes.inOrder names) nodes = .ok (children, middle) ∧
        id = middle.length ∧ nodes' = setParents middle.length (children.map Prod.snd) middle ++
          [⟨name, .directory children, none, none⟩]) ∨
      ∃ x, id = nodes.length ∧ nodes' = nodes ++ [⟨name, .chunk path 0, none, some x⟩] := by
  cases room with
  | zero => contradiction
  | succ room =>
    unfold addNode at h
    obtain ⟨stat, -, h⟩ := Except.bind_eq_ok_iff.mp h
    split at h
    · obtain ⟨names, hnames, h⟩ := Except.bind_eq_ok_iff.mp h
      dsimp only at h
      split at h
      · contradiction
      · obtain ⟨⟨children, middle⟩, hentries, h⟩ := Except.bind_eq_ok_iff.mp h
        cases Except.ok.inj h
        exact .inl ⟨room, names, children, middle, rfl, Except.mapError_eq_ok_iff.mp hnames, hentries, rfl, rfl⟩
    · split at h
      · contradiction
      · obtain ⟨data, -, h⟩ := Except.bind_eq_ok_iff.mp h
        cases Except.ok.inj h
        exact .inr ⟨_, rfl, rfl⟩

theorem addNode_last {d : Disk} {room : Nat} {path : Path} {name : String} {id : Nat}
    (h : addNode d room path name nodes = .ok (id, nodes')) : id + 1 = nodes'.length := by
  rcases addNode_eq_ok h with ⟨_, _, _, middle, -, -, -, rfl, rfl⟩ | ⟨_, rfl, rfl⟩
  · exact length_added.symm
  · rw [List.length_append, List.length_singleton]

theorem addNode_grove {d : Disk} (hd : d.objects.Distinct) {room : Nat} {path : Path} {name : String} {id : Nat}
    (h : addNode d room path name nodes = .ok (id, nodes')) (hg : Grove nodes roots) :
    Grove nodes' (roots ++ [id]) := by
  have hadded := addNode_added h hg.arena hg.unfinished
  suffices Forest nodes' (roots ++ [id]) ∧ InOrder nodes' from
    ⟨hadded.arena, hadded.unfinished, this.1, this.2⟩
  induction room generalizing path name nodes nodes' id roots with
  | zero => contradiction
  | succ room ih =>
    rcases addNode_eq_ok h with ⟨_, names, children, middle, hroom, hlist, hentries, rfl, rfl⟩ | ⟨x, rfl, rfl⟩
    · cases hroom
      have hentered : Grove middle (roots ++ children.map Prod.snd) := by
        refine addEntries_grove (fun _ _ _ _ _ _ h hg => ?_) hentries hg
        have hadded := addNode_added h hg.arena hg.unfinished
        obtain ⟨hforest, horder⟩ := ih h hg hadded
        exact ⟨hadded.arena, hadded.unfinished, hforest, horder⟩
      have hslots := (addEntries_slots hentries (Bytes.pairwise_lt_inOrder (hd.nodup_list hlist))).2
      have hids := (List.pairwise_append.mp hentered.forest.ascending).2.1
      refine ⟨hentered.forest.add hentered.arena rfl fun i => by simp [IsChild], hentered.inOrder.add ?_⟩
      intro children' hbody
      cases hbody
      exact ⟨hids, hslots⟩
    · have hforest : Forest nodes (roots ++ []) := (List.append_nil roots).symm ▸ hg.forest
      let leaf : TreeNode := ⟨name, .chunk path 0, none, some x⟩
      have hroot : Forest (setParents nodes.length [] nodes ++ [leaf]) (roots ++ [nodes.length]) :=
        hforest.add hg.arena rfl fun i => by simp [IsChild, leaf]
      have horder : InOrder (setParents nodes.length [] nodes ++ [leaf]) := hg.inOrder.add nofun
      rw [setParents_nil] at hroot horder
      exact ⟨hroot, horder⟩

/-- The nodes of a tree, with their places in it. -/
structure WellBuilt (t : PublishedTree) : Prop where
  root_last : t.root + 1 = t.nodes.length
  /-- The children of a directory come before it, in order, under the slots of their names. -/
  directory : ∀ (id : Nat) (node : TreeNode) (children : List (Slot × Nat)),
    t.nodes[id]? = some node → node.body = .directory children → children.length ≤ 16 ∧
      (∀ c ∈ children, c.2 < id) ∧ (children.map Prod.snd).Pairwise (· < ·) ∧
      (children.map fun c => c.1.toList).Pairwise (· < ·) ∧
      ∀ c ∈ children, ∃ child : TreeNode, t.nodes[c.2]? = some child ∧ Slot.ofName child.name = .ok c.1
  /-- A directory is the parent of its children, and of no other node. -/
  parent_iff : ∀ (i : Nat) (node : TreeNode), t.nodes[i]? = some node →
    ∀ p, node.parent = some p ↔ IsChild t.nodes p i
  /-- Every node is in one list of children, and the root in none. -/
  child : ∀ i < t.nodes.length, i ≠ t.root → ∃! p, IsChild t.nodes p i
  root_free : ∀ p, ¬ IsChild t.nodes p t.root
  chunk : ∀ node ∈ t.nodes, ∀ path index, node.body = .chunk path index →
    index = 0 ∧ node.hash.isSome

/-- Where no location has two objects, every walk that succeeds makes a tree whose nodes are in place. -/
theorem walk_lineage {d : Disk} (hd : d.objects.Distinct) {path : Path} {t : PublishedTree}
    (h : walk d path = .ok t) : t.WellBuilt := by
  obtain ⟨⟨root, nodes⟩, hadd, h⟩ := Except.bind_eq_ok_iff.mp h
  cases Except.ok.inj h
  have hlast := addNode_last hadd
  obtain ⟨harena, hunfinished, hforest, horder⟩ := addNode_grove hd hadd
    ⟨by simp [Arena], by simp [Unfinished], forest_nil, by simp [InOrder]⟩
  have hroot (i : Nat) : (∃ node, nodes[i]? = some node ∧ node.parent = none) ↔ i = root := by
    rw [← hforest.root_iff, List.nil_append, List.mem_singleton]
  refine ⟨hlast, fun id node children hnode hbody => ?_, hforest.parent_iff, fun i hi hne => ?_, fun p hp => ?_,
    fun node hnode path index hbody => ?_⟩
  · have hfits := harena id node hnode
    unfold Fits at hfits
    rw [hbody] at hfits
    obtain ⟨hids, hslots⟩ := horder node (List.mem_of_getElem? hnode) children hbody
    exact ⟨hfits.1, fun c hc => (hfits.2 c hc).1, hids, hslots, fun c hc => (hfits.2 c hc).2⟩
  · have hnode := List.getElem?_eq_getElem hi
    cases hparent : nodes[i].parent with
    | none => exact absurd ((hroot i).mp ⟨_, hnode, hparent⟩) hne
    | some p =>
      have hiff := hforest.parent_iff i _ hnode
      refine ⟨p, (hiff p).mp hparent, fun q hq => ?_⟩
      exact Option.some.inj (((hiff q).mpr hq).symm.trans hparent)
  · obtain ⟨node, hnode, hnone⟩ := (hroot root).mpr rfl
    exact Option.some_ne_none p (((hforest.parent_iff root node hnode p).mpr hp).symm.trans hnone)
  · obtain ⟨i, hi⟩ := List.getElem?_of_mem hnode
    have hfits := harena i node hi
    unfold Fits at hfits
    have hhash := hunfinished node hnode
    rw [hbody] at hfits hhash
    exact ⟨hfits, hhash⟩

/-- A directory in a directory, with a link to the file beside it. -/
theorem walk_lineage_of_nested :
    let d : Disk := ⟨⟨[([[0x64]], .directory), ([[0x64], [0x62]], .directory),
      ([[0x64], [0x61]], .file [7] 0o644), ([[0x64], [0x62], [0x63]], .link ⟨[0x2f, 0x64, 0x2f, 0x61]⟩)]⟩⟩
    d.objects.Distinct ∧ ∃ t, walk d ⟨[0x64]⟩ = .ok t ∧ t.nodes.map TreeNode.parent =
      [some 3, some 2, some 3, none] ∧ t.WellBuilt := by
  intro d
  have hd : d.objects.Distinct := by
    show d.objects.keys.Nodup
    decide
  let x := Datum.hashOf .chunk [7]
  let t : PublishedTree :=
    ⟨[⟨"a", .chunk ⟨[0x64, 0x2f, 0x61]⟩ 0, some 3, some x⟩,
      ⟨"c", .chunk ⟨[0x64, 0x2f, 0x62, 0x2f, 0x63]⟩ 0, some 2, some x⟩,
      ⟨"b", .directory [(Bytes.padded 32 [0x63], 1)], some 3, none⟩,
      ⟨"d", .directory [(Bytes.padded 32 [0x61], 0), (Bytes.padded 32 [0x62], 2)], none, none⟩], 3, .empty⟩
  have hwalk : walk d ⟨[0x64]⟩ = .ok t := by rfl
  exact ⟨hd, t, hwalk, rfl, walk_lineage hd hwalk⟩

end PublishedTree
end TreeShare
