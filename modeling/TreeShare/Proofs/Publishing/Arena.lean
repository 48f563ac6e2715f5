import TreeShare.Publishing.Build
import TreeShare.Proofs.Except

/-! The list of nodes that a walk makes. Children come before their directory and fit its slots, so that
one pass over the list finds every hash it needs. Main statement: `walk_arena`. -/
namespace TreeShare.PublishedTree

/-- How a node stands to the list: a chunk is the first of its file, and the at most 16 children of a
directory come before it under the names of their slots. -/
def Fits (nodes : List TreeNode) (id : Nat) (node : TreeNode) : Prop :=
  match node.body with
  | .chunk _ index => index = 0
  | .directory children =>
    children.length ≤ 16 ∧ ∀ c ∈ children, c.2 < id ∧
      ∃ child, nodes[c.2]? = some child ∧ Slot.ofName child.name = .ok c.1

def Arena (nodes : List TreeNode) : Prop :=
  ∀ (id : Nat) (node : TreeNode), nodes[id]? = some node → Fits nodes id node

/-- Chunks have their hash from the walk; directories wait for theirs. -/
def Unfinished (nodes : List TreeNode) : Prop :=
  ∀ node ∈ nodes, match node.body with
    | .chunk .. => node.hash.isSome
    | .directory _ => node.hash = none

/-- Every node is still in its place, with its name, its body and the hash it had. -/
def Keeps (nodes nodes' : List TreeNode) : Prop :=
  ∀ (id : Nat) (node : TreeNode), nodes[id]? = some node →
    ∃ node' : TreeNode, nodes'[id]? = some node' ∧ node'.name = node.name ∧
      node'.body = node.body ∧ ∀ h, node.hash = some h → node'.hash = some h

theorem Keeps.refl (nodes : List TreeNode) : Keeps nodes nodes :=
  fun _ node h => ⟨node, h, rfl, rfl, fun _ hx => hx⟩

theorem Keeps.trans {a b c : List TreeNode} (hab : Keeps a b) (hbc : Keeps b c) : Keeps a c := by
  intro id node h
  obtain ⟨node', h', hname, hbody, hhash⟩ := hab id node h
  obtain ⟨node'', h'', hname', hbody', hhash'⟩ := hbc id node' h'
  exact ⟨node'', h'', hname'.trans hname, hbody'.trans hbody, fun x hx => hhash' x (hhash x hx)⟩

theorem Keeps.append (nodes more : List TreeNode) : Keeps nodes (nodes ++ more) := by
  intro id node h
  have hid : id < nodes.length := (List.getElem?_eq_some_iff.mp h).1
  exact ⟨node, by rw [List.getElem?_append_left hid, h], rfl, rfl, fun _ hx => hx⟩

theorem Fits.mono {nodes nodes' : List TreeNode} {id : Nat} {node node' : TreeNode}
    (hk : Keeps nodes nodes') (hbody : node'.body = node.body) (h : Fits nodes id node) :
    Fits nodes' id node' := by
  unfold Fits at h ⊢
  rw [hbody]
  split at h
  · exact h
  · refine ⟨h.1, fun c hc => ⟨(h.2 c hc).1, ?_⟩⟩
    obtain ⟨child, hchild, hslot⟩ := (h.2 c hc).2
    obtain ⟨child', hchild', hname, -⟩ := hk _ _ hchild
    exact ⟨child', hchild', hname ▸ hslot⟩

theorem Arena.append {nodes : List TreeNode} {node : TreeNode} (ha : Arena nodes)
    (hn : Fits nodes nodes.length node) : Arena (nodes ++ [node]) := by
  intro id x hx
  have hk := Keeps.append nodes [node]
  rcases Nat.lt_or_ge id nodes.length with hid | hid
  · rw [List.getElem?_append_left hid] at hx
    exact (ha id x hx).mono hk rfl
  · rw [List.getElem?_append_right hid, List.getElem?_singleton] at hx
    split at hx
    · cases Option.some.inj hx
      have : id = nodes.length := by omega
      exact this ▸ hn.mono hk rfl
    · contradiction

theorem getElem?_setParents (parent : Nat) (ids : List Nat) (nodes : List TreeNode) (i : Nat) :
    (setParents parent ids nodes)[i]? = nodes[i]?.map fun n =>
      if i ∈ ids then { n with parent := some parent } else n := by
  simp [setParents]

@[simp] theorem length_setParents (parent : Nat) (ids : List Nat) (nodes : List TreeNode) :
    (setParents parent ids nodes).length = nodes.length := by
  simp [setParents]

/-- Only the parent of a node is ever set. -/
theorem setParents_eq {parent : Nat} {ids : List Nat} {nodes : List TreeNode} {i : Nat}
    {node' : TreeNode} (h : (setParents parent ids nodes)[i]? = some node') :
    ∃ node, nodes[i]? = some node ∧ node'.name = node.name ∧ node'.body = node.body ∧
      node'.hash = node.hash := by
  rw [getElem?_setParents] at h
  obtain ⟨node, hnode, rfl⟩ := Option.map_eq_some_iff.mp h
  refine ⟨node, hnode, ?_⟩
  split <;> exact ⟨rfl, rfl, rfl⟩

theorem keeps_setParents (parent : Nat) (ids : List Nat) (nodes : List TreeNode) :
    Keeps nodes (setParents parent ids nodes) := by
  intro i node h
  obtain ⟨node', h'⟩ : ∃ node', (setParents parent ids nodes)[i]? = some node' := by
    rw [getElem?_setParents, h]
    exact ⟨_, rfl⟩
  obtain ⟨x, hx, hname, hbody, hhash⟩ := setParents_eq h'
  cases Option.some.inj (h.symm.trans hx)
  exact ⟨node', h', hname, hbody, fun y hy => hhash.trans hy⟩

theorem Arena.setParents {nodes : List TreeNode} (ha : Arena nodes) (parent : Nat)
    (ids : List Nat) : Arena (setParents parent ids nodes) := by
  intro i node' h'
  obtain ⟨node, h, -, hbody, -⟩ := setParents_eq h'
  exact (ha i node h).mono (keeps_setParents parent ids nodes) hbody

theorem Unfinished.setParents {nodes : List TreeNode} (hu : Unfinished nodes) (parent : Nat)
    (ids : List Nat) : Unfinished (setParents parent ids nodes) := by
  intro node' h'
  obtain ⟨i, hi⟩ := List.getElem?_of_mem h'
  obtain ⟨node, h, -, hbody, hhash⟩ := setParents_eq hi
  have := hu node (List.mem_of_getElem? h)
  rw [hbody, hhash]
  exact this

theorem Unfinished.append {nodes : List TreeNode} {node : TreeNode} (hu : Unfinished nodes)
    (hn : Unfinished [node]) : Unfinished (nodes ++ [node]) := by
  intro x hx
  rcases List.mem_append.mp hx with h | h
  · exact hu x h
  · exact hn x h

/-- What a walk below one path leaves behind. -/
structure Added (name : String) (nodes : List TreeNode) (id : Nat) (nodes' : List TreeNode) :
    Prop where
  keeps : Keeps nodes nodes'
  arena : Arena nodes'
  unfinished : Unfinished nodes'
  named : ∃ node, nodes'[id]? = some node ∧ node.name = name

structure AddedAll (count : Nat) (nodes : List TreeNode) (children : List (Slot × Nat))
    (nodes' : List TreeNode) : Prop where
  keeps : Keeps nodes nodes'
  arena : Arena nodes'
  unfinished : Unfinished nodes'
  length : children.length = count
  fit : ∀ c ∈ children, ∃ child, nodes'[c.2]? = some child ∧ Slot.ofName child.name = .ok c.1

theorem entrySlot_eq_ok {path : Path} {name : Bytes} {s : String} {slot : Slot}
    (h : entrySlot path name = .ok (s, slot)) :
    Utf8.decode? name = some s ∧ Slot.ofName s = .ok slot := by
  unfold entrySlot at h
  split at h
  · contradiction
  · split at h
    · cases Except.ok.inj h
      exact ⟨‹_›, ‹_›⟩
    · contradiction
    · contradiction

theorem addEntries_added {add : Path → String → List TreeNode → Walk}
    (hadd : ∀ path name nodes id nodes', add path name nodes = .ok (id, nodes') →
      Arena nodes → Unfinished nodes → Added name nodes id nodes')
    {parent : Path} {names : List Bytes} {nodes nodes' : List TreeNode}
    {children : List (Slot × Nat)}
    (h : addEntries add parent names nodes = .ok (children, nodes'))
    (ha : Arena nodes) (hu : Unfinished nodes) : AddedAll names.length nodes children nodes' := by
  induction names generalizing nodes children with
  | nil =>
    cases Except.ok.inj h
    exact ⟨.refl _, ha, hu, rfl, by simp⟩
  | cons name names ih =>
    obtain ⟨⟨s, slot⟩, hslot, h⟩ := Except.bind_eq_ok_iff.mp h
    obtain ⟨⟨id, middle⟩, hfirst, h⟩ := Except.bind_eq_ok_iff.mp h
    obtain ⟨⟨rest, last⟩, hrest, h⟩ := Except.bind_eq_ok_iff.mp h
    cases Except.ok.inj h
    have first := hadd _ _ _ _ _ hfirst ha hu
    have later := ih hrest first.arena first.unfinished
    refine ⟨first.keeps.trans later.keeps, later.arena, later.unfinished, by simp [later.length], ?_⟩
    intro c hc
    rcases List.mem_cons.mp hc with rfl | hc
    · obtain ⟨node, hnode, hname⟩ := first.named
      obtain ⟨node', hnode', hname', -⟩ := later.keeps _ _ hnode
      exact ⟨node', hnode', by rw [hname', hname]; exact (entrySlot_eq_ok hslot).2⟩
    · exact later.fit c hc

theorem AddedAll.directory {count : Nat} {nodes nodes' : List TreeNode}
    {children : List (Slot × Nat)} (h : AddedAll count nodes children nodes') (hc : count ≤ 16)
    (name : String) (ids : List Nat) :
    Added name nodes nodes'.length
      (setParents nodes'.length ids nodes' ++ [⟨name, .directory children, none, none⟩]) := by
  have hk := keeps_setParents nodes'.length ids nodes'
  have hfits : Fits (setParents nodes'.length ids nodes') (setParents nodes'.length ids nodes').length
      ⟨name, .directory children, none, none⟩ := by
    refine ⟨by rw [h.length]; exact hc, fun c hmem => ?_⟩
    obtain ⟨child, hchild, hslot⟩ := h.fit c hmem
    obtain ⟨child', hchild', hname, -⟩ := hk _ _ hchild
    rw [length_setParents]
    exact ⟨(List.getElem?_eq_some_iff.mp hchild).1, child', hchild', hname ▸ hslot⟩
  exact {
    keeps := (h.keeps.trans hk).trans (.append _ _)
    arena := (h.arena.setParents _ _).append hfits
    unfinished := (h.unfinished.setParents _ _).append (by simp [Unfinished])
    named := ⟨_, by rw [List.getElem?_append_right (by simp)]; simp; rfl, rfl⟩ }

theorem added_chunk {nodes : List TreeNode} (ha : Arena nodes) (hu : Unfinished nodes)
    (name : String) (path : Path) (h : Digest) :
    Added name nodes nodes.length (nodes ++ [⟨name, .chunk path 0, none, some h⟩]) where
  keeps := .append _ _
  arena := ha.append rfl
  unfinished := hu.append (by simp [Unfinished])
  named := ⟨_, by rw [List.getElem?_append_right (Nat.le_refl _)]; simp; rfl, rfl⟩

theorem addNode_added {d : Disk} {room : Nat} {path : Path} {name : String}
    {nodes nodes' : List TreeNode} {id : Nat} (h : addNode d room path name nodes = .ok (id, nodes'))
    (ha : Arena nodes) (hu : Unfinished nodes) : Added name nodes id nodes' := by
  induction room generalizing path name nodes nodes' id with
  | zero => contradiction
  | succ room ih =>
    unfold addNode at h
    obtain ⟨stat, -, h⟩ := Except.bind_eq_ok_iff.mp h
    split at h
    · obtain ⟨names, -, h⟩ := Except.bind_eq_ok_iff.mp h
      dsimp only at h
      split at h
      · contradiction
      · rename_i hcount
        obtain ⟨⟨children, middle⟩, hentries, h⟩ := Except.bind_eq_ok_iff.mp h
        cases Except.ok.inj h
        have entries := addEntries_added (fun _ _ _ _ _ h => ih h) hentries ha hu
        exact entries.directory (by omega) name _
    · split at h
      · contradiction
      · obtain ⟨data, -, h⟩ := Except.bind_eq_ok_iff.mp h
        cases Except.ok.inj h
        exact added_chunk ha hu name path _

/-- The nodes of a walk are in order, and its chunks are the nodes that have a hash. -/
theorem walk_arena {d : Disk} {path : Path} {t : PublishedTree} (h : walk d path = .ok t) :
    Arena t.nodes ∧ Unfinished t.nodes ∧ t.root < t.nodes.length := by
  obtain ⟨⟨root, nodes⟩, hadd, h⟩ := Except.bind_eq_ok_iff.mp h
  cases Except.ok.inj h
  have added := addNode_added hadd (by simp [Arena]) (by simp [Unfinished])
  obtain ⟨node, hnode, -⟩ := added.named
  exact ⟨added.arena, added.unfinished, (List.getElem?_eq_some_iff.mp hnode).1⟩

end TreeShare.PublishedTree
