import TreeShare.Proofs.Publishing.Arena

/-! The hashes of a tree and its index. Computing them after a walk cannot fail, whatever the disk holds
by then, and the index finds the last node of each hash. -/
namespace TreeShare.PublishedTree

/-- A node has a hash; a directory's is that of its slots and its children's hashes. -/
def HashedAt (nodes : List TreeNode) (node : TreeNode) : Prop :=
  ∃ h, node.hash = some h ∧
    match node.body with
    | .chunk .. => True
    | .directory children =>
      ∃ payload, directoryPayload nodes children = .ok payload ∧ h = Datum.hashOf .directory payload

def Hashed (nodes : List TreeNode) : Prop := ∀ node ∈ nodes, HashedAt nodes node

/-- The state of the pass over the nodes: it is done with those before `k`. -/
def HashedBelow (k : Nat) (nodes : List TreeNode) : Prop :=
  ∀ (id : Nat) (node : TreeNode), nodes[id]? = some node →
    if id < k then HashedAt nodes node else Unfinished [node]

theorem Unfinished.hashedBelow {nodes : List TreeNode} (hu : Unfinished nodes) :
    HashedBelow 0 nodes := by
  intro id node h
  rw [if_neg (Nat.not_lt_zero id)]
  intro x hx
  cases List.mem_singleton.mp hx
  exact hu node (List.mem_of_getElem? h)

theorem directory_of_unfinished {node : TreeNode} (hu : Unfinished [node])
    (hnone : node.hash = none) : ∃ children, node.body = .directory children := by
  have h := hu node (by simp)
  split at h
  · simp [hnone] at h
  · exact ⟨_, ‹_›⟩

theorem hashOf_eq_ok_iff {nodes : List TreeNode} {id : Nat} {h : Digest} :
    hashOf nodes id = .ok h ↔ ∃ node, nodes[id]? = some node ∧ node.hash = some h := by
  unfold hashOf
  cases nodes[id]? with
  | none => simp
  | some node => cases hn : node.hash <;> simp [hn]

theorem hashOf_keeps {nodes nodes' : List TreeNode} (hk : Keeps nodes nodes') {id : Nat}
    {h : Digest} (hh : hashOf nodes id = .ok h) : hashOf nodes' id = .ok h := by
  obtain ⟨node, hnode, hhash⟩ := hashOf_eq_ok_iff.mp hh
  obtain ⟨node', hnode', -, -, hkeep⟩ := hk id node hnode
  exact hashOf_eq_ok_iff.mpr ⟨node', hnode', hkeep h hhash⟩

theorem directoryPayload_keeps {nodes nodes' : List TreeNode} (hk : Keeps nodes nodes')
    {children : List (Slot × Nat)} {payload : Bytes}
    (h : directoryPayload nodes children = .ok payload) :
    directoryPayload nodes' children = .ok payload := by
  induction children generalizing payload with
  | nil => exact h
  | cons c children ih =>
    obtain ⟨x, hx, h⟩ := Except.bind_eq_ok_iff.mp h
    obtain ⟨rest, hrest, h⟩ := Except.bind_eq_ok_iff.mp h
    cases Except.ok.inj h
    unfold directoryPayload
    rw [hashOf_keeps hk hx, ih hrest]
    rfl

theorem directoryPayload_ok {nodes : List TreeNode} {children : List (Slot × Nat)}
    (h : ∀ c ∈ children, ∃ x, hashOf nodes c.2 = .ok x) :
    ∃ payload, directoryPayload nodes children = .ok payload := by
  induction children with
  | nil => exact ⟨[], rfl⟩
  | cons c children ih =>
    obtain ⟨x, hx⟩ := h c (by simp)
    obtain ⟨rest, hrest⟩ := ih fun c hc => h c (by simp [hc])
    exact ⟨c.1.toList ++ x.toList ++ rest, by unfold directoryPayload; rw [hx, hrest]; rfl⟩

theorem HashedAt.keeps {nodes nodes' : List TreeNode} (hk : Keeps nodes nodes')
    {node node' : TreeNode} (hbody : node'.body = node.body)
    (hhash : ∀ h, node.hash = some h → node'.hash = some h) (h : HashedAt nodes node) :
    HashedAt nodes' node' := by
  obtain ⟨x, hx, h⟩ := h
  refine ⟨x, hhash x hx, ?_⟩
  rw [hbody]
  split at h
  · trivial
  · obtain ⟨payload, hp, rfl⟩ := h
    exact ⟨payload, directoryPayload_keeps hk hp, rfl⟩

theorem keeps_set {nodes : List TreeNode} {id : Nat} {node : TreeNode} (hn : nodes[id]? = some node)
    (hnone : node.hash = none) (h : Digest) :
    Keeps nodes (nodes.set id { node with hash := some h }) := by
  intro i x hx
  rcases Decidable.em (id = i) with rfl | hne
  · cases Option.some.inj (hn.symm.trans hx)
    have hlt := (List.getElem?_eq_some_iff.mp hn).1
    exact ⟨_, List.getElem?_set_self hlt, rfl, rfl, by simp [hnone]⟩
  · exact ⟨x, by rw [List.getElem?_set_ne hne, hx], rfl, rfl, fun _ hx => hx⟩

theorem Arena.set {nodes : List TreeNode} (ha : Arena nodes) {id : Nat} {node : TreeNode}
    (hn : nodes[id]? = some node) (hnone : node.hash = none) (h : Digest) :
    Arena (nodes.set id { node with hash := some h }) := by
  intro i x hx
  have hk := keeps_set hn hnone h
  rcases Decidable.em (id = i) with rfl | hne
  · rw [List.getElem?_set_self (List.getElem?_eq_some_iff.mp hn).1] at hx
    cases Option.some.inj hx
    exact (ha id node hn).mono hk rfl
  · rw [List.getElem?_set_ne hne] at hx
    exact (ha i x hx).mono hk rfl

theorem HashedBelow.set {nodes : List TreeNode} {id : Nat} {node : TreeNode}
    (hb : HashedBelow id nodes) (hn : nodes[id]? = some node) (hnone : node.hash = none)
    {children : List (Slot × Nat)} (hbody : node.body = .directory children) {payload : Bytes}
    (hp : directoryPayload nodes children = .ok payload) :
    HashedBelow (id + 1)
      (nodes.set id { node with hash := some (Datum.hashOf .directory payload) }) := by
  intro i x hx
  have hk := keeps_set hn hnone (Datum.hashOf .directory payload)
  rcases Nat.lt_trichotomy i id with hlt | rfl | hgt
  · rw [List.getElem?_set_ne (by omega)] at hx
    have hi := hb i x hx
    rw [if_pos hlt] at hi
    rw [if_pos (by omega)]
    exact hi.keeps hk rfl fun _ hx => hx
  · rw [List.getElem?_set_self (List.getElem?_eq_some_iff.mp hn).1] at hx
    cases Option.some.inj hx
    rw [if_pos (by omega)]
    refine ⟨_, rfl, ?_⟩
    dsimp only
    split
    · trivial
    · cases TreeNodeBody.directory.inj (hbody.symm.trans ‹node.body = _›)
      exact ⟨payload, directoryPayload_keeps hk hp, rfl⟩
  · rw [List.getElem?_set_ne (by omega)] at hx
    have hi := hb i x hx
    rw [if_neg (by omega)] at hi
    rw [if_neg (by omega)]
    exact hi

theorem HashedBelow.skip {nodes : List TreeNode} {id : Nat} {node : TreeNode}
    (hb : HashedBelow id nodes) (hn : nodes[id]? = some node) (hsome : node.hash.isSome) :
    HashedBelow (id + 1) nodes := by
  intro i x hx
  have hi := hb i x hx
  rcases Nat.lt_trichotomy i id with hlt | rfl | hgt
  · rw [if_pos hlt] at hi
    rw [if_pos (by omega)]
    exact hi
  · cases Option.some.inj (hn.symm.trans hx)
    rw [if_neg (by omega)] at hi
    rw [if_pos (by omega)]
    obtain ⟨h, hh⟩ := Option.isSome_iff_exists.mp hsome
    have hchunk := hi node (by simp)
    refine ⟨h, hh, ?_⟩
    split at hchunk
    · simp [*]
    · rw [hchunk] at hh
      contradiction
  · rw [if_neg (by omega)] at hi
    rw [if_neg (by omega)]
    exact hi

theorem children_hashed {nodes : List TreeNode} {id : Nat} {node : TreeNode} (ha : Arena nodes)
    (hb : HashedBelow id nodes) (hn : nodes[id]? = some node) {children : List (Slot × Nat)}
    (hbody : node.body = .directory children) : ∀ c ∈ children, ∃ x, hashOf nodes c.2 = .ok x := by
  intro c hc
  have hfits := ha id node hn
  unfold Fits at hfits
  rw [hbody] at hfits
  obtain ⟨hlt, child, hchild, -⟩ := hfits.2 c hc
  have := hb c.2 child hchild
  rw [if_pos hlt] at this
  obtain ⟨x, hx, -⟩ := this
  exact ⟨x, hashOf_eq_ok_iff.mpr ⟨child, hchild, hx⟩⟩

/-- The pass never fails: children have their hash when their directory is reached, and no chunk is
read. -/
theorem fillHashes_ok (d : Disk) {start count : Nat} {nodes : List TreeNode}
    (hlen : start + count = nodes.length) (ha : Arena nodes) (hb : HashedBelow start nodes) :
    ∃ filled nodes', fillHashes d (List.range' start count) nodes = .ok (filled, nodes') ∧
      Keeps nodes nodes' ∧ nodes'.length = nodes.length ∧ Arena nodes' ∧
        HashedBelow nodes.length nodes' := by
  induction count generalizing start nodes with
  | zero => exact ⟨0, nodes, rfl, .refl _, rfl, ha, by rw [← hlen]; exact hb⟩
  | succ count ih =>
    have hlt : start < nodes.length := by omega
    obtain ⟨node, hn⟩ : ∃ node, nodes[start]? = some node := ⟨_, List.getElem?_eq_getElem hlt⟩
    rw [List.range'_succ]
    unfold fillHashes
    simp only [hn]
    by_cases hsome : node.hash.isSome
    · simp only [hsome, if_true]
      exact ih (by omega) ha (hb.skip hn hsome)
    · have hnone : node.hash = none := by simpa using hsome
      have hat := hb start node hn
      rw [if_neg (Nat.lt_irrefl start)] at hat
      obtain ⟨children, hbody⟩ := directory_of_unfinished hat hnone
      obtain ⟨payload, hp⟩ := directoryPayload_ok (children_hashed ha hb hn hbody)
      let h := Datum.hashOf .directory payload
      have hcompute : computeHash d nodes node.body = .ok h := by
        simp [hbody, computeHash, hp, Except.map, h]
      have hk := keeps_set hn hnone h
      obtain ⟨filled, nodes', hfill, hkeeps, hlen', ha', hb'⟩ :=
        ih (by rw [List.length_set]; omega) (ha.set hn hnone h) (hb.set hn hnone hbody hp)
      rw [List.length_set] at hlen' hb'
      refine ⟨filled + 1, nodes', ?_, hk.trans hkeeps, hlen', ha', hb'⟩
      rw [if_neg hsome, hcompute, Except.bind_ok, hfill]
      rfl

def IsLastWith (nodes : List TreeNode) (h : Digest) (id : Nat) : Prop :=
  (∃ node, nodes[id]? = some node ∧ node.hash = some h) ∧
    ∀ (later : Nat) (node : TreeNode), id < later → nodes[later]? = some node →
      node.hash ≠ some h

theorem get?_indexFrom_of_absent {h : Digest} {nodes : List TreeNode}
    (hn : ∀ node ∈ nodes, node.hash ≠ some h) (start : Nat) (t : Table Digest Nat) :
    (indexFrom start nodes t).get? h = t.get? h := by
  induction nodes generalizing start t with
  | nil => rfl
  | cons node nodes ih =>
    unfold indexFrom
    rw [ih fun x hx => hn x (by simp [hx])]
    have hnode := hn node (by simp)
    split
    · rename_i x hx
      rw [Table.get?_set, if_neg (by rintro rfl; exact hnode hx)]
    · rfl

theorem get?_indexFrom_of_last {h : Digest} {nodes : List TreeNode} {id : Nat}
    (hl : IsLastWith nodes h id) (start : Nat) (t : Table Digest Nat) :
    (indexFrom start nodes t).get? h = some (start + id) := by
  induction nodes generalizing start t id with
  | nil => simp [IsLastWith] at hl
  | cons node nodes ih =>
    obtain ⟨⟨x, hx, hhash⟩, hlater⟩ := hl
    unfold indexFrom
    cases id with
    | zero =>
      cases Option.some.inj hx
      rw [get?_indexFrom_of_absent, hhash]
      · simp
      · intro y hy
        obtain ⟨i, hi⟩ := List.getElem?_of_mem hy
        exact hlater (i + 1) y (by omega) (by simpa using hi)
    | succ id =>
      have hrest : IsLastWith nodes h id :=
        ⟨⟨x, by simpa using hx, hhash⟩, fun later y hlt hy =>
          hlater (later + 1) y (by omega) (by simpa using hy)⟩
      rw [ih hrest, Nat.add_right_comm, Nat.add_assoc]

theorem exists_isLastWith {nodes : List TreeNode} {h : Digest}
    (hn : ∃ node ∈ nodes, node.hash = some h) : ∃ id, IsLastWith nodes h id := by
  induction nodes with
  | nil => simp at hn
  | cons node nodes ih =>
    by_cases hrest : ∃ x ∈ nodes, x.hash = some h
    · obtain ⟨id, ⟨x, hx, hhash⟩, hlater⟩ := ih hrest
      refine ⟨id + 1, ⟨x, by simpa using hx, hhash⟩, fun later y hlt hy => ?_⟩
      obtain ⟨later, rfl⟩ : ∃ k, later = k + 1 := ⟨later - 1, by omega⟩
      exact hlater later y (by omega) (by simpa using hy)
    · obtain ⟨x, hx, hhash⟩ := hn
      rcases List.mem_cons.mp hx with rfl | hx
      · refine ⟨0, ⟨x, rfl, hhash⟩, fun later y hlt hy hyh => hrest ⟨y, ?_, hyh⟩⟩
        obtain ⟨later, rfl⟩ : ∃ k, later = k + 1 := ⟨later - 1, by omega⟩
        exact List.mem_of_getElem? (by simpa using hy)
      · exact absurd ⟨x, hx, hhash⟩ hrest

/-- A tree that has all its hashes, and whose index finds the last node of each. -/
structure Complete (t : PublishedTree) : Prop where
  arena : Arena t.nodes
  hashed : Hashed t.nodes
  root : t.root < t.nodes.length
  lookup : ∀ h id, IsLastWith t.nodes h id → t.lookup? h = some id
  absent : ∀ h, (∀ node ∈ t.nodes, node.hash ≠ some h) → t.lookup? h = none

theorem complete_of_hashed {t : PublishedTree} (ha : Arena t.nodes) (hh : Hashed t.nodes)
    (hroot : t.root < t.nodes.length) :
    Complete { t with index := indexFrom 0 t.nodes .empty } := by
  refine ⟨ha, hh, hroot, fun x id hl => ?_, fun x hx => ?_⟩
  · have := get?_indexFrom_of_last hl 0 .empty
    rwa [Nat.zero_add] at this
  · exact get?_indexFrom_of_absent hx 0 .empty

/-- Computing the hashes of a walked tree always ends well, whatever is on the disk by then, and leaves
its nodes where they are. -/
theorem computeHashes_complete {d : Disk} {path : Path} {t : PublishedTree}
    (h : walk d path = .ok t) (d' : Disk) :
    ∃ filled t', t.computeHashes d' = .ok (filled, t') ∧ t'.Complete ∧ t'.root = t.root ∧
      t'.nodes.length = t.nodes.length ∧ Keeps t.nodes t'.nodes := by
  obtain ⟨ha, hu, hroot⟩ := walk_arena h
  obtain ⟨filled, nodes', hfill, hkeeps, hlen, ha', hb⟩ :=
    fillHashes_ok d' (Nat.zero_add _) ha hu.hashedBelow
  have hh : Hashed nodes' := by
    intro node hnode
    obtain ⟨id, hid⟩ := List.getElem?_of_mem hnode
    have := hb id node hid
    rwa [if_pos (hlen ▸ (List.getElem?_eq_some_iff.mp hid).1)] at this
  refine ⟨filled, { t with nodes := nodes', index := indexFrom 0 nodes' .empty }, ?_, ?_, rfl, hlen,
    hkeeps⟩
  · unfold computeHashes
    rw [List.range_eq_range', hfill]
    rfl
  · exact complete_of_hashed (t := { t with nodes := nodes' }) ha' hh (hlen ▸ hroot)

theorem build_complete {d : Disk} {path : Path} {t : PublishedTree} (h : build d path = .ok t) :
    t.Complete := by
  obtain ⟨walked, hwalk, h⟩ := Except.bind_eq_ok_iff.mp h
  obtain ⟨filled, t', hcompute, hcomplete, -⟩ := computeHashes_complete hwalk d
  rw [hcompute] at h
  cases Except.ok.inj h
  exact hcomplete

theorem Complete.rootHash?_eq_some {t : PublishedTree} (h : t.Complete) :
    ∃ x, t.rootHash? = some x := by
  have hn := List.getElem?_eq_getElem h.root
  obtain ⟨x, hx, -⟩ := h.hashed _ (List.mem_of_getElem? hn)
  exact ⟨x, by unfold rootHash?; rw [hn]; exact hx⟩

theorem Complete.lookup?_eq_none_iff {t : PublishedTree} (hc : t.Complete) {h : Digest} :
    t.lookup? h = none ↔ ∀ node ∈ t.nodes, node.hash ≠ some h := by
  refine ⟨fun hnone node hnode hhash => ?_, hc.absent h⟩
  obtain ⟨id, hl⟩ := exists_isLastWith ⟨node, hnode, hhash⟩
  rw [hc.lookup h id hl] at hnone
  contradiction

theorem Complete.lookup?_eq_some_iff {t : PublishedTree} (hc : t.Complete) {h : Digest} {id : Nat} :
    t.lookup? h = some id ↔ IsLastWith t.nodes h id := by
  refine ⟨fun hl => ?_, hc.lookup h id⟩
  by_cases hfound : ∃ node ∈ t.nodes, node.hash = some h
  · obtain ⟨last, hlast⟩ := exists_isLastWith hfound
    cases Option.some.inj (hl.symm.trans (hc.lookup h last hlast))
    exact hlast
  · rw [hc.absent h fun node hnode hhash => hfound ⟨node, hnode, hhash⟩] at hl
    contradiction

end TreeShare.PublishedTree
