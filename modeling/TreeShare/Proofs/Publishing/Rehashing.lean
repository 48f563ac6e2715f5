import TreeShare.Proofs.Publishing.Made

/-! Computing hashes once, and then again. After a walk the missing hashes are those of the directories; they
are all found without a look at the disk, and once they are there nothing changes any more. Main statement:
`hashes_settle`. -/
namespace TreeShare

def TreeNode.isDirectory (n : TreeNode) : Bool :=
  match n.body with
  | .chunk .. => false
  | .directory _ => true

namespace PublishedTree

variable {d : Disk} {ids : List Nat} {count : Nat} {nodes nodes' : List TreeNode}

def missing (nodes : List TreeNode) : Nat := nodes.countP (·.hash.isNone)

theorem missing_set {id : Nat} {node : TreeNode} (hn : nodes[id]? = some node)
    (hnone : node.hash = none) (h : Digest) :
    missing (nodes.set id { node with hash := some h }) + 1 = missing nodes := by
  obtain ⟨hlt, hget⟩ := List.getElem?_eq_some_iff.mp hn
  have hpos : 0 < missing nodes :=
    List.countP_pos_iff.mpr ⟨node, List.mem_of_getElem? hn, by rw [hnone]; rfl⟩
  unfold missing at hpos ⊢
  rw [List.countP_set hlt, hget, hnone]
  simp only [Option.isNone_none, Option.isNone_some, if_true, Bool.false_eq_true, if_false]
  omega

theorem missing_of_fillHashes (h : fillHashes d ids nodes = .ok (count, nodes')) :
    count + missing nodes' = missing nodes := by
  induction ids generalizing nodes count with
  | nil =>
    cases Except.ok.inj h
    exact Nat.zero_add _
  | cons id ids ih =>
    unfold fillHashes at h
    split at h
    · exact ih h
    · rename_i node hn
      split at h
      · exact ih h
      · rename_i hsome
        obtain ⟨x, -, h⟩ := Except.bind_eq_ok_iff.mp h
        obtain ⟨⟨rest, last⟩, hrest, h⟩ := Except.bind_eq_ok_iff.mp h
        cases Except.ok.inj h
        have hnone : node.hash = none := by simpa using hsome
        have hset := missing_set hn hnone x
        have hlater := ih hrest
        omega

theorem getElem?_of_fillHashes (h : fillHashes d ids nodes = .ok (count, nodes')) {id : Nat}
    {node : TreeNode} (hn : nodes[id]? = some node) :
    ∃ hash, nodes'[id]? = some { node with hash } ∧ (node.hash.isSome → hash = node.hash) := by
  induction ids generalizing nodes count node with
  | nil =>
    cases Except.ok.inj h
    exact ⟨node.hash, hn, fun _ => rfl⟩
  | cons i ids ih =>
    unfold fillHashes at h
    split at h
    · exact ih h hn
    · rename_i found hfound
      split at h
      · exact ih h hn
      · rename_i hsome
        obtain ⟨x, -, h⟩ := Except.bind_eq_ok_iff.mp h
        obtain ⟨⟨rest, last⟩, hrest, h⟩ := Except.bind_eq_ok_iff.mp h
        cases Except.ok.inj h
        rcases Decidable.em (i = id) with rfl | hne
        · cases Option.some.inj (hn.symm.trans hfound)
          have hset := List.getElem?_set_self (a := { node with hash := some x })
            (List.getElem?_eq_some_iff.mp hn).1
          obtain ⟨hash, hlast, -⟩ := ih hrest hset
          exact ⟨hash, hlast, fun h => absurd h hsome⟩
        · exact ih hrest ((List.getElem?_set_ne hne).trans hn)

theorem isNone_hash_of_unfinished (hu : Unfinished nodes) {node : TreeNode} (hn : node ∈ nodes) :
    node.hash.isNone = node.isDirectory := by
  have h := hu node hn
  unfold TreeNode.isDirectory
  split at h
  · simp [*]
  · simp [*]

theorem missing_of_unfinished (hu : Unfinished nodes) :
    missing nodes = nodes.countP TreeNode.isDirectory :=
  List.countP_congr fun node hn => by rw [isNone_hash_of_unfinished hu hn]

theorem missing_of_hashed (hh : Hashed nodes) : missing nodes = 0 := by
  refine List.countP_eq_zero.mpr fun node hnode => ?_
  obtain ⟨x, hx, -⟩ := hh node hnode
  simp [hx]

theorem computeHashes_eq_ok {t t' : PublishedTree} (h : t.computeHashes d = .ok (count, t')) :
    ∃ nodes, fillHashes d (List.range t.nodes.length) t.nodes = .ok (count, nodes) ∧
      t' = { t with nodes, index := indexFrom 0 nodes .empty } := by
  obtain ⟨⟨filled, nodes⟩, hfill, h⟩ := Except.bind_eq_ok_iff.mp h
  cases Except.ok.inj h
  exact ⟨nodes, hfill, rfl⟩

/-- Computes the hashes again and again, with the disk as it is each time. -/
def computeInTurn (t : PublishedTree) : List Disk → Except PublishError (List Nat × PublishedTree)
  | [] => .ok ([], t)
  | d :: later => do
    let (count, t) ← t.computeHashes d
    let (counts, t) ← t.computeInTurn later
    pure (count :: counts, t)

theorem computeInTurn_of_fixed {t : PublishedTree} (h : ∀ d, t.computeHashes d = .ok (0, t))
    (later : List Disk) : t.computeInTurn later = .ok (later.map fun _ => 0, t) := by
  induction later with
  | nil => rfl
  | cons d later ih =>
    unfold computeInTurn
    simp only [h d, Except.bind_ok, ih]
    rfl

theorem computeHashes_of_hashed {t : PublishedTree} (hh : Hashed t.nodes)
    (hindex : t.index = indexFrom 0 t.nodes .empty) (d : Disk) : t.computeHashes d = .ok (0, t) := by
  unfold computeHashes
  simp only [fillHashes_of_hashed d hh, Except.bind_ok, ← hindex]
  rfl

/-- After a walk, and whatever is on the disk by then, the first pass gives every directory its hash and
counts them, leaves the chunks as they were, and makes the index exact. No later pass finds anything to
do. -/
theorem hashes_settle {path : Path} {t : PublishedTree} (h : walk d path = .ok t) (now : Disk) :
    ∃ t', t.computeHashes now = .ok (t.nodes.countP TreeNode.isDirectory, t') ∧
      t'.root = t.root ∧ t'.nodes.length = t.nodes.length ∧ Hashed t'.nodes ∧
      (∀ (id : Nat) (node : TreeNode), t.nodes[id]? = some node →
        (∃ x, t'.nodes[id]? = some { node with hash := some x }) ∧
          (node.isDirectory = false → t'.nodes[id]? = some node)) ∧
      (∀ x id, t'.lookup? x = some id ↔ IsLastWith t'.nodes x id) ∧
      (∀ x, t'.lookup? x = none ↔ ∀ node ∈ t'.nodes, node.hash ≠ some x) ∧
      ∀ later, t'.computeInTurn later = .ok (later.map fun _ => 0, t') := by
  obtain ⟨-, hu, -⟩ := walk_arena h
  obtain ⟨count, t', hcompute, hc, hroot, hlen, -⟩ := computeHashes_complete h now
  obtain ⟨nodes, hfill, rfl⟩ := computeHashes_eq_ok hcompute
  have hcount : count = t.nodes.countP TreeNode.isDirectory := by
    have hmissing := missing_of_fillHashes hfill
    rwa [missing_of_hashed hc.hashed, missing_of_unfinished hu] at hmissing
  refine ⟨_, hcount ▸ hcompute, hroot, hlen, hc.hashed, fun id node hn => ?_,
    fun x id => hc.lookup?_eq_some_iff, fun x => hc.lookup?_eq_none_iff,
    computeInTurn_of_fixed (computeHashes_of_hashed hc.hashed rfl)⟩
  obtain ⟨hash, hfilled, hkeep⟩ := getElem?_of_fillHashes hfill hn
  obtain ⟨x, hx, -⟩ := hc.hashed _ (List.mem_of_getElem? hfilled)
  refine ⟨⟨x, hx ▸ hfilled⟩, fun hchunk => ?_⟩
  have hnone := isNone_hash_of_unfinished hu (List.mem_of_getElem? hn)
  rw [hchunk, Option.isNone_eq_false_iff] at hnone
  rwa [hkeep hnone] at hfilled

/-- A directory with one file, which is gone when the hashes are computed and is back when they are
computed again. -/
theorem hashes_settle_of_lost_file :
    let d : Disk := ⟨⟨[([[0x64]], .directory), ([[0x64], [0x61]], .file [7] 0o644)]⟩⟩
    ∃ t t', walk d ⟨[0x64]⟩ = .ok t ∧ t.computeHashes .empty = .ok (1, t') ∧
      t'.computeInTurn [d, .empty] = .ok ([0, 0], t') := by
  intro d
  let t : PublishedTree :=
    ⟨[⟨"a", .chunk ⟨[0x64, 0x2f, 0x61]⟩ 0, some 1, some (Datum.hashOf .chunk [7])⟩,
      ⟨"d", .directory [(Bytes.padded 32 [0x61], 0)], none, none⟩], 1, .empty⟩
  have hwalk : walk d ⟨[0x64]⟩ = .ok t := by rfl
  obtain ⟨t', hfirst, -, -, -, -, -, -, hlater⟩ := hashes_settle hwalk .empty
  exact ⟨t, t', hwalk, hfirst, hlater [d, .empty]⟩

end PublishedTree
end TreeShare
