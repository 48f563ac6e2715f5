import TreeShare.Proofs.Files.Links
import TreeShare.Proofs.Publishing.Content

/-! Walks around cycles of links. A walk calls itself for the entries of a directory only, and these are
nested to a bounded depth. Where it comes to a directory again that it is still in, it finds there what it
found before until no more links are followed, and the error that it meets then is the one it ends with.
Main statement: `cycles_end`. -/
namespace TreeShare.PublishedTree

variable {d : Disk} {path : Path}

abbrev Adding := Path → String → List TreeNode → Walk

/-- One call of the walk. The calls for the entries are left to another function. -/
def visit (d : Disk) (add : Adding) : Adding := fun path name nodes => do
  let stat ← (d.stat path).mapError (.file path)
  if stat.isDirectory then
    let names := Bytes.inOrder (← (d.list path).mapError (.file path))
    if names.length > 16 then .error (.tooManyEntries path names.length)
    else
      let (children, nodes) ← addEntries add path names nodes
      let id := nodes.length
      pure (id, setParents id (children.map Prod.snd) nodes ++ [⟨name, .directory children, none, none⟩])
  else if stat.size > 1024 then .error (.notImplemented path)
  else
    let data ← d.readChunk path 0
    pure (nodes.length, nodes ++ [⟨name, .chunk path 0, none, some (Datum.hashOf .chunk data)⟩])

theorem addNode_succ (d : Disk) (room : Nat) : addNode d (room + 1) = visit d (addNode d room) := rfl

theorem visit_eq (add : Adding) (path : Path) (name : String) (nodes : List TreeNode) :
    visit d add path name nodes =
      match d.resolve path with
      | .error e => .error (.file path e)
      | .ok loc =>
        match d.object? loc with
        | some (.file data _) =>
          if data.length > 1024 then .error (.notImplemented path)
          else .ok (nodes.length,
            nodes ++ [⟨name, .chunk path 0, none, some (Datum.hashOf .chunk data)⟩])
        | some .directory =>
          if (d.namesIn loc).length > 16 then .error (.tooManyEntries path (d.namesIn loc).length)
          else (addEntries add path (Bytes.inOrder (d.namesIn loc)) nodes).map fun r =>
            (r.2.length, setParents r.2.length (r.1.map Prod.snd) r.2 ++
              [⟨name, .directory r.1, none, none⟩])
        | _ => .error (.file path .notFound) := by
  unfold visit
  cases hresolve : d.resolve path with
  | error e =>
    have hstat : d.stat path = .error e := by
      unfold Disk.stat
      rw [hresolve]
      rfl
    rw [hstat]
    rfl
  | ok loc =>
    dsimp only
    cases hobject : d.object? loc with
    | none =>
      have hstat : d.stat path = .error .notFound := by
        unfold Disk.stat
        rw [hresolve, Except.bind_ok, hobject]
      rw [hstat]
      rfl
    | some o =>
      cases o with
      | link target =>
        have hstat : d.stat path = .error .notFound := by
          unfold Disk.stat
          rw [hresolve, Except.bind_ok, hobject]
        rw [hstat]
        rfl
      | file data mode =>
        have hread : d.read path = .ok data := Disk.read_eq_ok_iff.mpr ⟨loc, mode, hresolve, hobject⟩
        obtain ⟨mode', hstat⟩ := Disk.stat_of_read hread
        simp only [hstat, Except.mapError_ok, Except.bind_ok, if_neg Bool.false_ne_true]
        split
        · rfl
        · rw [Disk.readChunk_eq_ok_iff.mpr ⟨hread, by omega⟩]
          rfl
      | directory =>
        have hlist : d.list path = .ok (d.namesIn loc) :=
          Disk.list_eq_ok_iff.mpr ⟨loc, hresolve, hobject, rfl⟩
        simp only [Disk.stat_of_list hlist, hlist, Except.mapError_ok, Except.bind_ok, if_true,
          (Bytes.inOrder_perm _).length_eq]
        split
        · rfl
        · cases addEntries add path (Bytes.inOrder (d.namesIn loc)) nodes <;> rfl

theorem addEntries_congr {add add' : Adding} {parent : Path} {names : List Bytes}
    (h : ∀ name ∈ names, add (parent.join ⟨name⟩) = add' (parent.join ⟨name⟩))
    (nodes : List TreeNode) : addEntries add parent names nodes = addEntries add' parent names nodes := by
  induction names generalizing nodes with
  | nil => rfl
  | cons name names ih =>
    rw [List.forall_mem_cons] at h
    unfold addEntries
    simp only [h.1, ih h.2]

theorem visit_congr {add add' : Adding} (h : ∀ q, d.Entry path q → add q = add' q) :
    visit d add path = visit d add' path := by
  funext name nodes
  rw [visit_eq, visit_eq]
  cases hresolve : d.resolve path with
  | error e => rfl
  | ok loc =>
    dsimp only
    cases hobject : d.object? loc with
    | none => rfl
    | some o =>
      cases o with
      | link => rfl
      | file => rfl
      | directory =>
        have hlist : d.list path = .ok (d.namesIn loc) :=
          Disk.list_eq_ok_iff.mpr ⟨loc, hresolve, hobject, rfl⟩
        dsimp only
        rw [addEntries_congr fun name hname =>
          h _ ⟨_, name, hlist, (Bytes.inOrder_perm _).mem_iff.mp hname, rfl⟩]

/-! The walk without a limit of its own. -/

/-- A function that calls itself for the entries, and for these as it was called. -/
def Recursive (d : Disk) (add : Adding) : Prop := ∀ path, add path = visit d add path

theorem Recursive.unique (hd : d.ProperlyNamed) {add add' : Adding} (h : Recursive d add)
    (h' : Recursive d add') : add = add' := by
  funext path
  induction path using Disk.entry_induction hd with
  | step path ih =>
    rw [h, h']
    exact visit_congr ih

def addAll (d : Disk) : Adding := fun path => addNode d (Disk.pathMax - path.bytes.length + 1) path

theorem addNode_of_room (hd : d.ProperlyNamed) {room : Nat}
    (hroom : Disk.pathMax - path.bytes.length < room) : addNode d room path = addAll d path := by
  induction room using Nat.strong_induction_on generalizing path with
  | _ room ih =>
    obtain ⟨room, rfl⟩ : ∃ k, room = k + 1 := ⟨room - 1, by omega⟩
    unfold addAll
    rw [addNode_succ, addNode_succ]
    apply visit_congr
    intro q hq
    have hshorter := hq.room_lt hd
    rw [ih room (Nat.lt_succ_self room) (by omega), ih (Disk.pathMax - path.bytes.length) hroom (by omega)]

theorem recursive_addAll (hd : d.ProperlyNamed) : Recursive d (addAll d) := by
  intro path
  unfold addAll
  rw [addNode_succ]
  apply visit_congr
  intro q hq
  have hshorter := hq.room_lt hd
  exact addNode_of_room hd (by omega)

theorem walk_eq_addAll (d : Disk) (path : Path) :
    walk d path = (addAll d path (rootName path) []).map fun r => ⟨r.2, r.1, .empty⟩ := by
  unfold walk addAll
  cases addNode d (Disk.pathMax - path.bytes.length + 1) path (rootName path) [] <;> rfl

/-! How many nodes a call adds, or the error it ends with: neither depends on the nodes that are there. -/

def tallyEntries (count : Path → Except PublishError Nat) (parent : Path) :
    List Bytes → Except PublishError Nat
  | [] => .ok 0
  | name :: names => do
    let _ ← entrySlot (parent.join ⟨name⟩) name
    let first ← count (parent.join ⟨name⟩)
    let rest ← tallyEntries count parent names
    pure (first + rest)

def tally (d : Disk) (count : Path → Except PublishError Nat) (path : Path) :
    Except PublishError Nat :=
  match d.resolve path with
  | .error e => .error (.file path e)
  | .ok loc =>
    match d.object? loc with
    | some (.file data _) => if data.length > 1024 then .error (.notImplemented path) else .ok 1
    | some .directory =>
      if (d.namesIn loc).length > 16 then .error (.tooManyEntries path (d.namesIn loc).length)
      else (tallyEntries count path (Bytes.inOrder (d.namesIn loc))).map (· + 1)
    | _ => .error (.file path .notFound)

def Counts (add : Adding) (count : Path → Except PublishError Nat) (path : Path) : Prop :=
  ∀ name nodes, (add path name nodes).map (·.2.length) = (count path).map (nodes.length + ·)

theorem counts_entries {add : Adding} {count : Path → Except PublishError Nat} {parent : Path}
    {names : List Bytes} (h : ∀ name ∈ names, Counts add count (parent.join ⟨name⟩))
    (nodes : List TreeNode) :
    (addEntries add parent names nodes).map (·.2.length) =
      (tallyEntries count parent names).map (nodes.length + ·) := by
  induction names generalizing nodes with
  | nil => rfl
  | cons name names ih =>
    rw [List.forall_mem_cons] at h
    unfold addEntries tallyEntries
    cases hslot : entrySlot (parent.join ⟨name⟩) name with
    | error e =>
      simp only [hslot, Except.bind_error]
      rfl
    | ok slot =>
      rcases Except.map_eq_map_iff.mp (h.1 slot.1 nodes) with
        ⟨e, hadd, hcount⟩ | ⟨r, first, hadd, hcount, hfirst⟩
      · simp only [hslot, Except.bind_ok, hadd, hcount, Except.bind_error]
        rfl
      rcases Except.map_eq_map_iff.mp (ih h.2 r.2) with
        ⟨e, hadds, hcounts⟩ | ⟨rs, rest, hadds, hcounts, hrest⟩
      · simp only [hslot, Except.bind_ok, hadd, hcount, hadds, hcounts, Except.bind_error]
        rfl
      · simp only [hslot, Except.bind_ok, hadd, hcount, hadds, hcounts]
        refine congrArg Except.ok ?_
        show rs.2.length = nodes.length + (first + rest)
        rw [hrest, hfirst, Nat.add_assoc]

theorem counts_visit {add : Adding} {count : Path → Except PublishError Nat}
    (h : ∀ q, d.Entry path q → Counts add count q) : Counts (visit d add) (tally d count) path := by
  intro name nodes
  rw [visit_eq]
  unfold tally
  cases hresolve : d.resolve path with
  | error e => rfl
  | ok loc =>
    dsimp only
    cases hobject : d.object? loc with
    | none => rfl
    | some o =>
      cases o with
      | link => rfl
      | file data =>
        dsimp only
        split
        · rfl
        · exact congrArg Except.ok (by simp)
      | directory =>
        have hlist : d.list path = .ok (d.namesIn loc) :=
          Disk.list_eq_ok_iff.mpr ⟨loc, hresolve, hobject, rfl⟩
        dsimp only
        split
        · rfl
        have hentries := counts_entries (fun name hname =>
          h _ ⟨_, name, hlist, (Bytes.inOrder_perm _).mem_iff.mp hname, rfl⟩) nodes
        rcases Except.map_eq_map_iff.mp hentries with
          ⟨e, hadd, hcount⟩ | ⟨r, k, hadd, hcount, hlength⟩
        · rw [hadd, hcount]
          rfl
        · rw [hadd, hcount]
          refine congrArg Except.ok ?_
          show (setParents _ _ r.2 ++ [_]).length = nodes.length + (k + 1)
          rw [List.length_append, length_setParents, hlength]
          rfl

/-- The number of nodes of the tree below a path, or the error that there is instead. -/
def size (d : Disk) (path : Path) : Except PublishError Nat := (addAll d path "" []).map (·.2.length)

theorem size_of_counts {count : Path → Except PublishError Nat} (h : Counts (addAll d) count path) :
    size d path = count path := by
  unfold size
  rw [h]
  cases count path with
  | error e => rfl
  | ok n => exact congrArg Except.ok (Nat.zero_add n)

theorem counts_size (hd : d.ProperlyNamed) (path : Path) : Counts (addAll d) (size d) path := by
  induction path using Disk.entry_induction hd with
  | step path ih =>
    have htally : Counts (addAll d) (tally d (size d)) path := by
      unfold Counts
      rw [recursive_addAll hd]
      exact counts_visit ih
    unfold Counts
    rw [size_of_counts htally]
    exact htally

theorem size_eq (hd : d.ProperlyNamed) (path : Path) : size d path = tally d (size d) path := by
  apply size_of_counts
  unfold Counts
  rw [recursive_addAll hd]
  exact counts_visit fun q _ => counts_size hd q

/-! The same directory further down. -/

inductive Exhausted : PublishError → Prop
  | links (path : Path) : Exhausted (.file path .tooManyLinks)
  | length (path : Path) : Exhausted (.file path .nameTooLong)

def pathLength : PublishError → Nat
  | .file path _ | .notImplemented path | .nameTooLong path | .badName path
  | .tooManyEntries path _ | .stale path => path.bytes.length
  | .unhashed _ | .badDatum _ => 0

/-- What is counted at one path is found again at the other: the same number, or an error that is about a
longer path; or the second path exhausts what can be resolved. -/
inductive Repeats : Except PublishError Nat → Except PublishError Nat → Prop
  | ok (n : Nat) : Repeats (.ok n) (.ok n)
  | error {e e' : PublishError} (longer : pathLength e < pathLength e') : Repeats (.error e) (.error e')
  | exhausted {r : Except PublishError Nat} {e : PublishError} (exhausted : Exhausted e) :
      Repeats r (.error e)

theorem Repeats.map {r r' : Except PublishError Nat} (h : Repeats r r') (f : Nat → Nat) :
    Repeats (r.map f) (r'.map f) := by
  cases h with
  | ok n => exact .ok (f n)
  | error hlonger => exact .error hlonger
  | exhausted hexhausted => exact .exhausted hexhausted

theorem Repeats.bind {r r' : Except PublishError Nat} (h : Repeats r r')
    {f g : Nat → Except PublishError Nat} (hfg : ∀ n, Repeats (f n) (g n)) :
    Repeats (r >>= f) (r' >>= g) := by
  cases h with
  | ok n => exact hfg n
  | error hlonger => exact .error hlonger
  | exhausted hexhausted => exact .exhausted hexhausted

theorem entrySlot_cases (p q : Path) (name : Bytes) :
    (∃ r, entrySlot p name = .ok r ∧ entrySlot q name = .ok r) ∨
      ∃ e e', entrySlot p name = .error e ∧ entrySlot q name = .error e' ∧
        pathLength e = p.bytes.length ∧ pathLength e' = q.bytes.length := by
  unfold entrySlot
  cases Utf8.decode? name with
  | none => exact .inr ⟨_, _, rfl, rfl, rfl, rfl⟩
  | some s =>
    dsimp only
    cases Slot.ofName s with
    | ok slot => exact .inl ⟨_, rfl, rfl⟩
    | error e => cases e <;> exact .inr ⟨_, _, rfl, rfl, rfl, rfl⟩

variable {p q : Path} {names : List Bytes} {count : Path → Except PublishError Nat}

theorem repeats_entries
    (h : ∀ name ∈ names, Repeats (count (p.join ⟨name⟩)) (count (q.join ⟨name⟩)))
    (hlonger : ∀ name ∈ names, (p.join ⟨name⟩).bytes.length < (q.join ⟨name⟩).bytes.length) :
    Repeats (tallyEntries count p names) (tallyEntries count q names) := by
  induction names with
  | nil => exact .ok 0
  | cons name names ih =>
    rw [List.forall_mem_cons] at h hlonger
    unfold tallyEntries
    rcases entrySlot_cases (p.join ⟨name⟩) (q.join ⟨name⟩) name with
      ⟨r, hp, hq⟩ | ⟨e, e', hp, hq, hlength, hlength'⟩
    · simp only [hp, hq, Except.bind_ok]
      exact h.1.bind fun first => (ih h.2 hlonger.2).bind fun rest => .ok _
    · simp only [hp, hq, Except.bind_error]
      exact .error (by rw [hlength, hlength']; exact hlonger.1)

theorem repeats_tally (hd : d.ProperlyNamed) (hpq : d.Farther p q)
    (h : ∀ p', d.Entry p p' → ∀ q', d.Farther p' q' → Repeats (count p') (count q')) :
    Repeats (tally d count p) (tally d count q) := by
  unfold tally
  rcases hpq.leads with hq | hq | ⟨e, hp, hq⟩ | ⟨loc, i, j, hij, hp, hq⟩
  · rw [hq]
    exact .exhausted (.links q)
  · rw [hq]
    exact .exhausted (.length q)
  · rw [hp, hq]
    exact .error hpq.longer
  have hresolve : d.resolve p = .ok loc := Disk.resolve_eq_ok_iff.mpr ⟨i, hp⟩
  rw [hresolve, Disk.resolve_eq_ok_iff.mpr ⟨j, hq⟩]
  dsimp only
  cases hobject : d.object? loc with
  | none => exact .error hpq.longer
  | some o =>
    cases o with
    | link target => exact .error hpq.longer
    | file data mode =>
      dsimp only
      split
      · exact .error hpq.longer
      · exact .ok 1
    | directory =>
      have hlist : d.list p = .ok (d.namesIn loc) :=
        Disk.list_eq_ok_iff.mpr ⟨loc, hresolve, hobject, rfl⟩
      have hfarther : ∀ name ∈ Bytes.inOrder (d.namesIn loc),
          name ∈ d.namesIn loc ∧ d.Farther (p.join ⟨name⟩) (q.join ⟨name⟩) := by
        intro name hname
        rw [(Bytes.inOrder_perm _).mem_iff] at hname
        exact ⟨hname, hpq.entry hp hq hij (hd.of_list hlist hname)⟩
      dsimp only
      split
      · exact .error hpq.longer
      · refine (repeats_entries (fun name hname => ?_) fun name hname => ?_).map (· + 1)
        · obtain ⟨hmem, hnext⟩ := hfarther name hname
          exact h _ ⟨_, name, hlist, hmem, rfl⟩ _ hnext
        · exact (hfarther name hname).2.longer

/-- A longer path to the same place: what is found there is found again, as long as paths can be resolved. -/
theorem repeats_size (hd : d.ProperlyNamed) (h : d.Farther p q) :
    Repeats (size d p) (size d q) := by
  induction p using Disk.entry_induction hd generalizing q with
  | step p ih =>
    rw [size_eq hd p, size_eq hd q]
    exact repeats_tally hd h fun p' hp' q' hq' => ih p' hp' hq'

/-! The way of a walk. -/

/-- The walk gets from one path to another: it comes through directories it can list, and the entries
before the next on the way can all be published. -/
inductive GetsTo (d : Disk) : Path → Path → Prop
  | here (p : Path) : GetsTo d p p
  | entry {p q : Path} {names before after : List Bytes} {name : Bytes} (list : d.list p = .ok names)
      (few : names.length ≤ 16) (order : Bytes.inOrder names = before ++ name :: after)
      (passed : ∀ n ∈ before, (∃ r, entrySlot (p.join ⟨n⟩) n = .ok r) ∧
        ∃ t, walk d (p.join ⟨n⟩) = .ok t)
      (fits : ∃ r, entrySlot (p.join ⟨name⟩) name = .ok r) (getsTo : GetsTo d (p.join ⟨name⟩) q) :
      GetsTo d p q

/-- The walk comes to a directory and, below it, to the same directory by a longer path. -/
def EntersCycle (d : Disk) (path : Path) : Prop :=
  ∃ p q loc, GetsTo d path p ∧ GetsTo d p q ∧ p ≠ q ∧ d.resolve p = .ok loc ∧ d.resolve q = .ok loc

theorem tallyEntries_append {before : List Bytes}
    (h : ∀ n ∈ before, (∃ r, entrySlot (p.join ⟨n⟩) n = .ok r) ∧ ∃ k, count (p.join ⟨n⟩) = .ok k)
    (rest : List Bytes) :
    ∃ k, tallyEntries count p (before ++ rest) = (tallyEntries count p rest).map (k + ·) := by
  induction before with
  | nil =>
    refine ⟨0, ?_⟩
    rw [List.nil_append]
    cases tallyEntries count p rest <;> simp [Except.map]
  | cons n before ih =>
    rw [List.forall_mem_cons] at h
    obtain ⟨⟨⟨r, hslot⟩, first, hfirst⟩, hbefore⟩ := h
    obtain ⟨k, hk⟩ := ih hbefore
    refine ⟨first + k, ?_⟩
    rw [List.cons_append, tallyEntries]
    simp only [hslot, hfirst, Except.bind_ok, hk]
    cases tallyEntries count p rest with
    | error e => rfl
    | ok m => exact congrArg Except.ok (Nat.add_assoc first k m).symm

theorem size_of_walk (hd : d.ProperlyNamed) {t : PublishedTree} (h : walk d path = .ok t) :
    ∃ k, size d path = .ok k := by
  rw [walk_eq_addAll, Except.map_eq_ok_iff] at h
  obtain ⟨r, hadd, -⟩ := h
  have hcount := counts_size hd path (rootName path) []
  rw [hadd] at hcount
  rcases Except.map_eq_map_iff.mp hcount with ⟨e, hr, -⟩ | ⟨r, k, -, hk, -⟩
  · contradiction
  · exact ⟨k, hk⟩

theorem size_of_entry (hd : d.ProperlyNamed) {before after : List Bytes} {name : Bytes}
    (hlist : d.list p = .ok names) (hfew : names.length ≤ 16)
    (horder : Bytes.inOrder names = before ++ name :: after)
    (hpassed : ∀ n ∈ before, (∃ r, entrySlot (p.join ⟨n⟩) n = .ok r) ∧
      ∃ t, walk d (p.join ⟨n⟩) = .ok t)
    (hfits : ∃ r, entrySlot (p.join ⟨name⟩) name = .ok r) :
    ∃ k rest, size d p = (do
      let first ← size d (p.join ⟨name⟩)
      let last ← rest
      pure (k + (first + last) + 1)) := by
  obtain ⟨loc, hresolve, hobject, rfl⟩ := Disk.list_eq_ok_iff.mp hlist
  obtain ⟨r, hslot⟩ := hfits
  have hbefore : ∀ n ∈ before, (∃ r, entrySlot (p.join ⟨n⟩) n = .ok r) ∧
      ∃ k, size d (p.join ⟨n⟩) = .ok k := fun n hn =>
    ⟨(hpassed n hn).1, (hpassed n hn).2.elim fun _ ht => size_of_walk hd ht⟩
  obtain ⟨k, hk⟩ := tallyEntries_append hbefore (name :: after)
  refine ⟨k, tallyEntries (size d) p after, ?_⟩
  rw [size_eq hd, tally]
  simp only [hresolve, hobject, horder, hk, if_neg (Nat.not_lt.mpr hfew)]
  rw [tallyEntries]
  simp only [hslot, Except.bind_ok]
  cases size d (p.join ⟨name⟩) with
  | error e => rfl
  | ok first =>
    simp only [Except.bind_ok]
    cases tallyEntries (size d) p after <;> rfl

theorem GetsTo.error (hd : d.ProperlyNamed) (h : GetsTo d p q) {e : PublishError}
    (he : size d q = .error e) : size d p = .error e := by
  induction h with
  | here => exact he
  | entry hlist hfew horder hpassed hfits _ ih =>
    obtain ⟨k, rest, hsize⟩ := size_of_entry hd hlist hfew horder hpassed hfits
    rw [hsize, ih he, Except.bind_error]

theorem GetsTo.lt (hd : d.ProperlyNamed) (h : GetsTo d p q) (hne : p ≠ q) {n : Nat}
    (hn : size d p = .ok n) : ∃ m < n, size d q = .ok m := by
  induction h generalizing n with
  | here => exact absurd rfl hne
  | @entry p q names before after name hlist hfew horder hpassed hfits _ ih =>
    obtain ⟨k, rest, hsize⟩ := size_of_entry hd hlist hfew horder hpassed hfits
    rw [hsize, Except.bind_eq_ok_iff] at hn
    obtain ⟨first, hfirst, hn⟩ := hn
    obtain ⟨last, -, hn⟩ := Except.bind_eq_ok_iff.mp hn
    cases Except.ok.inj hn
    by_cases hnext : p.join ⟨name⟩ = q
    · subst hnext
      exact ⟨first, by omega, hfirst⟩
    · obtain ⟨m, hm, hq⟩ := ih hnext hfirst
      exact ⟨m, by omega, hq⟩

theorem GetsTo.longer (hd : d.ProperlyNamed) (h : GetsTo d p q) (hne : p ≠ q) :
    p.bytes.length < q.bytes.length ∧ q.bytes.getLast? ≠ some Path.slash ∧
      ∃ i loc, d.Reaches p i loc ∧ ∀ j loc', d.Reaches q j loc' → i ≤ j := by
  induction h with
  | here => exact absurd rfl hne
  | @entry p q names before after name hlist hfew horder hpassed hfits _ ih =>
    obtain ⟨loc, hloc, -, -⟩ := Disk.list_eq_ok_iff.mp hlist
    obtain ⟨i, hp⟩ := Disk.resolve_eq_ok_iff.mp hloc
    have hmem : name ∈ names := by
      rw [← (Bytes.inOrder_perm names).mem_iff, horder]
      simp
    have hname := hd.of_list hlist hmem
    have hlonger := Path.length_lt_join (p := p) ⟨hname.nonempty, hname.noSlash⟩
    by_cases hnext : p.join ⟨name⟩ = q
    · subst hnext
      refine ⟨hlonger, Path.getLast?_join hname.nonempty hname.noSlash, i, loc, hp, ?_⟩
      intro j loc' hq
      obtain ⟨k, rfl, -⟩ := hp.entry hname hq
      exact Nat.le_add_right i k
    · obtain ⟨hlength, hslash, i', loc', hreaches, hmore⟩ := ih hnext
      refine ⟨by omega, hslash, i, loc, hp, fun j there hq => ?_⟩
      obtain ⟨k, rfl, -⟩ := hp.entry hname hreaches
      exact Nat.le_trans (Nat.le_add_right i k) (hmore j there hq)

theorem GetsTo.farther (hd : d.ProperlyNamed) (h : GetsTo d p q) (hne : p ≠ q) {loc : Location}
    (hp : d.resolve p = .ok loc) (hq : d.resolve q = .ok loc) : d.Farther p q := by
  obtain ⟨hlength, hslash, i, loc', hreaches, hmore⟩ := h.longer hd hne
  obtain ⟨i', hp⟩ := Disk.resolve_eq_ok_iff.mp hp
  obtain ⟨j, hq⟩ := Disk.resolve_eq_ok_iff.mp hq
  obtain ⟨rfl, rfl⟩ := hreaches.unique hp
  exact ⟨hlength, hslash, .inr (.inr (.inr ⟨_, i, j, hmore j _ hq, hreaches, hq⟩))⟩

/-- If the lower directory held what the upper one holds, it would have as many nodes or the same error; but
it has fewer nodes, and its error would be about another path. -/
theorem EntersCycle.exhausted (hd : d.ProperlyNamed) (h : EntersCycle d path) :
    ∃ e, Exhausted e ∧ size d path = .error e := by
  obtain ⟨p, q, loc, hpath, hcycle, hne, hp, hq⟩ := h
  have hrepeats := repeats_size hd (hcycle.farther hd hne hp hq)
  cases hqsize : size d q with
  | ok m =>
    rw [hqsize] at hrepeats
    cases hpsize : size d p with
    | ok n =>
      obtain ⟨m', hless, hm'⟩ := hcycle.lt hd hne hpsize
      rw [hpsize] at hrepeats
      cases hrepeats
      rw [hqsize] at hm'
      cases hm'
      omega
    | error e =>
      rw [hpsize] at hrepeats
      cases hrepeats
  | error e =>
    have hpsize := hcycle.error hd hqsize
    rw [hpsize, hqsize] at hrepeats
    cases hrepeats with
    | error hlonger => omega
    | exhausted hexhausted => exact ⟨e, hexhausted, hpath.error hd hpsize⟩

theorem build_of_size (hd : d.ProperlyNamed) {e : PublishError} (h : size d path = .error e) :
    build d path = .error e := by
  have hcount := counts_size hd path (rootName path) []
  rw [h] at hcount
  rcases Except.map_eq_map_iff.mp hcount with ⟨e', hadd, he⟩ | ⟨r, k, -, hk, -⟩
  · cases he
    unfold build
    rw [walk_eq_addAll, hadd]
    rfl
  · contradiction

/-- On every disk the calls of a walk are nested to a bounded depth, so that there is just one function
that calls itself as the walk does, and the walk is that function. A walk that enters a directory again ends
with the error of a path that follows too many links or is too long. -/
theorem cycles_end (hd : d.ProperlyNamed) :
    (∀ p n q, d.Nested p n q → n ≤ (Disk.linkMax + 1) * (d.height + 1)) ∧
      (∃ add, Recursive d add ∧ (∀ other, Recursive d other → other = add) ∧
        ∀ path, walk d path = (add path (rootName path) []).map fun r => ⟨r.2, r.1, .empty⟩) ∧
      ∀ path, EntersCycle d path → ∃ q cause, build d path = .error (.file q cause) ∧
        (cause = .tooManyLinks ∨ cause = .nameTooLong) := by
  refine ⟨fun p n q h => h.le_depthMax hd, ?_, fun path h => ?_⟩
  · exact ⟨addAll d, recursive_addAll hd, fun other h => h.unique hd (recursive_addAll hd),
      walk_eq_addAll d⟩
  · obtain ⟨e, hexhausted, hsize⟩ := h.exhausted hd
    have hbuild := build_of_size hd hsize
    cases hexhausted with
    | links q => exact ⟨q, _, hbuild, .inl rfl⟩
    | length q => exact ⟨q, _, hbuild, .inr rfl⟩

/-- A directory with an empty one and a link back to itself, which the walk follows forty times. -/
theorem cycles_end_of_loop :
    let d : Disk := ⟨⟨[([[0x64]], .directory), ([[0x64], [0x61]], .directory),
      ([[0x64], [0x62]], .link ⟨[0x2e]⟩)]⟩⟩
    d.ProperlyNamed ∧ EntersCycle d ⟨[0x64]⟩ ∧
      build d ⟨[0x64]⟩ =
        .error (.file ⟨0x64 :: (List.replicate 41 [0x2f, 0x62]).flatten⟩ .tooManyLinks) ∧
      ∃ q cause, build d ⟨[0x64]⟩ = .error (.file q cause) ∧
        (cause = .tooManyLinks ∨ cause = .nameTooLong) := by
  intro d
  have hd : d.ProperlyNamed := by decide
  have hpassed : ∀ n ∈ [[0x61]], (∃ r, entrySlot ((⟨[0x64]⟩ : Path).join ⟨n⟩) n = .ok r) ∧
      ∃ t, walk d ((⟨[0x64]⟩ : Path).join ⟨n⟩) = .ok t := by
    simp only [List.forall_mem_singleton]
    exact ⟨⟨_, rfl⟩, _, rfl⟩
  have hcycle : EntersCycle d ⟨[0x64]⟩ := by
    refine ⟨⟨[0x64]⟩, ⟨[0x64, 0x2f, 0x62]⟩, [[0x64]], .here _, ?_, by decide, rfl, rfl⟩
    have hlist : d.list ⟨[0x64]⟩ = .ok [[0x61], [0x62]] := rfl
    exact .entry hlist (by decide) rfl hpassed ⟨_, rfl⟩ (.here _)
  exact ⟨hd, hcycle, by decide +kernel, (cycles_end hd).2.2 _ hcycle⟩

end TreeShare.PublishedTree
