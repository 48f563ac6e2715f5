import Mathlib.Data.List.MinMax
import TreeShare.Proofs.Files.Unfolding

/-! How many links a path follows. The path of an entry leads through its directory with as many links as
the path of the directory, and one step further from there; that step goes down one level or follows a
link. Main statements: `Reaches.entry`, `Nested.le_depthMax`. -/
namespace TreeShare

namespace Path

theorem join_of_notMem (p : Path) {name : Bytes} (h : slash ∉ name) :
    p.join ⟨name⟩ = if p.bytes = [] ∨ p.bytes.getLast? = some slash then ⟨p.bytes ++ name⟩
      else ⟨p.bytes ++ slash :: name⟩ := by
  have hrelative : (⟨name⟩ : Path).isAbsolute = false := by
    unfold isAbsolute
    rw [beq_eq_false_iff_ne]
    exact fun hhead => h (List.mem_of_mem_head? hhead)
  unfold join
  rw [hrelative, if_neg Bool.false_ne_true]

theorem length_join_le (p : Path) {name : Bytes} (h : slash ∉ name) :
    (p.join ⟨name⟩).bytes.length ≤ p.bytes.length + 1 + name.length := by
  rw [join_of_notMem p h]
  split
  · simp
  · simp
    omega

theorem length_join_of_ne {p : Path} (hp : p.bytes ≠ []) (hlast : p.bytes.getLast? ≠ some slash)
    {name : Bytes} (h : slash ∉ name) :
    (p.join ⟨name⟩).bytes.length = p.bytes.length + 1 + name.length := by
  rw [join_of_notMem p h, if_neg (not_or.mpr ⟨hp, hlast⟩)]
  simp
  omega

theorem getLast?_join {p : Path} {name : Bytes} (hne : name ≠ []) (h : slash ∉ name) :
    (p.join ⟨name⟩).bytes.getLast? ≠ some slash := by
  have hlast : ∀ a : Bytes, (a ++ name).getLast? ≠ some slash := by
    intro a hslash
    rw [List.getLast?_append_of_ne_nil a hne] at hslash
    exact h (List.mem_of_getLast? hslash)
  rw [join_of_notMem p h]
  split
  · exact hlast _
  · rw [List.append_cons]
    exact hlast _

theorem split_ne_nil (b : Bytes) : split b ≠ [] := by
  cases b with
  | nil => exact List.cons_ne_nil _ _
  | cons x b =>
    unfold split
    split
    · exact List.cons_ne_nil _ _
    · split <;> exact List.cons_ne_nil _ _

theorem split_cons_slash (b : Bytes) : split (slash :: b) = [] :: split b := by
  rw [split.eq_2, if_pos rfl]

theorem split_cons_of_ne {x : UInt8} (hx : x ≠ slash) {b part : Bytes} {parts : List Bytes}
    (h : split b = part :: parts) : split (x :: b) = (x :: part) :: parts := by
  rw [split.eq_2, if_neg hx, h]

theorem split_append_slash (a b : Bytes) : split (a ++ slash :: b) = split a ++ split b := by
  induction a with
  | nil => exact split_cons_slash b
  | cons x a ih =>
    rw [List.cons_append]
    rcases Decidable.em (x = slash) with rfl | hx
    · rw [split_cons_slash, split_cons_slash, ih, List.cons_append]
    · obtain ⟨part, parts, h⟩ := List.exists_cons_of_ne_nil (split_ne_nil a)
      rw [h] at ih
      rw [split_cons_of_ne hx h, split_cons_of_ne hx ih]
      rfl

theorem split_of_notMem {name : Bytes} (h : slash ∉ name) : split name = [name] := by
  induction name with
  | nil => rfl
  | cons x name ih =>
    rw [List.mem_cons, not_or] at h
    exact split_cons_of_ne (Ne.symm h.1) (ih h.2)

theorem split_concat (b : Bytes) {x : UInt8} (hx : x ≠ slash) :
    ∃ parts part, split (b ++ [x]) = parts ++ [part ++ [x]] := by
  induction b with
  | nil => exact ⟨[], [], split_cons_of_ne hx rfl⟩
  | cons y b ih =>
    obtain ⟨parts, part, h⟩ := ih
    rw [List.cons_append]
    rcases Decidable.em (y = slash) with rfl | hy
    · exact ⟨[] :: parts, part, by rw [split_cons_slash, h, List.cons_append]⟩
    · cases parts with
      | nil => exact ⟨[], y :: part, split_cons_of_ne hy h⟩
      | cons first parts => exact ⟨(y :: first) :: parts, part, split_cons_of_ne hy h⟩

end Path

namespace Disk

variable {d : Disk} {p q : Path} {here loc : Location} {name : Bytes} {links : Nat}

/-- A name as directories list them: a byte string without a slash that is neither of the dots. -/
structure ProperName (name : Bytes) : Prop where
  nonempty : name ≠ []
  noSlash : Path.slash ∉ name
  notDot : name ≠ Path.dot
  notDotDot : name ≠ Path.dotDot

instance : DecidablePred ProperName := fun name =>
  decidable_of_iff (name ≠ [] ∧ Path.slash ∉ name ∧ name ≠ Path.dot ∧ name ≠ Path.dotDot)
    ⟨fun ⟨hne, hslash, hdot, hdots⟩ => ⟨hne, hslash, hdot, hdots⟩,
      fun h => ⟨h.nonempty, h.noSlash, h.notDot, h.notDotDot⟩⟩

def ProperlyNamed (d : Disk) : Prop := ∀ o ∈ d.objects.rows, ∀ name ∈ o.1, ProperName name

instance (d : Disk) : Decidable d.ProperlyNamed := by
  unfold ProperlyNamed
  infer_instance

theorem ProperlyNamed.wellNamed (hd : d.ProperlyNamed) : d.WellNamed :=
  fun o ho name hname => ⟨(hd o ho name hname).nonempty, (hd o ho name hname).noSlash⟩

theorem ProperlyNamed.of_list (hd : d.ProperlyNamed) {names : List Bytes} (h : d.list p = .ok names)
    (hname : name ∈ names) : ProperName name := by
  obtain ⟨o, ho, hmem⟩ := exists_mem_rows_of_list h hname
  exact hd o ho name hmem

theorem steps_of_split {parts : List Bytes} {part : Bytes}
    (h : Path.split p.bytes = parts ++ [part]) (hpart : part ≠ []) :
    steps p = parts.filter (· ≠ []) ++ [part] := by
  unfold steps
  simp [h, hpart]

theorem steps_join (hp : p.bytes ≠ []) (hname : ProperName name) :
    ∃ ns, steps (p.join ⟨name⟩) = ns ++ [name] ∧ (steps p = ns ∨ steps p = ns ++ [[]]) := by
  obtain ⟨bytes⟩ := p
  obtain ⟨a, x, rfl⟩ := (List.eq_nil_or_concat' bytes).resolve_left hp
  rw [Path.join_of_notMem _ hname.noSlash]
  rcases Decidable.em (x = Path.slash) with rfl | hx
  · rw [if_pos (.inr List.getLast?_concat)]
    have hsplit : Path.split (a ++ [Path.slash]) = Path.split a ++ [[]] :=
      Path.split_append_slash a []
    have hjoin : Path.split (a ++ [Path.slash] ++ name) = Path.split a ++ [name] := by
      rw [List.append_assoc, List.singleton_append, Path.split_append_slash,
        Path.split_of_notMem hname.noSlash]
    refine ⟨(Path.split a).filter (· ≠ []), steps_of_split hjoin hname.nonempty, ?_⟩
    have hnamed : (Path.split a ++ [[]]).filter (· ≠ []) = (Path.split a).filter (· ≠ []) := by
      simp
    unfold steps
    rw [hsplit]
    dsimp only
    rw [hnamed]
    split
    · exact .inr rfl
    · exact .inl rfl
  · rw [if_neg (by simp [hx])]
    obtain ⟨parts, part, hsplit⟩ := Path.split_concat a hx
    have hsteps : steps ⟨a ++ [x]⟩ = parts.filter (· ≠ []) ++ [part ++ [x]] :=
      steps_of_split hsplit (by simp)
    have hjoin : Path.split (a ++ [x] ++ Path.slash :: name) = parts ++ [part ++ [x]] ++ [name] := by
      rw [Path.split_append_slash, Path.split_of_notMem hname.noSlash, hsplit]
    refine ⟨_, ?_, .inl hsteps⟩
    rw [steps_of_split hjoin hname.nonempty]
    simp

/-! One step at a time. -/

/-- What a step finds: a reason to stop, a free name, a place to go on from, or a link with the steps it
stands for. -/
inductive Next where
  | stopped (e : FileError)
  | missing (loc : Location)
  | on (there : Location)
  | link (there : Location) (more : List Bytes)

def next (d : Disk) (here : Location) (n : Bytes) : Next :=
  if !d.isDirectory here then .stopped .notADirectory
  else if n = [] ∨ n = Path.dot then .on here
  else if n = Path.dotDot then .on here.dropLast
  else if n.length > 255 then .stopped .nameTooLong
  else match d.object? (here ++ [n]) with
    | none => .missing (here ++ [n])
    | some (.link target) =>
      if target.bytes = [] then .stopped .notFound
      else .link (if target.isAbsolute then [] else here) (steps target)
    | some _ => .on (here ++ [n])

theorem walk_nil : d.walk .find links here [] = .ok (.found here) := by
  cases links <;> rfl

theorem walkUntilLink_cons (onLink : Location → List Bytes → Except FileError Place) (n : Bytes)
    (rest : List Bytes) :
    d.walkUntilLink .find onLink here (n :: rest) =
      match d.next here n with
      | .stopped e => .error e
      | .missing loc => if rest = [] then .ok (.vacant loc) else .error .notFound
      | .on there => d.walkUntilLink .find onLink there rest
      | .link there more => onLink there (more ++ rest) := by
  rw [walkUntilLink]
  unfold next
  split
  · rfl
  split
  · rfl
  split
  · rfl
  rw [if_neg (by simp)]
  split
  · rfl
  cases d.object? (here ++ [n]) with
  | none => rfl
  | some o =>
    cases o with
    | link target =>
      dsimp only
      split <;> rfl
    | file data mode => rfl
    | directory => rfl

theorem walk_cons (links : Nat) (here : Location) (n : Bytes) (rest : List Bytes) :
    d.walk .find links here (n :: rest) =
      match d.next here n with
      | .stopped e => .error e
      | .missing loc => if rest = [] then .ok (.vacant loc) else .error .notFound
      | .on there => d.walk .find links there rest
      | .link there more =>
        match links with
        | 0 => .error .tooManyLinks
        | links + 1 => d.walk .find links there (more ++ rest) := by
  cases links with
  | zero => exact walkUntilLink_cons _ n rest
  | succ links => exact walkUntilLink_cons _ n rest

/-- A walk takes one step and goes on with those that are left, or with any number of steps and fewer links
to follow. -/
theorem walk_induction {motive : Nat → List Bytes → Prop} (nil : ∀ links, motive links [])
    (cons : ∀ links n rest, motive links rest → (∀ fewer < links, ∀ steps, motive fewer steps) →
      motive links (n :: rest)) (links : Nat) (steps : List Bytes) : motive links steps := by
  induction links using Nat.strong_induction_on generalizing steps with
  | _ links ih =>
    induction steps with
    | nil => exact nil links
    | cons n rest ihrest => exact cons links n rest ihrest ih

theorem walk_of_le {more : Nat} (h : links ≤ more) (here : Location) (steps : List Bytes) :
    d.walk .find links here steps = d.walk .find more here steps ∨
      d.walk .find links here steps = .error .tooManyLinks := by
  induction links, steps using walk_induction generalizing more here with
  | nil links => exact .inl (by rw [walk_nil, walk_nil])
  | cons links n rest ih ihlink =>
    rw [walk_cons, walk_cons]
    cases d.next here n with
    | stopped e => exact .inl rfl
    | missing loc => exact .inl rfl
    | on there => exact ih h there
    | link there ns =>
      cases links with
      | zero => exact .inr rfl
      | succ links =>
        obtain ⟨more, rfl⟩ : ∃ k, more = k + 1 := ⟨more - 1, by omega⟩
        exact ihlink links (Nat.lt_succ_self links) _ (Nat.le_of_succ_le_succ h) there

/-- The steps lead from one place to another through this many links. -/
inductive Leads (d : Disk) : Location → List Bytes → Nat → Location → Prop
  | done (here : Location) : Leads d here [] 0 here
  | on {here there loc : Location} {n : Bytes} {rest : List Bytes} {links : Nat}
      (next : d.next here n = .on there) (leads : Leads d there rest links loc) :
      Leads d here (n :: rest) links loc
  | link {here there loc : Location} {n : Bytes} {more rest : List Bytes} {links : Nat}
      (next : d.next here n = .link there more) (leads : Leads d there (more ++ rest) links loc) :
      Leads d here (n :: rest) (links + 1) loc

theorem Leads.walk_append {steps : List Bytes} {k : Nat} (h : d.Leads here steps k loc)
    (links : Nat) (rest : List Bytes) :
    d.walk .find links here (steps ++ rest) =
      if k ≤ links then d.walk .find (links - k) loc rest else .error .tooManyLinks := by
  induction h generalizing links rest with
  | done here => rfl
  | on hnext _ ih =>
    rw [List.cons_append, walk_cons, hnext]
    exact ih links rest
  | @link here there loc n more steps k hnext _ ih =>
    rw [List.cons_append, walk_cons, hnext]
    cases links with
    | zero => rfl
    | succ links =>
      have := ih links rest
      rw [List.append_assoc] at this
      simp only [this, Nat.add_le_add_iff_right, Nat.add_sub_add_right]

theorem Leads.walk {steps : List Bytes} {k : Nat} (h : d.Leads here steps k loc) (links : Nat) :
    d.walk .find links here steps = if k ≤ links then .ok (.found loc) else .error .tooManyLinks := by
  have := h.walk_append links []
  rwa [List.append_nil, walk_nil] at this

theorem leads_of_walk {steps : List Bytes} (h : d.walk .find links here steps = .ok (.found loc)) :
    ∃ k ≤ links, d.Leads here steps k loc := by
  induction links, steps using walk_induction generalizing here with
  | nil links =>
    rw [walk_nil] at h
    cases h
    exact ⟨0, Nat.zero_le links, .done _⟩
  | cons links n rest ih ihlink =>
    rw [walk_cons] at h
    cases hnext : d.next here n with
    | stopped e => simp [hnext] at h
    | missing loc =>
      simp only [hnext] at h
      split at h <;> simp at h
    | on there =>
      simp only [hnext] at h
      obtain ⟨k, hk, hleads⟩ := ih h
      exact ⟨k, hk, .on hnext hleads⟩
    | link there more =>
      simp only [hnext] at h
      cases links with
      | zero => contradiction
      | succ links =>
        obtain ⟨k, hk, hleads⟩ := ihlink links (Nat.lt_succ_self links) _ h
        exact ⟨k + 1, Nat.succ_le_succ hk, .link hnext hleads⟩

theorem Leads.unique {steps : List Bytes} {k k' : Nat} {loc' : Location}
    (h : d.Leads here steps k loc) (h' : d.Leads here steps k' loc') : k = k' ∧ loc = loc' := by
  induction h generalizing k' with
  | done here =>
    cases h'
    exact ⟨rfl, rfl⟩
  | on hnext _ ih =>
    cases h' with
    | on hnext' h' =>
      cases hnext.symm.trans hnext'
      exact ih h'
    | link hnext' _ => cases hnext.symm.trans hnext'
  | link hnext _ ih =>
    cases h' with
    | on hnext' _ => cases hnext.symm.trans hnext'
    | link hnext' h' =>
      cases hnext.symm.trans hnext'
      obtain ⟨rfl, rfl⟩ := ih h'
      exact ⟨rfl, rfl⟩

theorem Leads.of_append {first rest : List Bytes} {k : Nat}
    (h : d.Leads here (first ++ rest) k loc) :
    ∃ mid i j, d.Leads here first i mid ∧ d.Leads mid rest j loc ∧ k = i + j := by
  generalize hsteps : first ++ rest = steps at h
  induction h generalizing first rest with
  | done here =>
    obtain ⟨rfl, rfl⟩ := List.append_eq_nil_iff.mp hsteps
    exact ⟨here, 0, 0, .done _, .done _, rfl⟩
  | @on here there loc n steps k hnext hleads ih =>
    cases first with
    | nil =>
      subst hsteps
      exact ⟨here, 0, k, .done _, .on hnext hleads, (Nat.zero_add k).symm⟩
    | cons n' first =>
      obtain ⟨rfl, rfl⟩ := List.cons.inj hsteps
      obtain ⟨mid, i, j, hfirst, hrest, rfl⟩ := ih rfl
      exact ⟨mid, i, j, .on hnext hfirst, hrest, rfl⟩
  | @link here there loc n more steps k hnext hleads ih =>
    cases first with
    | nil =>
      subst hsteps
      exact ⟨here, 0, k + 1, .done _, .link hnext hleads, (Nat.zero_add _).symm⟩
    | cons n' first =>
      obtain ⟨rfl, rfl⟩ := List.cons.inj hsteps
      obtain ⟨mid, i, j, hfirst, hrest, rfl⟩ := ih (List.append_assoc _ _ _)
      exact ⟨mid, i + 1, j, .link hnext hfirst, hrest, Nat.succ_add_eq_add_succ .. ▸ by omega⟩

theorem Leads.of_slash {k : Nat} (h : d.Leads here [[]] k loc) : k = 0 ∧ loc = here := by
  have hnext : d.next here [] = .on here ∨ d.next here [] = .stopped .notADirectory := by
    unfold next
    split
    · exact .inr rfl
    · exact .inl rfl
  cases h with
  | on h hrest =>
    rw [h] at hnext
    cases hrest
    rcases hnext with hnext | hnext
    · exact ⟨rfl, Next.on.inj hnext⟩
    · contradiction
  | link h =>
    rw [h] at hnext
    rcases hnext with hnext | hnext <;> contradiction

theorem Leads.of_name (hname : ProperName name) {k : Nat} (h : d.Leads here [name] k loc) :
    0 < k ∨ loc = here ++ [name] := by
  cases h with
  | on hnext hrest =>
    cases hrest
    right
    unfold next at hnext
    rw [if_neg (not_or.mpr ⟨hname.nonempty, hname.notDot⟩), if_neg hname.notDotDot] at hnext
    split at hnext
    · contradiction
    split at hnext
    · contradiction
    split at hnext
    · contradiction
    · split at hnext <;> contradiction
    · exact (Next.on.inj hnext).symm
  | link => exact .inl (Nat.succ_pos _)

/-! Whole paths. -/

/-- A path leads to a location through this many links. -/
structure Reaches (d : Disk) (p : Path) (links : Nat) (loc : Location) : Prop where
  noNul : (0 : UInt8) ∉ p.bytes
  nonempty : p.bytes ≠ []
  short : p.bytes.length < pathMax
  within : links ≤ linkMax
  leads : d.Leads [] (steps p) links loc

def atObject : Place → Except FileError Location
  | .found loc => .ok loc
  | .vacant _ => .error .notFound

theorem resolve_eq (p : Path) : d.resolve p = d.locate .find p >>= atObject := by
  unfold resolve
  refine bind_congr fun place => ?_
  cases place <;> rfl

theorem resolve_eq_ok_iff : d.resolve p = .ok loc ↔ ∃ k, d.Reaches p k loc := by
  constructor
  · intro h
    obtain ⟨hnul, hne, hshort⟩ := resolve_bounds h
    rw [resolve_eq, Except.bind_eq_ok_iff] at h
    obtain ⟨place, hplace, h⟩ := h
    unfold locate at hplace
    rw [if_neg hnul, if_neg hne, if_neg (by omega)] at hplace
    cases place with
    | vacant => contradiction
    | found there =>
      cases h
      obtain ⟨k, hk, hleads⟩ := leads_of_walk hplace
      exact ⟨k, hnul, hne, hshort, hk, hleads⟩
  · rintro ⟨k, hnul, hne, hshort, hk, hleads⟩
    rw [resolve_eq]
    unfold locate
    rw [if_neg hnul, if_neg hne, if_neg (by omega), hleads.walk, if_pos hk]
    rfl

theorem Reaches.unique {k k' : Nat} {loc' : Location} (h : d.Reaches p k loc)
    (h' : d.Reaches p k' loc') : k = k' ∧ loc = loc' :=
  h.leads.unique h'.leads

theorem Reaches.steps_join (h : d.Reaches p links here) (hname : ProperName name) :
    ∃ ns, steps (p.join ⟨name⟩) = ns ++ [name] ∧ d.Leads [] ns links here := by
  obtain ⟨ns, hjoin, hsteps⟩ := Disk.steps_join h.nonempty hname
  refine ⟨ns, hjoin, ?_⟩
  rcases hsteps with hsteps | hsteps
  · exact hsteps ▸ h.leads
  · obtain ⟨mid, i, j, hfirst, hslash, rfl⟩ := (hsteps ▸ h.leads).of_append
    obtain ⟨rfl, rfl⟩ := hslash.of_slash
    exact hfirst

/-- What the path of an entry leads to follows from the links that are left at its directory. -/
theorem Reaches.resolve_join (h : d.Reaches p links here) (hname : ProperName name) :
    d.resolve (p.join ⟨name⟩) =
      if (0 : UInt8) ∈ name then .error .nulInPath
      else if pathMax ≤ (p.join ⟨name⟩).bytes.length then .error .nameTooLong
      else d.walk .find (linkMax - links) here [name] >>= atObject := by
  obtain ⟨ns, hjoin, hleads⟩ := h.steps_join hname
  have hne : (p.join ⟨name⟩).bytes ≠ [] :=
    List.ne_nil_of_length_pos
      (Nat.zero_lt_of_lt (Path.length_lt_join ⟨hname.nonempty, hname.noSlash⟩))
  have hnul : (0 : UInt8) ∈ (p.join ⟨name⟩).bytes ↔ (0 : UInt8) ∈ name := by
    refine ⟨fun hzero => ?_, Path.mem_join⟩
    rw [Path.join_of_notMem p hname.noSlash] at hzero
    split at hzero <;> simpa [h.noNul, Path.slash] using hzero
  rw [resolve_eq]
  unfold locate
  simp only [hnul, if_neg hne, hjoin, hleads.walk_append, if_pos h.within]
  split
  · rfl
  · split <;> rfl

/-- The path of an entry leads through its directory. -/
theorem Reaches.entry (h : d.Reaches p links here) (hname : ProperName name) {k : Nat}
    (hentry : d.Reaches (p.join ⟨name⟩) k loc) :
    ∃ j, k = links + j ∧ d.Leads here [name] j loc := by
  obtain ⟨ns, hjoin, hleads⟩ := h.steps_join hname
  obtain ⟨mid, i, j, hfirst, hlast, rfl⟩ := (hjoin ▸ hentry.leads).of_append
  obtain ⟨rfl, rfl⟩ := hleads.unique hfirst
  exact ⟨j, rfl, hlast⟩

/-- The second path is longer than the first. If it leads anywhere, it leads to the same place, through as
many links or more. -/
structure Farther (d : Disk) (p q : Path) : Prop where
  longer : p.bytes.length < q.bytes.length
  noSlash : q.bytes.getLast? ≠ some Path.slash
  leads : d.resolve q = .error .tooManyLinks ∨ d.resolve q = .error .nameTooLong ∨
    (∃ e, d.resolve p = .error e ∧ d.resolve q = .error e) ∨
    ∃ loc i j, i ≤ j ∧ d.Reaches p i loc ∧ d.Reaches q j loc

/-- The entries of one directory are as far apart as the two paths that lead to it. -/
theorem Farther.entry (h : d.Farther p q) {i j : Nat} (hp : d.Reaches p i here)
    (hq : d.Reaches q j here) (hij : i ≤ j) (hname : ProperName name) :
    d.Farther (p.join ⟨name⟩) (q.join ⟨name⟩) := by
  have hlonger : (p.join ⟨name⟩).bytes.length < (q.join ⟨name⟩).bytes.length := by
    rw [Path.length_join_of_ne hq.nonempty h.noSlash hname.noSlash]
    have := Path.length_join_le p hname.noSlash
    have := h.longer
    omega
  refine ⟨hlonger, Path.getLast?_join hname.nonempty hname.noSlash, ?_⟩
  have hpath := hp.resolve_join hname
  have hpath' := hq.resolve_join hname
  by_cases hnul : (0 : UInt8) ∈ name
  · rw [if_pos hnul] at hpath hpath'
    exact .inr (.inr (.inl ⟨_, hpath, hpath'⟩))
  -- The second path is the longer one, so where it is short enough the first is too.
  by_cases hlong : pathMax ≤ (q.join ⟨name⟩).bytes.length
  · rw [if_neg hnul, if_pos hlong] at hpath'
    exact .inr (.inl hpath')
  rw [if_neg hnul, if_neg hlong] at hpath'
  rw [if_neg hnul, if_neg (by omega)] at hpath
  rcases walk_of_le (show linkMax - j ≤ linkMax - i by omega) here [name] with hsame | hless
  · rw [hsame, ← hpath] at hpath'
    cases hresolve : d.resolve (p.join ⟨name⟩) with
    | error e => exact .inr (.inr (.inl ⟨e, rfl, hresolve ▸ hpath'⟩))
    | ok loc =>
      obtain ⟨i', hi⟩ := resolve_eq_ok_iff.mp hresolve
      obtain ⟨j', hj⟩ := resolve_eq_ok_iff.mp (hpath'.trans hresolve)
      obtain ⟨k, rfl, hleads⟩ := hp.entry hname hi
      obtain ⟨k', rfl, hleads'⟩ := hq.entry hname hj
      obtain ⟨rfl, -⟩ := hleads.unique hleads'
      exact .inr (.inr (.inr ⟨loc, _, _, Nat.add_le_add_right hij k, hi, hj⟩))
  · rw [hless] at hpath'
    exact .inl hpath'

/-! Directories within directories. -/

def Entry (d : Disk) (p q : Path) : Prop :=
  ∃ names name, d.list p = .ok names ∧ name ∈ names ∧ q = p.join ⟨name⟩

/-- The second path is this many levels below the first. -/
inductive Nested (d : Disk) : Path → Nat → Path → Prop
  | top (p : Path) : Nested d p 0 p
  | entry {p q r : Path} {n : Nat} (entry : d.Entry p q) (nested : Nested d q n r) :
      Nested d p (n + 1) r

/-- The longest way down without a link. -/
def height (d : Disk) : Nat := (d.objects.rows.map fun row => row.1.length).foldr max 0

theorem length_le_height {o : FileObject} (h : d.object? loc = some o) : loc.length ≤ d.height := by
  unfold object? at h
  split at h
  · rename_i hroot
    simp [hroot]
  · exact List.le_max_of_le' 0 (List.mem_map_of_mem (Table.mem_rows_of_get? h)) (Nat.le_refl _)

/-- What is left for the ways down from a location after this many links: for each link that can still be
followed a whole way down, and the levels below the location. -/
def slack (d : Disk) (links : Nat) (loc : Location) : Nat :=
  (linkMax - links) * (d.height + 1) + (d.height - loc.length)

def depthMax (d : Disk) : Nat := (linkMax + 1) * (d.height + 1)

theorem slack_lt_depthMax (d : Disk) (links : Nat) (loc : Location) :
    d.slack links loc < d.depthMax := by
  have hlinks : (linkMax - links) * (d.height + 1) ≤ linkMax * (d.height + 1) :=
    Nat.mul_le_mul_right _ (Nat.sub_le _ _)
  unfold slack depthMax
  rw [Nat.succ_mul]
  omega

/-- Each level takes from what is left: it lies below its directory, or one link more leads there. -/
theorem Reaches.slack_lt (h : d.Reaches p links here) (hname : ProperName name) {k : Nat}
    (hentry : d.Reaches (p.join ⟨name⟩) k loc) {o : FileObject} (ho : d.object? loc = some o) :
    d.slack k loc < d.slack links here := by
  obtain ⟨j, rfl, hleads⟩ := h.entry hname hentry
  have hheight := length_le_height ho
  have hwithin := hentry.within
  unfold slack
  -- One link more costs a whole way down, so it does not matter how far down it leads.
  rcases hleads.of_name hname with hlink | rfl
  · have hfewer : (linkMax - (links + j) + 1) * (d.height + 1) ≤
        (linkMax - links) * (d.height + 1) := Nat.mul_le_mul_right _ (by omega)
    rw [Nat.succ_mul] at hfewer
    omega
  · have hfewer : (linkMax - (links + j)) * (d.height + 1) ≤ (linkMax - links) * (d.height + 1) :=
      Nat.mul_le_mul_right _ (by omega)
    rw [List.length_append, List.length_singleton] at *
    omega

theorem Nested.le_slack (hd : d.ProperlyNamed) {n : Nat} (h : d.Nested p n q)
    (hp : d.Reaches p links here) : n ≤ d.slack links here + 1 := by
  induction h generalizing links here with
  | top p => exact Nat.zero_le _
  | @entry p q r n hentry hnested ih =>
    obtain ⟨names, name, hlist, hmem, rfl⟩ := hentry
    cases hnested with
    | top => omega
    | entry hbelow hnested =>
      obtain ⟨names', name', hlist', -, -⟩ := id hbelow
      obtain ⟨loc, hloc, hobject, -⟩ := list_eq_ok_iff.mp hlist'
      obtain ⟨k, hk⟩ := resolve_eq_ok_iff.mp hloc
      have hless := hp.slack_lt (hd.of_list hlist hmem) hk hobject
      have := ih hk
      omega

/-- Directories are nested to a depth that no link can change. -/
theorem Nested.le_depthMax (hd : d.ProperlyNamed) {n : Nat} (h : d.Nested p n q) :
    n ≤ d.depthMax := by
  cases h with
  | top => exact Nat.zero_le _
  | entry hentry hnested =>
    obtain ⟨names, name, hlist, -, -⟩ := id hentry
    obtain ⟨loc, hloc, -, -⟩ := list_eq_ok_iff.mp hlist
    obtain ⟨k, hk⟩ := resolve_eq_ok_iff.mp hloc
    have hbound := Nested.le_slack hd (.entry hentry hnested) hk
    have := d.slack_lt_depthMax k loc
    omega

/-- A path that leads to a directory is not as long as paths can be, and the paths of the entries are
longer. -/
theorem Entry.room_lt (hd : d.ProperlyNamed) (h : d.Entry p q) :
    pathMax - q.bytes.length < pathMax - p.bytes.length := by
  obtain ⟨names, name, hlist, hmem, rfl⟩ := h
  obtain ⟨loc, hloc, -, -⟩ := list_eq_ok_iff.mp hlist
  have hshort := (resolve_bounds hloc).2.2
  have hlonger := Path.length_lt_join (p := p) (wellNamed_list hd.wellNamed hlist hmem)
  omega

/-- What holds of a path as soon as it holds of its entries holds of all paths. -/
theorem entry_induction (hd : d.ProperlyNamed) {motive : Path → Prop}
    (step : ∀ p, (∀ q, d.Entry p q → motive q) → motive p) (p : Path) : motive p := by
  generalize hroom : pathMax - p.bytes.length = room
  induction room using Nat.strong_induction_on generalizing p with
  | _ room ih => exact step p fun q hq => ih _ (hroom ▸ hq.room_lt hd) q rfl

end Disk
end TreeShare
