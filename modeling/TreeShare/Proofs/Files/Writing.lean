import TreeShare.Proofs.Files.Links

/-! What writing a file does to a disk. The path leads to the file from then on, with the bytes that were
written, and nothing else changes. Main statements: `write_spec`, `setMode_spec`. -/
namespace TreeShare.Disk

variable {d d' : Disk} {p : Path} {here loc there : Location} {links : Nat}

/-! Objects. -/

theorem next_spec (d : Disk) (here : Location) (n : Bytes) :
    match d.next here n with
    | .stopped _ => True
    | .missing loc => loc = here ++ [n] ∧ d.object? loc = none
    | .on there => d.isDirectory here = true ∧
        (((n = [] ∨ n = Path.dot) ∧ there = here) ∨ (n = Path.dotDot ∧ there = here.dropLast) ∨
          there = here ++ [n])
    | .link _ more => ∃ target, d.object? (here ++ [n]) = some (.link target) ∧ more = steps target := by
  unfold next
  by_cases hhere : d.isDirectory here = true
  · rw [if_neg (by simp [hhere])]
    by_cases hdot : n = [] ∨ n = Path.dot
    · rw [if_pos hdot]
      exact ⟨hhere, .inl ⟨hdot, rfl⟩⟩
    rw [if_neg hdot]
    by_cases hdots : n = Path.dotDot
    · rw [if_pos hdots]
      exact ⟨hhere, .inr (.inl ⟨hdots, rfl⟩)⟩
    rw [if_neg hdots]
    by_cases hlong : n.length > 255
    · rw [if_pos hlong]
      trivial
    rw [if_neg hlong]
    cases hobject : d.object? (here ++ [n]) with
    | none => exact ⟨rfl, hobject⟩
    | some o =>
      cases o with
      | link target =>
        by_cases hempty : target.bytes = []
        · simp only [if_pos hempty]
        · simp only [if_neg hempty]
          exact ⟨target, rfl, rfl⟩
      | file data mode => exact ⟨hhere, .inr (.inr rfl)⟩
      | directory => exact ⟨hhere, .inr (.inr rfl)⟩
  · rw [if_pos (by simpa using hhere)]
    trivial

theorem object?_set (hloc : loc ≠ []) (o : FileObject) (there : Location) :
    (d.set loc o).object? there = if there = loc then some o else d.object? there := by
  unfold object? set
  rw [Table.get?_set]
  rcases Decidable.em (there = loc) with rfl | hthere
  · rw [if_neg hloc, if_pos rfl, if_pos rfl]
  · simp only [if_neg hthere]

def FreeForFile (d : Disk) (loc : Location) : Prop :=
  d.object? loc = none ∨ ∃ data mode, d.object? loc = some (.file data mode)

namespace FreeForFile

theorem ne_root (h : d.FreeForFile loc) : loc ≠ [] := by
  rintro rfl
  rcases h with h | ⟨data, mode, h⟩ <;> cases h

theorem isDirectory_set (h : d.FreeForFile loc) (data : Bytes) (mode : Nat) (there : Location) :
    (d.set loc (.file data mode)).isDirectory there = d.isDirectory there := by
  unfold isDirectory
  rw [object?_set h.ne_root]
  split
  · rename_i hthere
    subst hthere
    rcases h with h | ⟨data, mode, h⟩ <;> rw [h] <;> rfl
  · rfl

theorem next_set (h : d.FreeForFile loc) (data : Bytes) (mode : Nat) (here : Location) (n : Bytes) :
    (d.set loc (.file data mode)).next here n =
      match d.next here n with
      | .missing l => if l = loc then .on loc else .missing l
      | other => other := by
  unfold next
  rw [h.isDirectory_set, object?_set h.ne_root]
  split
  · rfl
  split
  · rfl
  split
  · rfl
  split
  · rfl
  by_cases hthere : here ++ [n] = loc
  · rw [if_pos hthere]
    rcases h with h | ⟨data, mode, h⟩
    · rw [hthere, h]
      dsimp only
      rw [if_pos rfl]
    · rw [hthere, h]
  · rw [if_neg hthere]
    cases d.object? (here ++ [n]) with
    | none =>
      dsimp only
      rw [if_neg hthere]
    | some o =>
      cases o with
      | link target =>
        dsimp only
        split <;> rfl
      | file data mode => rfl
      | directory => rfl

theorem walk_set (h : d.FreeForFile loc) (data : Bytes) (mode : Nat) {steps : List Bytes}
    (hwalk : d.walk .find links here steps = .ok (.found there) ∨
      there = loc ∧ d.walk .find links here steps = .ok (.vacant there)) :
    (d.set loc (.file data mode)).walk .find links here steps = .ok (.found there) := by
  induction links, steps using walk_induction generalizing here with
  | nil links =>
    rw [walk_nil] at hwalk ⊢
    rcases hwalk with hwalk | ⟨-, hwalk⟩
    · exact hwalk
    · cases hwalk
  | cons links n rest ih ihlink =>
    rw [walk_cons] at hwalk ⊢
    rw [h.next_set]
    cases hnext : d.next here n with
    | stopped e => simp [hnext] at hwalk
    | missing l =>
      simp only [hnext] at hwalk
      split at hwalk
      · obtain ⟨rfl, hl⟩ : there = loc ∧ l = there := by simpa using hwalk
        simp [*, walk_nil]
      · simp at hwalk
    | on l =>
      simp only [hnext] at hwalk
      exact ih hwalk
    | link l more =>
      simp only [hnext] at hwalk
      cases links with
      | zero => simp at hwalk
      | succ links => exact ihlink links (Nat.lt_succ_self links) _ hwalk

end FreeForFile

/-! Walking to write. -/

theorem walkUntilLink_write_cons (onLink : Location → List Bytes → Except FileError Place) (n : Bytes)
    (rest : List Bytes) :
    d.walkUntilLink .write onLink here (n :: rest) = .error .isADirectory ∨
    d.walkUntilLink .write onLink here (n :: rest) =
      match d.next here n with
      | .stopped e => .error e
      | .missing loc => if rest = [] then .ok (.vacant loc) else .error .notFound
      | .on there => d.walkUntilLink .write onLink there rest
      | .link there more => onLink there (more ++ rest) := by
  rw [walkUntilLink]
  unfold next
  split
  · exact .inr rfl
  split
  · exact .inr rfl
  split
  · exact .inr rfl
  split
  · exact .inl rfl
  split
  · exact .inr rfl
  right
  cases d.object? (here ++ [n]) with
  | none => rfl
  | some o =>
    cases o with
    | link target =>
      dsimp only
      split <;> rfl
    | file data mode => rfl
    | directory => rfl

theorem walk_write_cons (links : Nat) (here : Location) (n : Bytes) (rest : List Bytes) :
    d.walk .write links here (n :: rest) = .error .isADirectory ∨
    d.walk .write links here (n :: rest) =
      match d.next here n with
      | .stopped e => .error e
      | .missing loc => if rest = [] then .ok (.vacant loc) else .error .notFound
      | .on there => d.walk .write links there rest
      | .link there more =>
        match links with
        | 0 => .error .tooManyLinks
        | links + 1 => d.walk .write links there (more ++ rest) := by
  cases links with
  | zero => exact walkUntilLink_write_cons _ n rest
  | succ links => exact walkUntilLink_write_cons _ n rest

theorem walk_find_of_write {steps : List Bytes} {place : Place}
    (h : d.walk .write links here steps = .ok place) : d.walk .find links here steps = .ok place := by
  induction links, steps using walk_induction generalizing here with
  | nil links =>
    rw [walk_nil, ← h]
    cases links <;> rfl
  | cons links n rest ih ihlink =>
    rcases walk_write_cons (d := d) links here n rest with hstop | hstep
    · cases h.symm.trans hstop
    rw [hstep] at h
    rw [walk_cons]
    cases hnext : d.next here n with
    | stopped e => simp [hnext] at h
    | missing l => simpa only [hnext] using h
    | on l =>
      simp only [hnext] at h
      exact ih h
    | link l more =>
      simp only [hnext] at h
      cases links with
      | zero => cases h
      | succ links => exact ihlink links (Nat.lt_succ_self links) _ h

theorem object?_of_vacant {steps : List Bytes}
    (h : d.walk .find links here steps = .ok (.vacant loc)) : d.object? loc = none := by
  induction links, steps using walk_induction generalizing here with
  | nil links =>
    rw [walk_nil] at h
    cases h
  | cons links n rest ih ihlink =>
    rw [walk_cons] at h
    cases hnext : d.next here n with
    | stopped e => simp [hnext] at h
    | missing l =>
      simp only [hnext] at h
      split at h
      · cases h
        have hmissing := d.next_spec here n
        rw [hnext] at hmissing
        exact hmissing.2
      · cases h
    | on l =>
      simp only [hnext] at h
      exact ih h
    | link l more =>
      simp only [hnext] at h
      cases links with
      | zero => cases h
      | succ links => exact ihlink links (Nat.lt_succ_self links) _ h

/-! Whole paths. -/

theorem locate_eq_ok_iff {purpose : Purpose} {place : Place} :
    d.locate purpose p = .ok place ↔ (0 : UInt8) ∉ p.bytes ∧ p.bytes ≠ [] ∧ p.bytes.length < pathMax ∧
      d.walk purpose linkMax [] (steps p) = .ok place := by
  unfold locate
  split
  · simp [*]
  split
  · simp [*]
  split
  · simp [*]
  · simp [*, Nat.not_le.mp]

theorem resolve_of_locate (h : d.locate .find p = .ok (.found loc)) : d.resolve p = .ok loc := by
  rw [resolve_eq, h]
  rfl

theorem locate_of_resolve (h : d.resolve p = .ok loc) : d.locate .find p = .ok (.found loc) := by
  rw [resolve_eq, Except.bind_eq_ok_iff] at h
  obtain ⟨place, hplace, h⟩ := h
  cases place with
  | found there =>
    cases h
    exact hplace
  | vacant => contradiction

structure Holds (d : Disk) (p : Path) (loc : Location) (data : Bytes) (mode : Nat) : Prop where
  resolve : d.resolve p = .ok loc
  object : d.object? loc = some (.file data mode)

variable {data : Bytes} {mode : Nat}

theorem Holds.read (h : d.Holds p loc data mode) : d.read p = .ok data :=
  read_eq_ok_iff.mpr ⟨loc, mode, h.resolve, h.object⟩

theorem Holds.stat (h : d.Holds p loc data mode) : d.stat p = .ok ⟨false, data.length, mode⟩ := by
  unfold Disk.stat
  rw [h.resolve, Except.bind_ok, h.object]
  rfl

theorem Holds.contains (h : d.Holds p loc data mode) : d.contains p = true := by
  unfold Disk.contains
  rw [h.stat]

theorem holds_set (hfree : d.FreeForFile loc)
    (h : d.locate .find p = .ok (.found loc) ∨ d.locate .find p = .ok (.vacant loc)) (data : Bytes)
    (mode : Nat) : (d.set loc (.file data mode)).Holds p loc data mode := by
  refine ⟨resolve_of_locate ?_, ?_⟩
  · rcases h with h | h
    · obtain ⟨hnul, hne, hshort, hwalk⟩ := locate_eq_ok_iff.mp h
      exact locate_eq_ok_iff.mpr ⟨hnul, hne, hshort, hfree.walk_set data mode (.inl hwalk)⟩
    · obtain ⟨hnul, hne, hshort, hwalk⟩ := locate_eq_ok_iff.mp h
      exact locate_eq_ok_iff.mpr ⟨hnul, hne, hshort, hfree.walk_set data mode (.inr ⟨rfl, hwalk⟩)⟩
  · rw [object?_set hfree.ne_root, if_pos rfl]

/-- One location has the file afterwards. Nothing was there, or a file that the path led to. -/
theorem write_spec (h : d.write p data = .ok d') :
    ∃ loc mode, (d.object? loc = none ∨ ∃ old, d.Holds p loc old mode) ∧ loc ≠ [] ∧
      d' = d.set loc (.file data mode) ∧ d'.Holds p loc data mode := by
  unfold write at h
  obtain ⟨place, hplace, h⟩ := Except.bind_eq_ok_iff.mp h
  obtain ⟨hnul, hne, hshort, hwalk⟩ := locate_eq_ok_iff.mp hplace
  have hfind := walk_find_of_write hwalk
  have hlocate := locate_eq_ok_iff.mpr ⟨hnul, hne, hshort, hfind⟩
  cases place with
  | vacant loc =>
    have hnone := object?_of_vacant hfind
    have hfree : d.FreeForFile loc := .inl hnone
    obtain rfl : d.set loc (.file data 0o644) = d' := Except.ok.inj h
    exact ⟨loc, 0o644, .inl hnone, hfree.ne_root, rfl, holds_set hfree (.inr hlocate) data 0o644⟩
  | found loc =>
    dsimp only at h
    split at h
    · rename_i old mode hobject
      have hfree : d.FreeForFile loc := .inr ⟨old, mode, hobject⟩
      obtain rfl : d.set loc (.file data mode) = d' := Except.ok.inj h
      exact ⟨loc, mode, .inr ⟨old, resolve_of_locate hlocate, hobject⟩, hfree.ne_root, rfl,
        holds_set hfree (.inl hlocate) data mode⟩
    · contradiction

theorem setMode_spec {old : Nat} (hold : d.Holds p loc data old) (h : d.setMode p mode = .ok d') :
    d' = d.set loc (.file data mode) ∧ d'.Holds p loc data mode := by
  unfold setMode at h
  rw [hold.resolve, Except.bind_ok, hold.object] at h
  have hfree : d.FreeForFile loc := .inr ⟨data, old, hold.object⟩
  obtain rfl : d.set loc (.file data mode) = d' := Except.ok.inj h
  exact ⟨rfl, holds_set hfree (.inl (locate_of_resolve hold.resolve)) data mode⟩

end TreeShare.Disk

/-! Computations on a disk. -/
namespace TreeShare.OnDisk

variable {ε ε' α β : Type} {x : OnDisk ε α} {d d' : Disk}

def outcome (x : OnDisk ε α) (d : Disk) : Except ε α × Disk := x d

@[simp] theorem outcome_pure (a : α) : (pure a : OnDisk ε α).outcome d = (.ok a, d) := rfl

@[simp] theorem outcome_liftM (r : Except ε α) : (liftM r : OnDisk ε α).outcome d = (r, d) := rfl

theorem outcome_bind (f : α → OnDisk ε β) : (x >>= f).outcome d =
    match x.outcome d with
    | (.ok a, d₁) => (f a).outcome d₁
    | (.error e, d₁) => (.error e, d₁) := by
  change ExceptT.bindCont f (x.outcome d).1 (x.outcome d).2 = _
  rcases x.outcome d with ⟨e | a, d₁⟩ <;> rfl

theorem bind_eq_ok_iff {f : α → OnDisk ε β} {b : β} :
    (x >>= f).outcome d = (.ok b, d') ↔
      ∃ a d₁, x.outcome d = (.ok a, d₁) ∧ (f a).outcome d₁ = (.ok b, d') := by
  rw [outcome_bind]
  rcases x.outcome d with ⟨e | a, d₁⟩ <;> simp

theorem outcome_bind_pure_snd (b : β) :
    ((x >>= fun _ => pure b : OnDisk ε β).outcome d).2 = (x.outcome d).2 := by
  rw [outcome_bind]
  generalize x.outcome d = r
  rcases r with ⟨e | a, d₁⟩ <;> rfl

theorem outcome_adapt_snd (f : ε → ε') :
    (outcome (ExceptT.adapt f x) d).2 = (x.outcome d).2 := rfl

theorem adapt_eq_ok_iff {f : ε → ε'} {a : α} :
    outcome (ExceptT.adapt f x) d = (.ok a, d') ↔ x.outcome d = (.ok a, d') := by
  change ((x.outcome d).1.mapError f, (x.outcome d).2) = _ ↔ _
  rcases x.outcome d with ⟨e | a, d₁⟩ <;> simp

theorem outcome_change (f : Disk → Except FileError Disk) : (change f).outcome d =
    match f d with
    | .ok d₁ => (.ok (), d₁)
    | .error e => (.error e, d) := rfl

theorem change_eq_ok_iff {f : Disk → Except FileError Disk} :
    (change f).outcome d = (.ok (), d') ↔ f d = .ok d' := by
  rw [outcome_change]
  cases f d <;> simp

end TreeShare.OnDisk
