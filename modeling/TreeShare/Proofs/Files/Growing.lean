import TreeShare.Proofs.Files.Writing

/-! Directories that are made on the way to a file. They are all that is new, so where neither the path nor
a link goes back up, a path that leads to an old object leads there through old objects. Main statements:
`growing_ensureDirectories`, `Grown.resolve`, `Grown.write_spec`. -/
namespace TreeShare

namespace Disk

variable {d d' d'' : Disk} {p : Path} {loc : Location}

/-- Whatever is there is there afterwards, unchanged. -/
def Keeps (d d' : Disk) : Prop := ∀ loc o, d.object? loc = some o → d'.object? loc = some o

/-- Nothing but directories is new. -/
def Grown (d d' : Disk) : Prop :=
  ∀ loc, d'.object? loc = d.object? loc ∨ d.object? loc = none ∧ d'.object? loc = some .directory

theorem Grown.refl (d : Disk) : d.Grown d := fun _ => .inl rfl

theorem Grown.trans (h : d.Grown d') (h' : d'.Grown d'') : d.Grown d'' := by
  intro loc
  rcases h' loc with heq | ⟨hnone, hnew⟩
  · rw [heq]
    exact h loc
  · rcases h loc with heq | ⟨-, hdir⟩
    · exact .inr ⟨heq ▸ hnone, hnew⟩
    · rw [hnone] at hdir
      contradiction

theorem Grown.keeps (h : d.Grown d') : d.Keeps d' := by
  intro loc o ho
  rcases h loc with heq | ⟨hnone, -⟩
  · rw [heq, ho]
  · rw [hnone] at ho
    contradiction

theorem makeDirectory_spec (h : d.makeDirectory p = .ok d') :
    ∃ loc, loc ≠ [] ∧ d.object? loc = none ∧ d' = d.set loc .directory := by
  have hmade : ∀ here name, (if !d.isDirectory here then Except.error FileError.notADirectory
      else if name.length > 255 then .error .nameTooLong
      else if name = Path.dot ∨ name = Path.dotDot ∨ (d.object? (here ++ [name])).isSome then
        .error .alreadyThere
      else .ok (d.set (here ++ [name]) .directory)) = .ok d' →
      ∃ loc, loc ≠ [] ∧ d.object? loc = none ∧ d' = d.set loc .directory := by
    intro here name h
    split at h
    · contradiction
    split at h
    · contradiction
    split at h
    · contradiction
    · rename_i hfree
      simp only [not_or, Option.not_isSome_iff_eq_none] at hfree
      exact ⟨here ++ [name], by simp, hfree.2.2, (Except.ok.inj h).symm⟩
  unfold makeDirectory at h
  split at h
  · rename_i parent name _ _
    by_cases hparent : parent.bytes = []
    · rw [if_pos hparent] at h
      exact hmade [] name h
    · rw [if_neg hparent] at h
      obtain ⟨here, -, h⟩ := Except.bind_eq_ok_iff.mp h
      exact hmade here name h
  · contradiction

theorem grown_of_makeDirectory (h : d.makeDirectory p = .ok d') : d.Grown d' := by
  obtain ⟨loc, hloc, hnone, rfl⟩ := makeDirectory_spec h
  intro there
  rw [object?_set hloc]
  split
  · rename_i hthere
    exact .inr ⟨hthere ▸ hnone, rfl⟩
  · exact .inl rfl

end Disk

namespace OnDisk

variable {ε ε' α β : Type}

def Growing (x : OnDisk ε α) : Prop := ∀ d : Disk, d.Grown (x.outcome d).2

theorem growing_pure (a : α) : Growing (pure a : OnDisk ε α) := Disk.Grown.refl

theorem Growing.bind {x : OnDisk ε α} {f : α → OnDisk ε β} (hx : x.Growing) (hf : ∀ a, (f a).Growing) :
    (x >>= f).Growing := by
  intro d
  have hgrown := hx d
  rw [outcome_bind]
  generalize x.outcome d = r at hgrown ⊢
  rcases r with ⟨e | a, d₁⟩
  · exact hgrown
  · exact hgrown.trans (hf a d₁)

theorem growing_get : Growing (get : OnDisk ε Disk) := Disk.Grown.refl

theorem growing_ensureDirectory (p : Path) : (ensureDirectory p).Growing := by
  intro d
  unfold outcome ensureDirectory
  split
  · exact Disk.grown_of_makeDirectory ‹_›
  · exact .refl d
  · exact .refl d

theorem growing_ensureBelow (depth : Nat) (p : Path) : (ensureBelow depth p).Growing := by
  induction depth generalizing p with
  | zero => exact growing_ensureDirectory p
  | succ depth ih =>
    unfold ensureBelow
    refine growing_get.bind fun d => ?_
    split
    · split
      · exact (ih _).bind fun _ => growing_ensureDirectory p
      · exact growing_ensureDirectory p
    · exact growing_ensureDirectory p

theorem growing_ensureDirectories (p : Path) : (ensureDirectories p).Growing := by
  unfold ensureDirectories
  split
  · exact growing_pure ()
  · exact growing_ensureBelow _ p

def ensureParent (p : Path) : OnDisk FileError Unit :=
  match p.parent? with
  | some parent => ensureDirectories parent
  | none => pure ()

theorem growing_ensureParent (p : Path) : (ensureParent p).Growing := by
  unfold ensureParent
  split
  · exact growing_ensureDirectories _
  · exact growing_pure ()

end OnDisk

namespace Disk

variable {d d' : Disk} {p : Path} {here loc there : Location}

def Rooted (d : Disk) : Prop :=
  ∀ loc n, d.object? (loc ++ [n]) ≠ none → d.object? loc = some .directory

/-- Neither the path nor a link goes back up. -/
structure Straight (d : Disk) (p : Path) : Prop where
  path : Path.dotDot ∉ steps p
  link : ∀ loc target, d.object? loc = some (.link target) → Path.dotDot ∉ steps target

theorem Grown.object?_eq (h : d.Grown d') (hloc : d.object? loc ≠ none) :
    d'.object? loc = d.object? loc :=
  (h loc).resolve_right fun hnew => hloc hnew.1

theorem Grown.isDirectory_eq (h : d.Grown d') (hloc : d.object? loc ≠ none) :
    d'.isDirectory loc = d.isDirectory loc := by
  unfold isDirectory
  rw [h.object?_eq hloc]

theorem Grown.next_eq (h : d.Grown d') {n : Bytes} (hhere : d.object? here ≠ none)
    (hobject : d'.object? (here ++ [n]) = d.object? (here ++ [n])) :
    d'.next here n = d.next here n := by
  unfold next
  rw [h.isDirectory_eq hhere, hobject]

theorem Grown.next_on (h : d.Grown d') (hd : d.Rooted) {n : Bytes} (hn : n ≠ Path.dotDot)
    (hnext : d'.next here n = .on there) (hthere : d.object? there ≠ none) :
    d.object? here ≠ none ∧ d.next here n = .on there := by
  have hspec := d'.next_spec here n
  rw [hnext] at hspec
  obtain ⟨-, ⟨hdot, rfl⟩ | ⟨hdots, -⟩ | rfl⟩ := hspec
  · refine ⟨hthere, ?_⟩
    unfold next at hnext ⊢
    rw [if_pos hdot] at hnext ⊢
    rwa [h.isDirectory_eq hthere] at hnext
  · contradiction
  · have hhere : d.object? here ≠ none := by simp [hd here n hthere]
    exact ⟨hhere, (h.next_eq hhere (h.object?_eq hthere)).symm.trans hnext⟩

theorem Grown.next_link (h : d.Grown d') (hd : d.Rooted) {n : Bytes} {more : List Bytes}
    (hnext : d'.next here n = .link there more) :
    d.object? here ≠ none ∧ d.next here n = .link there more ∧
      ∃ target, d.object? (here ++ [n]) = some (.link target) ∧ more = steps target := by
  have hspec := d'.next_spec here n
  rw [hnext] at hspec
  obtain ⟨target, htarget, hmore⟩ := hspec
  have hold : d.object? (here ++ [n]) = some (.link target) := by
    rcases h (here ++ [n]) with heq | ⟨-, hdirectory⟩
    · rw [← heq, htarget]
    · rw [htarget] at hdirectory
      cases hdirectory
  have hhere : d.object? here ≠ none := by simp [hd here n (by simp [hold])]
  exact ⟨hhere, (h.next_eq hhere (htarget.trans hold.symm)).symm.trans hnext, target, hold, hmore⟩

theorem Grown.leads (h : d.Grown d') (hd : d.Rooted)
    (hlink : ∀ loc target, d.object? loc = some (.link target) → Path.dotDot ∉ steps target)
    {steps : List Bytes} (hsteps : Path.dotDot ∉ steps) {k : Nat} (hleads : d'.Leads here steps k loc)
    (hloc : d.object? loc ≠ none) : d.object? here ≠ none ∧ d.Leads here steps k loc := by
  induction hleads with
  | done here => exact ⟨hloc, .done here⟩
  | on hnext _ ih =>
    obtain ⟨hn, hrest⟩ := not_or.mp (mt List.mem_cons.mpr hsteps)
    obtain ⟨hthere, hleads⟩ := ih hrest hloc
    obtain ⟨hhere, hnext⟩ := h.next_on hd (Ne.symm hn) hnext hthere
    exact ⟨hhere, .on hnext hleads⟩
  | link hnext _ ih =>
    obtain ⟨-, hrest⟩ := not_or.mp (mt List.mem_cons.mpr hsteps)
    obtain ⟨hhere, hnext, target, htarget, rfl⟩ := h.next_link hd hnext
    have hmore : Path.dotDot ∉ Disk.steps target ++ _ :=
      mt List.mem_append.mp (not_or.mpr ⟨hlink _ target htarget, hrest⟩)
    exact ⟨hhere, .link hnext (ih hmore hloc).2⟩

/-- A file that was there before and is written now is one that the path led to before. -/
theorem Grown.resolve (h : d.Grown d') (hd : d.Rooted) (hp : d.Straight p)
    (hresolve : d'.resolve p = .ok loc) (hloc : d.object? loc ≠ none) : d.resolve p = .ok loc := by
  obtain ⟨k, hreaches⟩ := resolve_eq_ok_iff.mp hresolve
  have hleads := (h.leads hd hp.link hp.path hreaches.leads hloc).2
  exact resolve_eq_ok_iff.mpr ⟨k, { hreaches with leads := hleads }⟩

/-- A file that is written where the path led to nothing takes the place of nothing. -/
theorem Grown.write_spec (h : d.Grown d') (hd : d.Rooted) (hp : d.Straight p) (hfree : d.contains p = false)
    {data : Bytes} {d'' : Disk} (hwrite : d'.write p data = .ok d'') :
    ∃ loc mode, loc ≠ [] ∧ d.object? loc = none ∧ d'' = d'.set loc (.file data mode) ∧
      d''.Holds p loc data mode := by
  obtain ⟨loc, mode, hold, hloc, hset, hholds⟩ := Disk.write_spec hwrite
  refine ⟨loc, mode, hloc, ?_, hset, hholds⟩
  rcases hold with hnone | ⟨old, hholds⟩
  · rcases h loc with heq | ⟨hnone, -⟩
    · rw [← heq, hnone]
    · exact hnone
  -- The path led to this file before, unless it is new; but the path led to nothing.
  · by_contra hsome
    have hbefore : d.Holds p loc old mode :=
      ⟨h.resolve hd hp hholds.resolve hsome, (h.object?_eq hsome).symm.trans hholds.object⟩
    rw [hbefore.contains] at hfree
    contradiction

theorem keeps_set (hloc : loc ≠ []) (hnone : d.object? loc = none) (h : d.Keeps d') (o : FileObject) :
    d.Keeps (d'.set loc o) := by
  intro there old hold
  rw [object?_set hloc, if_neg (by rintro rfl; simp [hnone] at hold)]
  exact h there old hold

end Disk

theorem OnDisk.keeps_ensureParent_bind {α : Type} {d : Disk} {x : OnDisk FileError α}
    (h : ∀ d', d.Grown d' → d.Keeps (x.outcome d').2) (p : Path) :
    d.Keeps ((ensureParent p >>= fun _ => x).outcome d).2 := by
  have hgrown := growing_ensureParent p d
  rw [outcome_bind]
  generalize (ensureParent p).outcome d = made at hgrown ⊢
  rcases made with ⟨e | ⟨⟩, d'⟩
  · exact hgrown.keeps
  · exact h d' hgrown

end TreeShare
