import TreeShare.Toml.Document

/-! Integers in documents. Each is read as a number of 64 bits with a sign, and filling tables moves values
about without making any. Main statement: `parse_bounded`. -/
namespace TreeShare.Toml

/-! What a reader can give. -/

namespace Reader

variable {α β : Type} {r s : Reader α} {P : α → Prop} {Q : β → Prop}

def Gives (r : Reader α) (P : α → Prop) : Prop := ∀ input a rest, r input = some (a, rest) → P a

theorem gives_true (r : Reader α) : r.Gives fun _ => True := fun _ _ _ _ => trivial

theorem gives_fail : (fail : Reader α).Gives P := fun _ _ _ h => nomatch h

theorem gives_pure {a : α} (h : P a) : (pure a : Reader α).Gives P := by
  intro input b rest hb
  cases hb
  exact h

theorem Gives.bind {f : α → Reader β} (h : r.Gives P) (hf : ∀ a, P a → (f a).Gives Q) :
    (r >>= f).Gives Q := by
  intro input b rest hb
  obtain ⟨⟨a, left⟩, ha, hb⟩ := Option.bind_eq_some_iff.mp hb
  exact hf a (h _ _ _ ha) _ _ _ hb

theorem Gives.after {f : α → Reader β} (hf : ∀ a, (f a).Gives Q) : (r >>= f).Gives Q :=
  (gives_true r).bind fun a _ => hf a

theorem Gives.or (hr : r.Gives P) (hs : s.Gives P) : (r <|> s).Gives P := by
  intro input a rest h
  have hor : (r <|> s) input = (r input).orElse fun _ => s input := by
    show (r input <|> s input) = _
    cases r input <;> rfl
  rw [hor] at h
  cases hfirst : r input with
  | none => exact hs _ _ _ (by rwa [hfirst] at h)
  | some x => exact hr _ _ _ (by rwa [hfirst] at h ⊢)

theorem Gives.maybe (h : r.Gives P) : (maybe r).Gives fun o => ∀ a, o = some a → P a := by
  intro input o rest ho a ha
  unfold Reader.maybe at ho
  split at ho
  · rename_i hr
    cases ho
    cases ha
    exact h _ _ _ hr
  · cases ho
    cases ha

theorem Gives.upTo (h : r.Gives P) (limit : Nat) : (upTo r limit).Gives fun as => ∀ a ∈ as, P a := by
  induction limit with
  | zero => exact gives_pure (by simp)
  | succ limit ih =>
    refine h.maybe.bind fun o ho => ?_
    cases o with
    | none => exact gives_pure (by simp)
    | some a => exact ih.bind fun as has => gives_pure (List.forall_mem_cons.mpr ⟨ho a rfl, has⟩)

theorem Gives.many (h : r.Gives P) : (many r).Gives fun as => ∀ a ∈ as, P a :=
  fun input => h.upTo input.length input

theorem Gives.separated1 (h : r.Gives P) (separator : Reader Unit) :
    (separated1 r separator).Gives fun as => ∀ a ∈ as, P a := by
  refine h.bind fun a ha => ?_
  have hmore : (separator *> r).Gives P := Gives.after fun _ => h
  exact hmore.many.bind fun as has => gives_pure (List.forall_mem_cons.mpr ⟨ha, has⟩)

theorem Gives.separated (h : r.Gives P) (separator : Reader Unit) :
    (separated r separator).Gives fun as => ∀ a ∈ as, P a := by
  refine (h.separated1 separator).maybe.bind fun o ho => gives_pure ?_
  cases o with
  | none => simp
  | some as => exact ho as rfl

theorem Gives.of_all (h : r.Gives P) {text : String} {a : α} (ha : r.all text = some a) : P a := by
  unfold Reader.all at ha
  split at ha
  · rename_i hr
    cases ha
    exact h _ _ _ hr
  · contradiction

end Reader

open Reader

def IsInt64 (n : Int) : Prop := -9223372036854775808 ≤ n ∧ n < 9223372036854775808

instance : DecidablePred IsInt64 :=
  fun n => inferInstanceAs (Decidable (-9223372036854775808 ≤ n ∧ n < 9223372036854775808))

theorem bounded_gives (n : Int) : (bounded n).Gives IsInt64 := by
  unfold bounded
  split
  · exact gives_pure ‹_›
  · exact gives_fail

theorem integerValue_gives : integerValue.Gives IsInt64 := by
  have hradix (mark : String) (radix : Nat) : (radixInteger mark radix).Gives IsInt64 :=
    Gives.after fun _ => Gives.after fun _ => bounded_gives _
  have hdecimal : decimalInteger.Gives IsInt64 :=
    Gives.after fun _ => Gives.after fun _ => bounded_gives _
  exact (hradix "0x" 16).or ((hradix "0o" 8).or ((hradix "0b" 2).or hdecimal))

inductive Value.Bounded : Value → Prop
  | text (s : String) : Bounded (.text s)
  | integer {n : Int} (bound : IsInt64 n) : Bounded (.integer n)
  | float : Bounded .float
  | boolean (b : Bool) : Bounded (.boolean b)
  | moment : Bounded .moment
  | list {items : List Value} (bounded : ∀ v ∈ items, Bounded v) : Bounded (.list items)
  | table {origin : Origin} {rows : Rows} (bounded : ∀ row ∈ rows, Bounded row.2) :
      Bounded (.table origin rows)
  | tables {items : List Rows} (bounded : ∀ rows ∈ items, ∀ row ∈ rows, Bounded row.2) :
      Bounded (.tables items)

/-! Filling tables. -/

namespace Rows

def Bounded (rows : Rows) : Prop := ∀ row ∈ rows, row.2.Bounded

variable {rows rows' : Rows} {key : String} {v : Value}

theorem bounded_nil : Bounded [] := by
  simp [Bounded]

theorem Bounded.concat (h : Bounded rows) (hv : v.Bounded) : Bounded (rows ++ [(key, v)]) := by
  intro row hrow
  rcases List.mem_append.mp hrow with hrow | hrow
  · exact h row hrow
  · cases List.mem_singleton.mp hrow
    exact hv

theorem Bounded.set (h : Bounded rows) (hv : v.Bounded) : Bounded (rows.set key v) := by
  induction rows with
  | nil => exact List.forall_mem_singleton.mpr hv
  | cons row rows ih =>
    obtain ⟨hrow, hrows⟩ := List.forall_mem_cons.mp h
    unfold Rows.set
    split
    · exact List.forall_mem_cons.mpr ⟨hv, hrows⟩
    · exact List.forall_mem_cons.mpr ⟨hrow, ih hrows⟩

theorem Bounded.lookup (h : Bounded rows) (hv : rows.lookup key = some v) : v.Bounded := by
  obtain ⟨before, after, hrows, -⟩ := List.lookup_eq_some_iff.mp hv
  exact h (key, v) (by rw [hrows]; simp)

theorem Bounded.change {made : Origin} {f : Origin → Rows → Option Rows}
    (hf : ∀ origin rows rows', Bounded rows → f origin rows = some rows' → Bounded rows')
    {path : List String} {origin : Origin} (h : Bounded rows)
    (hchange : Rows.change made path f origin rows = some rows') : Bounded rows' := by
  induction path generalizing origin rows rows' with
  | nil => exact hf _ _ _ h hchange
  | cons key path ih =>
    unfold Rows.change at hchange
    split at hchange
    · obtain ⟨inner, hinner, hrows⟩ := Option.bind_eq_some_iff.mp hchange
      cases hrows
      exact h.set (.table (ih bounded_nil hinner))
    · contradiction
    · rename_i hlookup
      split at hchange
      · contradiction
      · obtain ⟨inner, hinner, hrows⟩ := Option.bind_eq_some_iff.mp hchange
        cases hrows
        cases h.lookup hlookup with
        | table hbefore => exact h.set (.table (ih hbefore hinner))
    · rename_i items hlookup
      split at hchange
      · rename_i last hlast
        obtain ⟨inner, hinner, hrows⟩ := Option.bind_eq_some_iff.mp hchange
        cases hrows
        cases h.lookup hlookup with
        | tables hitems =>
          have hlast' := hitems last (List.mem_of_getLast? hlast)
          refine h.set (.tables fun rows hrows => ?_)
          rcases List.mem_append.mp hrows with hrows | hrows
          · exact hitems rows (List.dropLast_subset _ hrows)
          · cases List.mem_singleton.mp hrows
            exact ih hlast' hinner
      · contradiction
    · contradiction

theorem Bounded.insert {path : List String} {origin : Origin} (hv : v.Bounded) (h : Bounded rows)
    (hinsert : Rows.insert path key v origin rows = some rows') : Bounded rows' := by
  refine h.change (fun origin rows rows' h hrows => ?_) hinsert
  split at hrows
  · contradiction
  · cases hrows
    exact h.concat hv

end Rows

/-! Values and lines. -/

theorem scalar_gives : scalar.Gives Value.Bounded := by
  have htext : (do pure (.text (← textValue)) : Reader Value).Gives Value.Bounded :=
    Gives.after fun s => gives_pure (.text s)
  have hmoment : (do momentValue; pure .moment : Reader Value).Gives Value.Bounded :=
    Gives.after fun _ => gives_pure .moment
  have hfloat : (do floatValue; pure .float : Reader Value).Gives Value.Bounded :=
    Gives.after fun _ => gives_pure .float
  have hinteger : (do pure (.integer (← integerValue)) : Reader Value).Gives Value.Bounded :=
    integerValue_gives.bind fun _ hn => gives_pure (.integer hn)
  have hflag : (do pure (.boolean (← flag)) : Reader Value).Gives Value.Bounded :=
    Gives.after fun b => gives_pure (.boolean b)
  exact htext.or (hmoment.or (hfloat.or (hinteger.or hflag)))

theorem listOf_gives {item : Reader Value} (h : item.Gives Value.Bounded) :
    (listOf item).Gives Value.Bounded := by
  have hitem : (do gap; let v ← item; gap; pure v : Reader Value).Gives Value.Bounded :=
    Gives.after fun _ => h.bind fun v hv => Gives.after fun _ => gives_pure hv
  refine Gives.after fun _ => (hitem.separated _).bind fun items hitems => ?_
  dsimp only
  split
  · exact Gives.after fun _ => Gives.after fun _ => Gives.after fun _ => gives_pure (.list hitems)
  · exact Gives.after fun _ => Gives.after fun _ => gives_pure (.list hitems)

theorem foldlM_invariant {α β : Type} {I : β → Prop} {f : β → α → Option β} {as : List α}
    (hf : ∀ b a b', a ∈ as → I b → f b a = some b' → I b') {b b' : β} (hb : I b)
    (h : as.foldlM f b = some b') : I b' := by
  induction as generalizing b with
  | nil =>
    cases h
    exact hb
  | cons a as ih =>
    obtain ⟨middle, hmiddle, h⟩ := Option.bind_eq_some_iff.mp h
    exact ih (fun b a b' ha => hf b a b' (List.mem_cons_of_mem _ ha))
      (hf _ _ _ List.mem_cons_self hb hmiddle) h

theorem tableOf_gives {item : Reader Value} (h : item.Gives Value.Bounded) :
    (tableOf item).Gives Value.Bounded := by
  have hpair : (do let key ← dottedKey; word "="; blanks; let v ← item; blanks; pure (key, v) :
      Reader ((List String × String) × Value)).Gives fun pair => pair.2.Bounded :=
    Gives.after fun _ => Gives.after fun _ => Gives.after fun _ => h.bind fun v hv =>
      Gives.after fun _ => gives_pure hv
  refine Gives.after fun _ => (hpair.separated _).bind fun pairs hpairs => ?_
  refine Gives.after fun _ => Gives.after fun _ => ?_
  split
  · rename_i hrows
    have hbounded := foldlM_invariant
      (fun rows pair rows' hpair hrows => Rows.Bounded.insert (hpairs pair hpair) hrows)
      Rows.bounded_nil hrows
    exact gives_pure (.table hbounded)
  · exact gives_fail

theorem valueWithin_gives (depth : Nat) : (valueWithin depth).Gives Value.Bounded := by
  induction depth with
  | zero => exact scalar_gives
  | succ depth ih => exact (listOf_gives ih).or ((tableOf_gives ih).or scalar_gives)

def Line.Bounded : Line → Prop
  | .pair _ _ v => v.Bounded
  | _ => True

theorem line_gives : line.Gives Line.Bounded := by
  have hblank : blankLine.Gives Line.Bounded := Gives.after fun _ => gives_pure trivial
  have hlist : listHeaderLine.Gives Line.Bounded :=
    Gives.after fun _ => Gives.after fun _ => Gives.after fun _ => Gives.after fun _ => gives_pure trivial
  have hheader : headerLine.Gives Line.Bounded :=
    Gives.after fun _ => Gives.after fun _ => Gives.after fun _ => Gives.after fun _ => gives_pure trivial
  have hpair : pairLine.Gives Line.Bounded :=
    Gives.after fun _ => Gives.after fun _ => Gives.after fun _ =>
      (valueWithin_gives _).bind fun v hv => Gives.after fun _ => gives_pure hv
  exact (hblank.or (hlist.or (hheader.or hpair))).bind fun l hl => Gives.after fun _ => gives_pure hl

theorem Progress.bounded_read {p p' : Progress} {l : Line} (hl : l.Bounded) (h : p.rows.Bounded)
    (hread : p.read l = some p') : p'.rows.Bounded := by
  cases l with
  | blank =>
    cases hread
    exact h
  | pair path key v =>
    obtain ⟨rows, hrows, hp⟩ := Option.bind_eq_some_iff.mp hread
    cases hp
    exact h.change (fun _ _ _ h => Rows.Bounded.insert hl h) hrows
  | header path key =>
    obtain ⟨rows, hrows, hp⟩ := Option.bind_eq_some_iff.mp hread
    cases hp
    refine h.change (fun origin rows rows' h hopen => ?_) hrows
    unfold openTable at hopen
    split at hopen
    · cases hopen
      exact h.concat (.table Rows.bounded_nil)
    · rename_i hlookup
      cases hopen
      cases h.lookup hlookup with
      | table hinner => exact h.set (.table hinner)
    · contradiction
  | listHeader path key =>
    obtain ⟨rows, hrows, hp⟩ := Option.bind_eq_some_iff.mp hread
    cases hp
    refine h.change (fun origin rows rows' h hopen => ?_) hrows
    unfold openItem at hopen
    split at hopen
    · cases hopen
      exact h.concat (.tables (by simp))
    · rename_i items hlookup
      cases hopen
      cases h.lookup hlookup with
      | tables hitems =>
        refine h.set (.tables fun rows hrows => ?_)
        rcases List.mem_append.mp hrows with hrows | hrows
        · exact hitems rows hrows
        · cases List.mem_singleton.mp hrows
          exact Rows.bounded_nil
    · contradiction

/-- No document has an integer of more than 64 bits. -/
theorem parse_bounded {text : String} {v : Value} (h : parse text = some v) : v.Bounded := by
  obtain ⟨ls, hls, h⟩ := Option.bind_eq_some_iff.mp h
  obtain ⟨p, hp, h⟩ := Option.bind_eq_some_iff.mp h
  cases h
  have hlines : lines.Gives fun ls => ∀ l ∈ ls, l.Bounded :=
    Gives.after fun _ => Gives.after fun _ => line_gives.many
  have hbounded := hlines.of_all hls
  exact .table (foldlM_invariant (I := fun p : Progress => p.rows.Bounded)
    (fun p l p' hl hp => Progress.bounded_read (hbounded l hl) hp) Rows.bounded_nil hp)

end TreeShare.Toml
