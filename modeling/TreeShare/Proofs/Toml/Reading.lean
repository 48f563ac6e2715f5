import Mathlib.Data.List.TakeDrop
import TreeShare.Toml.Reader

/-! What readers do with a text of which the start is known. -/
namespace TreeShare.Toml.Reader

variable {α β : Type} {r s : Reader α} {f : α → Reader β} {a : α} {input middle rest : List Char}

theorem bind_some (h : r input = some (a, rest)) (f : α → Reader β) : (r >>= f) input = f a rest := by
  change (r input).bind _ = _
  rw [h]
  rfl

theorem bind_none (h : r input = none) (f : α → Reader β) : (r >>= f) input = none := by
  change (r input).bind _ = _
  rw [h]
  rfl

theorem bind_none_of_left (h : ∀ a left, r input = some (a, left) → f a left = none) :
    (r >>= f) input = none := by
  cases hr : r input with
  | none => exact bind_none hr f
  | some read => exact (bind_some hr f).trans (h _ _ hr)

theorem or_some (h : r input = some (a, rest)) (s : Reader α) : (r <|> s) input = some (a, rest) := by
  change (r input <|> s input) = _
  rw [h]
  rfl

theorem or_none (h : r input = none) (s : Reader α) : (r <|> s) input = s input := by
  change (r input <|> s input) = _
  rw [h]
  rfl

theorem or_assoc (r s t : Reader α) (input : List Char) :
    (r <|> s <|> t) input = ((r <|> s) <|> t) input := by
  change (r input <|> (s input <|> t input)) = ((r input <|> s input) <|> t input)
  cases r input <;> rfl

theorem maybe_some (h : r input = some (a, rest)) : maybe r input = some (some a, rest) := by
  unfold maybe
  rw [h]

theorem maybe_none (h : r input = none) : maybe r input = some (none, input) := by
  unfold maybe
  rw [h]

theorem discard_some (h : r input = some (a, rest)) : (discard r : Reader PUnit) input = some ((), rest) := by
  change (r input).bind _ = _
  rw [h]
  rfl

theorem exactly_append (w rest : List Char) : exactly w (w ++ rest) = some ((), rest) := by
  unfold exactly
  rw [if_pos (List.isPrefixOf_iff_prefix.mpr (List.prefix_append w rest)), List.drop_left]

theorem one_cons {p : Char → Bool} {c : Char} (hc : p c = true) (rest : List Char) :
    one p (c :: rest) = some (c, rest) :=
  if_pos hc

theorem one_cons_none {p : Char → Bool} {c : Char} (hc : p c = false) (rest : List Char) :
    one p (c :: rest) = none :=
  if_neg (by simp [hc])

theorem exactly_cons_none {c d : Char} (h : c ≠ d) (w rest : List Char) :
    exactly (c :: w) (d :: rest) = none := by
  unfold exactly
  rw [if_neg (by simp [List.isPrefixOf, h])]

theorem exactly_none {w : List Char} (h : ¬ w <+: input) : exactly w input = none :=
  if_neg fun hprefix => h (List.isPrefixOf_iff_prefix.mp hprefix)

def Ends (p : Char → Bool) (rest : List Char) : Prop := ∀ c ∈ rest.head?, p c = false

theorem run_append {p : Char → Bool} {cs : List Char} (hcs : ∀ c ∈ cs, p c = true) (hrest : Ends p rest) :
    run p (cs ++ rest) = some (cs, rest) := by
  have htake : rest.takeWhile p = [] := by
    cases rest with
    | nil => rfl
    | cons c rest => exact List.takeWhile_cons_of_neg (by simp [hrest c rfl])
  have hdrop : rest.dropWhile p = rest := by
    cases rest with
    | nil => rfl
    | cons c rest => exact List.dropWhile_cons_of_neg (by simp [hrest c rfl])
  unfold run
  rw [List.span_eq_takeWhile_dropWhile, List.takeWhile_append_of_pos hcs, List.dropWhile_append_of_pos hcs,
    htake, hdrop, List.append_nil]

/-- One reading after another, up to the first that fails. -/
inductive Reads (r : Reader α) : List Char → List α → List Char → Prop
  | stop {input : List Char} (h : r input = none) : Reads r input [] input
  | more {input middle rest : List Char} {a : α} {as : List α} (first : r input = some (a, middle))
      (shorter : middle.length < input.length) (later : Reads r middle as rest) : Reads r input (a :: as) rest

theorem Reads.many {as : List α} (h : Reads r input as rest) : many r input = some (as, rest) := by
  suffices ∀ limit, input.length ≤ limit → upTo r limit input = some (as, rest) from this _ (Nat.le_refl _)
  induction h with
  | @stop input h =>
    intro limit _
    cases limit with
    | zero => rfl
    | succ limit => exact bind_some (maybe_none h) _
  | @more input middle rest a as first shorter later ih =>
    intro limit hlimit
    cases limit with
    | zero => omega
    | succ limit =>
      refine (bind_some (maybe_some first) _).trans ?_
      exact bind_some (ih limit (by omega)) _

end TreeShare.Toml.Reader
