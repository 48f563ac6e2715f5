/-! Finite maps that remember the order in which their keys came. -/
namespace TreeShare

structure Table (κ α : Type) where
  rows : List (κ × α)
deriving DecidableEq

namespace Table

variable {κ α : Type} [DecidableEq κ]

def empty : Table κ α := ⟨[]⟩

def get? (t : Table κ α) (k : κ) : Option α := t.rows.lookup k

def contains (t : Table κ α) (k : κ) : Bool := (t.get? k).isSome

def keys (t : Table κ α) : List κ := t.rows.map Prod.fst

/-- Replaces the value of a key in its place, or adds the key at the end. -/
def setRows (k : κ) (v : α) : List (κ × α) → List (κ × α)
  | [] => [(k, v)]
  | r :: rows => if r.1 = k then (k, v) :: rows else r :: setRows k v rows

def set (t : Table κ α) (k : κ) (v : α) : Table κ α := ⟨setRows k v t.rows⟩

def erase (t : Table κ α) (k : κ) : Table κ α := ⟨t.rows.filter (·.1 ≠ k)⟩

def size (t : Table κ α) : Nat := t.rows.length

@[simp] theorem get?_empty (k : κ) : (empty : Table κ α).get? k = none := rfl

theorem lookup_cons (k l : κ) (v : α) (rows : List (κ × α)) :
    ((l, v) :: rows).lookup k = if k = l then some v else rows.lookup k := by
  rw [List.lookup_cons]
  by_cases h : k = l
  · simp [h]
  · have hb : (k == l) = false := by simpa using h
    simp [hb, h]

theorem lookup_setRows (k l : κ) (v : α) (rows : List (κ × α)) :
    (setRows k v rows).lookup l = if l = k then some v else rows.lookup l := by
  induction rows with
  | nil => simp [setRows, lookup_cons]
  | cons r rows ih =>
    obtain ⟨m, w⟩ := r
    by_cases hm : m = k <;> by_cases hl : l = k <;> grind [setRows, lookup_cons]

@[simp] theorem get?_set (t : Table κ α) (k l : κ) (v : α) :
    (t.set k v).get? l = if l = k then some v else t.get? l :=
  lookup_setRows k l v t.rows

@[simp] theorem get?_erase (t : Table κ α) (k l : κ) :
    (t.erase k).get? l = if l = k then none else t.get? l := by
  obtain ⟨rows⟩ := t
  simp only [get?, erase]
  induction rows with
  | nil => simp
  | cons r rows ih =>
    obtain ⟨m, w⟩ := r
    by_cases hm : m = k <;> grind [lookup_cons]

theorem isSome_get?_iff {t : Table κ α} {k : κ} : (t.get? k).isSome ↔ ∃ v, (k, v) ∈ t.rows := by
  unfold get?
  rw [List.lookup_isSome_iff]
  constructor
  · rintro ⟨row, hrow, hkey⟩
    cases eq_of_beq hkey
    exact ⟨row.2, hrow⟩
  · rintro ⟨v, hrow⟩
    exact ⟨(k, v), hrow, beq_self_eq_true k⟩

theorem mem_rows_of_get? {t : Table κ α} {k : κ} {v : α} (h : t.get? k = some v) : (k, v) ∈ t.rows := by
  obtain ⟨before, after, hrows, -⟩ := List.lookup_eq_some_iff.mp h
  rw [hrows]
  simp

end Table
end TreeShare
