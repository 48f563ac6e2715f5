import TreeShare.Bytes

/-! Names in the order of their bytes. -/
namespace TreeShare.Bytes

def insertInOrder (n : Bytes) : List Bytes → List Bytes
  | [] => [n]
  | m :: ms => if n ≤ m then n :: m :: ms else m :: insertInOrder n ms

def inOrder : List Bytes → List Bytes
  | [] => []
  | n :: ns => insertInOrder n (inOrder ns)

theorem insertInOrder_perm (n : Bytes) (ms : List Bytes) :
    (insertInOrder n ms).Perm (n :: ms) := by
  induction ms with
  | nil => exact .refl _
  | cons m ms ih =>
    unfold insertInOrder
    split
    · exact .refl _
    · exact (ih.cons m).trans (.swap n m ms)

theorem inOrder_perm (ns : List Bytes) : (inOrder ns).Perm ns := by
  induction ns with
  | nil => exact .refl _
  | cons n ns ih => exact (insertInOrder_perm n _).trans (ih.cons n)

theorem pairwise_insertInOrder {n : Bytes} {ms : List Bytes} (h : ms.Pairwise (· ≤ ·)) :
    (insertInOrder n ms).Pairwise (· ≤ ·) := by
  induction ms with
  | nil => simp [insertInOrder]
  | cons m ms ih =>
    obtain ⟨hm, hms⟩ := List.pairwise_cons.mp h
    unfold insertInOrder
    split
    · rename_i hle
      refine List.pairwise_cons.mpr ⟨fun x hx => ?_, h⟩
      rcases List.mem_cons.mp hx with rfl | hx
      · exact hle
      · exact List.le_trans hle (hm x hx)
    · rename_i hle
      refine List.pairwise_cons.mpr ⟨fun x hx => ?_, ih hms⟩
      rcases List.mem_cons.mp ((insertInOrder_perm n ms).mem_iff.mp hx) with rfl | hx
      · exact (List.le_total x m).resolve_left hle
      · exact hm x hx

theorem pairwise_inOrder (ns : List Bytes) : (inOrder ns).Pairwise (· ≤ ·) := by
  induction ns with
  | nil => exact .nil
  | cons n ns ih => exact pairwise_insertInOrder ih

theorem eq_inOrder {ns ms : List Bytes} (hperm : ns.Perm ms) (h : ns.Pairwise (· ≤ ·)) :
    ns = inOrder ms :=
  List.Perm.eq_of_pairwise (fun _ _ _ _ => List.le_antisymm) h (pairwise_inOrder ms)
    (hperm.trans (inOrder_perm ms).symm)

end TreeShare.Bytes
