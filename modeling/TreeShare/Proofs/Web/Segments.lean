import TreeShare.Proofs.Web.Percent
import TreeShare.Web.Url

/-! What a name does to the path of a URL that it is added to. It becomes one segment, unless it is made of
dots, and its segment tells it from other names but for the characters that are left out of URLs. Main
statements: `addSegment_eq`, `stepOf_eq_segment_iff`, `pathText_inj`. -/
namespace TreeShare.Web

namespace Url

/-! What one name does to a path. -/

/-- A name leaves the path as it is, takes its last segment back, or adds a segment. -/
inductive Step where
  | stay
  | back
  | segment (chars : List Char)
deriving DecidableEq

def kept (name : String) : List Char := name.toList.filter fun c => !isRemoved c

def stepOf (name : String) : Step :=
  if name = "." ∨ name = ".." then .stay
  else if kept name = ['.'] then .segment []
  else if kept name = ['.', '.'] then .back
  else .segment (kept name)

/-- Nothing of the name is left out of a URL, and it is not made of dots. -/
def Plain (name : String) : Prop :=
  (∀ c ∈ name.toList, isRemoved c = false) ∧ name ≠ "." ∧ name ≠ ".."

theorem kept_eq_iff {name : String} :
    kept name = name.toList ↔ ∀ c ∈ name.toList, isRemoved c = false := by
  unfold kept
  rw [List.filter_eq_self]
  simp

/-- The segment of a plain name is the whole name, and that of no other name is. -/
theorem stepOf_eq_segment_iff {name : String} : stepOf name = .segment name.toList ↔ Plain name := by
  have hsame {text : String} (hwhole : kept name = name.toList) (h : kept name = text.toList) :
      name = text := String.toList_inj.mp (hwhole.symm.trans h)
  unfold stepOf Plain
  rw [← kept_eq_iff]
  by_cases hdots : name = "." ∨ name = ".."
  · rw [if_pos hdots]
    exact iff_of_false Step.noConfusion fun h => hdots.elim h.2.1 h.2.2
  rw [if_neg hdots, ← not_or]
  by_cases hone : kept name = ['.']
  · rw [if_pos hone]
    refine iff_of_false (fun h => ?_) fun h => hdots (.inl (hsame h.1 hone))
    have hempty : kept name = [] := by
      unfold kept
      rw [← Step.segment.inj h]
      rfl
    rw [hempty] at hone
    contradiction
  rw [if_neg hone]
  by_cases htwo : kept name = ['.', '.']
  · rw [if_pos htwo]
    exact iff_of_false Step.noConfusion fun h => hdots (.inr (hsame h.1 htwo))
  · rw [if_neg htwo, Step.segment.injEq, and_iff_left hdots]

/-! Segments that are read as dots. -/

theorem toLower_eq {c d : Char} (h : c.toLower = d) : c = d ∨ 65 ≤ c.toNat ∧ c.toNat + 32 = d.toNat := by
  unfold Char.toLower at h
  split at h
  · rename_i hupper
    subst h
    have hlow : 65 ≤ c.val.toNat := UInt32.le_iff_toNat_le.mp hupper.1
    have hhigh : c.val.toNat ≤ 90 := UInt32.le_iff_toNat_le.mp hupper.2
    have hsum : (c.val + ('a'.val - 'A'.val)).toNat = c.val.toNat + 32 := by
      rw [UInt32.toNat_add]
      have hstep : ('a'.val - 'A'.val).toNat = 32 := rfl
      omega
    exact .inr ⟨hlow, hsum.symm⟩
  · exact .inl h

theorem eq_of_toLower {c d : Char} (h : c.toLower = d) (hd : d.toNat < 97) : c = d := by
  rcases toLower_eq h with h | h
  · exact h
  · omega

theorem eq_of_toLower_e {c : Char} (h : c.toLower = 'e') : c = 'e' ∨ c = 'E' := by
  rcases toLower_eq h with h | ⟨-, h⟩
  · exact .inl h
  · have hcode : c.toNat = 'E'.toNat := by
      have he : 'e'.toNat = 101 := rfl
      have hE : 'E'.toNat = 69 := rfl
      omega
    exact .inr (by rw [← Char.ofNat_toNat c, hcode, Char.ofNat_toNat])

def dotSpellings : List (List Char) := [['.'], ['%', '2', 'e']]

theorem decodedBytes_of_spelling {l : List Char} (h : l.map Char.toLower ∈ dotSpellings) (rest : Bytes) :
    decodedBytes (l.flatMap String.utf8EncodeChar ++ rest) = 0x2e :: decodedBytes rest := by
  simp only [dotSpellings, List.mem_cons, List.not_mem_nil, or_false] at h
  rcases h with h | h
  · obtain ⟨c, rfl, hc⟩ := List.map_eq_singleton_iff.mp h
    obtain rfl := eq_of_toLower hc (by decide)
    exact decodedBytes_append_of_notMem (b := [0x2e]) (by decide) rest
  · obtain ⟨c, l, rfl, hc, h⟩ := List.map_eq_cons_iff.mp h
    obtain ⟨d, l, rfl, hd, h⟩ := List.map_eq_cons_iff.mp h
    obtain ⟨e, rfl, he⟩ := List.map_eq_singleton_iff.mp h
    obtain rfl := eq_of_toLower hc (by decide)
    obtain rfl := eq_of_toLower hd (by decide)
    rcases eq_of_toLower_e he with rfl | rfl
    · exact decodedBytes_percent (h := 2) (l := 14) rest (by decide) (by decide)
    · exact decodedBytes_percent (h := 2) (l := 14) rest (by decide) (by decide)

theorem isSingleDot_iff {s : String} :
    isSingleDot s = true ↔ s.toList.map Char.toLower ∈ dotSpellings := by
  simp [isSingleDot, dotSpellings, ← String.toList_inj, String.toList_map]

theorem isDoubleDot_iff {s : String} :
    isDoubleDot s = true ↔
      ∃ a ∈ dotSpellings, ∃ b ∈ dotSpellings, s.toList.map Char.toLower = a ++ b := by
  simp [isDoubleDot, dotSpellings, ← String.toList_inj, String.toList_map, or_assoc]

theorem decodedBytes_of_singleDot {s : String} (h : isSingleDot s = true) :
    decodedBytes (Utf8.encode s) = Utf8.encode "." := by
  have hdecoded := decodedBytes_of_spelling (isSingleDot_iff.mp h) []
  rw [List.append_nil, ← Utf8.encode_eq_flatMap] at hdecoded
  exact hdecoded

theorem decodedBytes_of_doubleDot {s : String} (h : isDoubleDot s = true) :
    decodedBytes (Utf8.encode s) = Utf8.encode ".." := by
  obtain ⟨a, ha, b, hb, hs⟩ := isDoubleDot_iff.mp h
  obtain ⟨first, second, hsplit, rfl, rfl⟩ := List.map_eq_append_iff.mp hs
  have hsecond := decodedBytes_of_spelling hb []
  rw [List.append_nil] at hsecond
  rw [Utf8.encode_eq_flatMap, hsplit, List.flatMap_append, decodedBytes_of_spelling ha, hsecond]
  rfl

theorem inSegmentSet_percent (special : Bool) : inSegmentSet special '%' = true := by
  simp [inSegmentSet]

theorem inSegmentSet_slash (special : Bool) : inSegmentSet special '/' = true := by
  simp [inSegmentSet]

theorem inSegmentSet_dot (special : Bool) : inSegmentSet special '.' = false := by
  have hcontrol : inControlSet '.' = false := by decide
  simp [inSegmentSet, inPathSet, inFragmentSet, hcontrol]

theorem ne_of_isLower {c d : Char} (hc : c.isLower = true) (hd : d.isLower = false) : c ≠ d :=
  fun h => Bool.false_ne_true (hd.symm.trans (h ▸ hc))

theorem inSegmentSet_of_isLower (special : Bool) {c : Char} (h : c.isLower = true) :
    inSegmentSet special c = false := by
  obtain ⟨hlow, hhigh⟩ := (Bool.and_eq_true _ _).mp h
  replace hlow : 97 ≤ c.toNat := UInt32.le_iff_toNat_le.mp (of_decide_eq_true hlow)
  replace hhigh : c.toNat ≤ 122 := UInt32.le_iff_toNat_le.mp (of_decide_eq_true hhigh)
  have hcontrol : inControlSet c = false := by
    unfold inControlSet
    rw [Bool.or_eq_false_iff, decide_eq_false_iff_not, decide_eq_false_iff_not, Char.lt_def,
      Char.lt_def, UInt32.lt_iff_toNat_lt, UInt32.lt_iff_toNat_lt]
    exact ⟨Nat.not_lt.mpr (Nat.le_trans (by decide) hlow),
      Nat.not_lt.mpr (Nat.le_trans hhigh (by decide))⟩
  have hother {d : Char} (hd : d.isLower = false) : c ≠ d := ne_of_isLower h hd
  simp [inSegmentSet, inPathSet, inFragmentSet, hcontrol, hother]

theorem encoded_of_forall_plain {inSet : Char → Bool} {cs : List Char}
    (h : ∀ c ∈ cs, inSet c = false) : encoded inSet cs = String.ofList cs := by
  apply congrArg String.ofList
  induction cs with
  | nil => rfl
  | cons c cs ih =>
    obtain ⟨hc, hcs⟩ := List.forall_mem_cons.mp h
    rw [List.flatMap_cons, ih hcs]
    unfold encodedChar
    rw [hc, if_neg Bool.false_ne_true, List.singleton_append]

theorem encoded_dots (special : Bool) (n : Nat) :
    encoded (inSegmentSet special) (List.replicate n '.') = String.ofList (List.replicate n '.') :=
  encoded_of_forall_plain fun _ hc => (List.eq_of_mem_replicate hc).symm ▸ inSegmentSet_dot special

theorem isSingleDot_encoded_iff {special : Bool} {cs : List Char} :
    isSingleDot (encoded (inSegmentSet special) cs) = true ↔ cs = ['.'] := by
  constructor
  · intro h
    have hdecoded := decodedBytes_of_singleDot h
    rw [decodedBytes_encoded (inSegmentSet_percent special)] at hdecoded
    exact String.ofList_inj.mp (Utf8.encode_inj hdecoded)
  · rintro rfl
    have hdot := encoded_dots special 1
    rw [List.replicate_one] at hdot
    rw [isSingleDot_iff, hdot]
    decide

theorem isDoubleDot_encoded_iff {special : Bool} {cs : List Char} :
    isDoubleDot (encoded (inSegmentSet special) cs) = true ↔ cs = ['.', '.'] := by
  constructor
  · intro h
    have hdecoded := decodedBytes_of_doubleDot h
    rw [decodedBytes_encoded (inSegmentSet_percent special)] at hdecoded
    exact String.ofList_inj.mp (Utf8.encode_inj hdecoded)
  · rintro rfl
    have hdots : encoded (inSegmentSet special) ['.', '.'] = ".." := encoded_dots special 2
    rw [isDoubleDot_iff, hdots]
    decide

/-! Paths as texts. -/

theorem toList_pathText (path : List String) :
    (pathText path).toList = path.flatMap fun s => '/' :: s.toList := by
  simp [pathText, String.toList_join, List.flatMap_map]

theorem pathText_append (p q : List String) : pathText (p ++ q) = pathText p ++ pathText q := by
  rw [← String.toList_inj, String.toList_append, toList_pathText, toList_pathText, toList_pathText,
    List.flatMap_append]

theorem splitOn_pathText {path : List String} (h : ∀ s ∈ path, '/' ∉ s.toList) :
    (pathText path).toList.splitOn '/' = [] :: path.map String.toList := by
  have hjoined : (pathText path).toList = ['/'].intercalate ([] :: path.map String.toList) := by
    rw [toList_pathText]
    induction path with
    | nil => rfl
    | cons s path ih =>
      rw [List.flatMap_cons, ih fun t ht => h t (List.mem_cons_of_mem _ ht)]
      cases path with
      | nil => simp
      | cons t path => simp [List.intercalate_cons_cons]
  rw [hjoined]
  refine List.splitOn_intercalate _ ?_ (List.cons_ne_nil _ _)
  simpa using h

theorem pathText_inj {p q : List String} (hp : ∀ s ∈ p, '/' ∉ s.toList)
    (hq : ∀ s ∈ q, '/' ∉ s.toList) (h : pathText p = pathText q) : p = q := by
  have hsegments := splitOn_pathText hp
  rw [h, splitOn_pathText hq] at hsegments
  exact (List.map_inj_right fun _ _ => String.toList_inj.mp).mp (List.cons.inj hsegments).2.symm

/-! Adding segments. -/

def parent (path : List String) : List String := if path = [""] then [] else path

theorem parent_append {front : List String} {s : String} (h : front ≠ [] ∨ s ≠ "") :
    parent (front ++ [s]) = front ++ [s] := by
  refine if_neg fun hlone => ?_
  replace hlone : front ++ [s] = [] ++ [""] := hlone
  obtain ⟨hfront, hs⟩ := List.append_inj' hlone rfl
  rcases h with h | h
  · exact h hfront
  · exact h (List.singleton_inj.mp hs)

def Step.onto (special : Bool) (path : List String) : Step → List String
  | .stay => path
  | .back => (parent path).dropLast ++ [""]
  | .segment chars => parent path ++ [encoded (inSegmentSet special) chars]

theorem addSegment_eq (special : Bool) (path : List String) (name : String) :
    addSegment special path name = (stepOf name).onto special path := by
  unfold addSegment stepOf
  by_cases hdots : name = "." ∨ name = ".."
  · rw [if_pos hdots, if_pos hdots]
    rfl
  rw [if_neg hdots, if_neg hdots]
  change walk (parent path) (encoded (inSegmentSet special) (kept name)) true = _
  unfold walk
  simp only [isSingleDot_encoded_iff, isDoubleDot_encoded_iff, if_true]
  by_cases hone : kept name = ['.']
  · rw [if_neg (by rw [hone]; decide), if_pos hone, if_pos hone]
    rfl
  rw [if_neg hone, if_neg hone]
  split <;> rfl

theorem addSegment_of_isLower {special : Bool} {path : List String} {word : String}
    (h : ∀ c ∈ word.toList, c.isLower = true) :
    addSegment special path word = parent path ++ [word] := by
  have hplain : Plain word := by
    refine ⟨fun c hc => ?_, ?_, ?_⟩
    · have hother {d : Char} (hd : d.isLower = false) : c ≠ d := ne_of_isLower (h c hc) hd
      simp [isRemoved, hother]
    · rintro rfl
      exact absurd (h '.' (by decide)) (by decide)
    · rintro rfl
      exact absurd (h '.' (by decide)) (by decide)
  have hword : encoded (inSegmentSet special) word.toList = word := by
    rw [encoded_of_forall_plain fun c hc => inSegmentSet_of_isLower special (h c hc),
      String.ofList_toList]
  rw [addSegment_eq, stepOf_eq_segment_iff.mpr hplain]
  exact congrArg (parent path ++ [·]) hword

/-- The path without an empty segment at its end, which stands for a slash. -/
def trunk (u : Url) : List String := parent (withoutEmptyEnd u.path)

theorem path_eq_trunk (u : Url) : ∃ k ≤ 2, u.path = u.trunk ++ List.replicate k "" := by
  have hparent (path : List String) : ∃ k ≤ 1, path = parent path ++ List.replicate k "" := by
    unfold parent
    split
    · exact ⟨1, Nat.le_refl 1, by assumption⟩
    · exact ⟨0, Nat.zero_le 1, (List.append_nil path).symm⟩
  have hend : ∃ k ≤ 1, u.path = withoutEmptyEnd u.path ++ List.replicate k "" := by
    unfold withoutEmptyEnd
    split
    · rename_i hlast
      obtain ⟨front, hfront⟩ := List.getLast?_eq_some_iff.mp hlast.2
      exact ⟨1, Nat.le_refl 1, by rw [hfront, List.dropLast_concat]; rfl⟩
    · exact ⟨0, Nat.zero_le 1, (List.append_nil u.path).symm⟩
  obtain ⟨j, hj, htrunk⟩ := hparent (withoutEmptyEnd u.path)
  obtain ⟨k, hk, hpath⟩ := hend
  refine ⟨j + k, by omega, hpath.trans ?_⟩
  rw [← List.replicate_append_replicate, ← List.append_assoc]
  exact congrArg (· ++ List.replicate k "") htrunk

end Url
end TreeShare.Web
