import TreeShare.Proofs.Toml.Values
import TreeShare.Toml.Document

/-! Documents of sections are read back as they were written: line by line, and then the tables that the lines
fill. Main statement: `parse_of_written`. -/
namespace TreeShare.Toml

open Reader

variable {k : String} {rest : List Char}

/-! Lines. -/

structure IsBare (k : String) : Prop where
  ne_nil : k.toList ≠ []
  bare : ∀ c ∈ k.toList, isBareKey c = true

theorem IsBare.exists_cons (hk : IsBare k) : ∃ c w, k.toList = c :: w ∧ isBareKey c = true := by
  obtain ⟨c, w, hw⟩ := List.exists_cons_of_ne_nil hk.ne_nil
  exact ⟨c, w, hw, hk.bare c (hw ▸ List.mem_cons_self)⟩

theorem ends_bare (hk : IsBare k) {p : Char → Bool} (hp : ∀ c, isBareKey c = true → p c = false)
    (rest : List Char) : Ends p (k.toList ++ rest) := by
  obtain ⟨c, w, hw, hc⟩ := hk.exists_cons
  rw [hw]
  exact ends_cons (hp c hc)

theorem isBlankChar_of_isBareKey (c : Char) (hc : isBareKey c = true) : isBlankChar c = false :=
  Bool.or_eq_false_iff.mpr ⟨ne_of_kind (by decide) c hc, ne_of_kind (by decide) c hc⟩

theorem blanks_append (sp : List Char) (hsp : ∀ c ∈ sp, isBlankChar c = true) (hrest : Ends isBlankChar rest) :
    blanks (sp ++ rest) = some ((), rest) :=
  discard_some (run_append hsp hrest)

theorem blanks_nothing (hrest : Ends isBlankChar rest) : blanks rest = some ((), rest) :=
  blanks_append [] (by simp) hrest

theorem simpleKey_bare (hk : IsBare k) (hrest : Ends isBareKey rest) :
    simpleKey (k.toList ++ rest) = some (k, rest) := by
  have hquote {d : Char} (hd : isBareKey d = false) := ends_bare hk (ne_of_kind hd) rest
  refine (or_none (bind_none (word_none rfl (hquote (by decide))) _) _).trans ?_
  refine (or_none (bind_none (word_none rfl (hquote (by decide))) _) _).trans ?_
  have hrun : run1 isBareKey (k.toList ++ rest) = some (k.toList, rest) := by
    obtain ⟨c, w, hw, hc⟩ := hk.exists_cons
    have hbare := hk.bare
    rw [hw] at hbare ⊢
    refine (bind_some (one_cons hc _) _).trans ?_
    exact (bind_some (run_append (List.forall_mem_cons.mp hbare).2 hrest) _).trans rfl
  refine (bind_some hrun _).trans ?_
  rw [String.ofList_toList]
  rfl

theorem dottedKey_bare (hk : IsBare k) (sp rest : List Char) (hsp : ∀ c ∈ sp, isBlankChar c = true)
    (hkey : Ends isBareKey (sp ++ rest)) (hblank : Ends isBlankChar rest) (hdot : Ends (· = '.') rest) :
    dottedKey (k.toList ++ (sp ++ rest)) = some (([], k), rest) := by
  have hpart : (do blanks; let k ← simpleKey; blanks; pure k : Reader String) (k.toList ++ (sp ++ rest)) =
      some (k, rest) := by
    refine (bind_some (blanks_nothing (ends_bare hk isBlankChar_of_isBareKey _)) _).trans ?_
    refine (bind_some (simpleKey_bare hk hkey) _).trans ?_
    exact (bind_some (blanks_append sp hsp hblank) _).trans rfl
  have hparts : separated1 (do blanks; let k ← simpleKey; blanks; pure k) (word ".")
      (k.toList ++ (sp ++ rest)) = some ([k], rest) := by
    refine (bind_some hpart _).trans ?_
    exact (bind_some (Reads.stop (bind_none (word_none rfl hdot) _)).many _).trans rfl
  exact (bind_some hparts _).trans rfl

theorem lineEnd_newline (rest : List Char) : lineEnd ('\n' :: rest) = some ((), rest) := rfl

theorem line_of {l : Line} {input : List Char} (hrest : Ends isBlankChar rest)
    (h : (blankLine <|> listHeaderLine <|> headerLine <|> pairLine) input = some (l, rest)) :
    line input = some (l, rest) :=
  (bind_some h _).trans ((bind_some (blanks_nothing hrest) _).trans rfl)

theorem line_blank (hrest : Ends isBlankChar rest) : line ('\n' :: rest) = some (.blank, rest) :=
  line_of hrest (or_some rfl _)

theorem line_header (hk : IsBare k) (hrest : Ends isBlankChar rest) :
    line ('[' :: k.toList ++ ']' :: '\n' :: rest) = some (.header [] k, rest) := by
  have hlist : listHeaderLine ('[' :: k.toList ++ ']' :: '\n' :: rest) = none := by
    refine bind_none (exactly_none ?_) _
    obtain ⟨c, w, hw, hc⟩ := hk.exists_cons
    rw [hw]
    rintro ⟨more, hmore⟩
    obtain rfl := (List.cons.inj (List.cons.inj hmore).2).1
    cases hc
  have hheader : headerLine ('[' :: k.toList ++ ']' :: '\n' :: rest) = some (.header [] k, rest) := by
    have hkey := dottedKey_bare hk [] (']' :: '\n' :: rest) (by simp) (ends_cons (by decide))
      (ends_cons (by decide)) (ends_cons (by decide))
    refine (bind_some (exactly_append ['['] _) _).trans ((bind_some hkey _).trans ?_)
    exact (bind_some (exactly_append [']'] _) _).trans ((bind_some (lineEnd_newline rest) _).trans rfl)
  exact line_of hrest ((or_none rfl _).trans ((or_none hlist _).trans (or_some hheader _)))

theorem ends_written (p : Plain) (rest : List Char) : Ends isBlankChar (p.written.toList ++ rest) := by
  obtain ⟨c, w, hw, hc⟩ := head_written p
  have hspace := ne_of_kind (p := beginsValue) (d := ' ') (by decide) c hc
  have htab := ne_of_kind (p := beginsValue) (d := '\t') (by decide) c hc
  rw [hw]
  exact ends_cons (Bool.or_eq_false_iff.mpr ⟨hspace, htab⟩)

theorem line_pair {p : Plain} (hk : IsBare k) (hp : p.Fits) (hrest : Ends isBlankChar rest) :
    line (k.toList ++ ' ' :: '=' :: ' ' :: (p.written.toList ++ '\n' :: rest)) =
      some (.pair [] k p.value, rest) := by
  generalize hvalue : p.written.toList ++ '\n' :: rest = input
  have hother {d : Char} (hd : isBareKey d = false) {s : String} {w : List Char} (hs : s.toList = d :: w) :
      word s (k.toList ++ ' ' :: '=' :: ' ' :: input) = none :=
    word_none hs (ends_bare hk (ne_of_kind hd) _)
  have hblank : blankLine (k.toList ++ ' ' :: '=' :: ' ' :: input) = none := by
    refine bind_none ((or_none (bind_none (bind_none (hother ?_ rfl) _) _) _).trans ?_) _
    · decide
    · exact (or_none (hother (by decide) rfl) _).trans (hother (by decide) rfl)
  have hpair : pairLine (k.toList ++ ' ' :: '=' :: ' ' :: input) = some (.pair [] k p.value, rest) := by
    have hspace : ∀ c ∈ [' '], isBlankChar c = true := List.forall_mem_singleton.mpr rfl
    have hkey := dottedKey_bare hk [' '] ('=' :: ' ' :: input) hspace (ends_cons (by decide))
      (ends_cons (by decide)) (ends_cons (by decide))
    have hgap : blanks (' ' :: input) = some ((), input) :=
      blanks_append [' '] hspace (hvalue ▸ ends_written p _)
    refine (bind_some hkey _).trans ((bind_some (exactly_append ['='] _) _).trans ?_)
    refine (bind_some hgap _).trans ((bind_some (hvalue ▸ value_written hp rest) _).trans ?_)
    exact (bind_some (lineEnd_newline rest) _).trans rfl
  refine line_of hrest ((or_none hblank _).trans ?_)
  refine (or_none (bind_none (hother (by decide) rfl) _) _).trans ?_
  exact (or_none (bind_none (hother (by decide) rfl) _) _).trans hpair

/-! Texts. -/

namespace Section

variable {s : Section} {rows : List (String × Plain)} {ls : List Line} {left : List Char}

/-- All names can stand without marks, no two keys are the same, and the values can be read. -/
structure WellFormed (s : Section) : Prop where
  name : IsBare s.name
  keys : ∀ row ∈ s.rows, IsBare row.1
  distinct : (s.rows.map Prod.fst).Nodup
  fits : ∀ row ∈ s.rows, row.2.Fits

def rowText (row : String × Plain) : List Char :=
  row.1.toList ++ ' ' :: '=' :: ' ' :: (row.2.written.toList ++ ['\n'])

theorem toList_written (s : Section) :
    s.written.toList = '[' :: s.name.toList ++ ']' :: '\n' :: s.rows.flatMap rowText := by
  have hrow : ∀ row : String × Plain, (row.1 ++ " = " ++ row.2.written ++ "\n").toList = rowText row := by
    intro row
    simp [rowText, String.toList_append]
  unfold written
  simp [String.toList_append, String.toList_join, List.flatMap_map, hrow]

def lines (s : Section) : List Line := .header [] s.name :: s.rows.map fun row => .pair [] row.1 row.2.value

theorem ends_rows (hkeys : ∀ row ∈ rows, IsBare row.1) (hrest : Ends isBlankChar rest) :
    Ends isBlankChar (rows.flatMap rowText ++ rest) := by
  cases rows with
  | nil => exact hrest
  | cons row rows =>
    rw [List.flatMap_cons, List.append_assoc, rowText, List.append_assoc]
    exact ends_bare (hkeys row List.mem_cons_self) isBlankChar_of_isBareKey _

theorem rows_reads (hkeys : ∀ row ∈ rows, IsBare row.1) (hfits : ∀ row ∈ rows, row.2.Fits)
    (hrest : Ends isBlankChar rest) (h : Reads line rest ls left) :
    Reads line (rows.flatMap rowText ++ rest) (rows.map (fun row => .pair [] row.1 row.2.value) ++ ls)
      left := by
  induction rows with
  | nil => exact h
  | cons row rows ih =>
    obtain ⟨hkey, hkeys⟩ := List.forall_mem_cons.mp hkeys
    obtain ⟨hfit, hfits⟩ := List.forall_mem_cons.mp hfits
    have hline := line_pair hkey hfit (ends_rows hkeys hrest)
    have htext : (row :: rows).flatMap rowText ++ rest = row.1.toList ++ ' ' :: '=' :: ' ' ::
        (row.2.written.toList ++ '\n' :: (rows.flatMap rowText ++ rest)) := by
      simp [rowText]
    rw [htext]
    exact .more hline (by simp; omega) (ih hkeys hfits)

theorem reads (hs : s.WellFormed) (hrest : Ends isBlankChar rest) (h : Reads line rest ls left) :
    Reads line (s.written.toList ++ rest) (s.lines ++ ls) left := by
  have htext : s.written.toList ++ rest =
      '[' :: s.name.toList ++ ']' :: '\n' :: (s.rows.flatMap rowText ++ rest) := by
    rw [toList_written]
    simp
  rw [htext]
  have hheader := line_header hs.name (ends_rows hs.keys hrest)
  exact .more hheader (by simp; omega) (rows_reads hs.keys hs.fits hrest h)

end Section

variable {sections : List Section}

theorem ends_sections {p : Char → Bool} (hp : p '[' = false) (sections : List Section) :
    Ends p (['\n'].intercalate (sections.map fun s => s.written.toList)) := by
  cases sections with
  | nil => exact ends_nil
  | cons s sections =>
    cases sections with
    | nil =>
      rw [List.map_cons, List.map_nil, List.intercalate_singleton, Section.toList_written]
      exact ends_cons hp
    | cons t sections =>
      rw [List.map_cons, List.map_cons, List.intercalate_cons_cons, Section.toList_written]
      exact ends_cons hp

theorem sections_reads (h : ∀ s ∈ sections, s.WellFormed) :
    Reads line (['\n'].intercalate (sections.map fun s => s.written.toList))
      ([.blank].intercalate (sections.map Section.lines)) [] := by
  induction sections with
  | nil => exact .stop rfl
  | cons s sections ih =>
    obtain ⟨hs, hsections⟩ := List.forall_mem_cons.mp h
    cases sections with
    | nil =>
      have hread := Section.reads hs ends_nil (.stop rfl)
      simpa using hread
    | cons t sections =>
      have hblank := line_blank (ends_sections (by decide) (t :: sections))
      have hread := Section.reads hs (ends_cons (by decide)) (.more hblank (Nat.lt_succ_self _) (ih hsections))
      simpa [List.intercalate_cons_cons] using hread

theorem lines_written (h : ∀ s ∈ sections, s.WellFormed) :
    Reader.all lines (written sections) = some ([.blank].intercalate (sections.map Section.lines)) := by
  have htext : (written sections).toList = ['\n'].intercalate (sections.map fun s => s.written.toList) := by
    unfold written
    rw [String.toList_intercalate, List.map_map]
    rfl
  have hmark := maybe_none (one_none (ends_sections (p := (· = '\ufeff')) (by decide) sections))
  have hlines : lines (['\n'].intercalate (sections.map fun s => s.written.toList)) =
      some ([.blank].intercalate (sections.map Section.lines), []) :=
    (bind_some (discard_some hmark) _).trans <|
      (bind_some (blanks_nothing (ends_sections (by decide) sections)) _).trans (sections_reads h).many
  unfold Reader.all
  rw [htext, hlines]

/-! Tables. -/

theorem lookup_eq_none {key : String} {rows : Rows} (h : key ∉ rows.map Prod.fst) : rows.lookup key = none := by
  rw [List.lookup_eq_none_iff]
  intro row hrow
  exact bne_iff_ne.mpr fun hkey => h (hkey ▸ List.mem_map_of_mem hrow)

theorem lookup_last {key : String} {rows : Rows} (h : key ∉ rows.map Prod.fst) (v : Value) :
    (rows ++ [(key, v)]).lookup key = some v := by
  rw [List.lookup_append, lookup_eq_none h, Option.none_or, List.lookup_cons_self]

theorem set_last {key : String} {rows : Rows} (h : key ∉ rows.map Prod.fst) (v w : Value) :
    Rows.set key w (rows ++ [(key, v)]) = rows ++ [(key, w)] := by
  induction rows with
  | nil => exact if_pos rfl
  | cons row rows ih =>
    obtain ⟨hne, hrows⟩ := not_or.mp (mt List.mem_cons.mpr h)
    exact (if_neg (Ne.symm hne)).trans (congrArg _ (ih hrows))

namespace Section

variable {s : Section}

def table (s : Section) : String × Value :=
  (s.name, .table .written (s.rows.map fun row => (row.1, row.2.value)))

theorem read_pair {name key : String} {rows inner : Rows} (hname : name ∉ rows.map Prod.fst)
    (hkey : key ∉ inner.map Prod.fst) (v : Value) :
    Progress.read ⟨rows ++ [(name, .table .written inner)], [name]⟩ (.pair [] key v) =
      some ⟨rows ++ [(name, .table .written (inner ++ [(key, v)]))], [name]⟩ := by
  have hinner : Rows.insert [] key v .written inner = some (inner ++ [(key, v)]) := by
    refine if_neg ?_
    simp [lookup_eq_none hkey]
  simp [Progress.read, Rows.change, lookup_last hname, hinner, set_last hname]

theorem read_header {name : String} {p : Progress} (hname : name ∉ p.rows.map Prod.fst) :
    p.read (.header [] name) = some ⟨p.rows ++ [(name, .table .written [])], [name]⟩ := by
  simp [Progress.read, Rows.change, Progress.openTable, lookup_eq_none hname]

theorem read_rows {name : String} {rows inner : Rows} (hname : name ∉ rows.map Prod.fst)
    {pairs : List (String × Value)} (hkeys : ((inner ++ pairs).map Prod.fst).Nodup) :
    (pairs.map fun row => Line.pair [] row.1 row.2).foldlM Progress.read
        ⟨rows ++ [(name, .table .written inner)], [name]⟩ =
      some ⟨rows ++ [(name, .table .written (inner ++ pairs))], [name]⟩ := by
  induction pairs generalizing inner with
  | nil => simp
  | cons row pairs ih =>
    have hkey : row.1 ∉ inner.map Prod.fst := by
      rw [List.map_append, List.nodup_append] at hkeys
      exact fun hmem => hkeys.2.2 _ hmem _ List.mem_cons_self rfl
    have hlater := @ih (inner ++ [row]) (by simpa using hkeys)
    rw [List.map_cons, List.foldlM_cons, read_pair hname hkey]
    simpa using hlater

theorem read_lines (hs : s.WellFormed) {p : Progress} (hname : s.name ∉ p.rows.map Prod.fst) :
    s.lines.foldlM Progress.read p = some ⟨p.rows ++ [s.table], [s.name]⟩ := by
  have hkeys : (([] ++ s.rows.map fun row => (row.1, row.2.value) : Rows).map Prod.fst).Nodup := by
    rw [List.nil_append, List.map_map]
    exact hs.distinct
  have hrows := read_rows hname hkeys
  rw [List.map_map, List.nil_append] at hrows
  unfold lines
  rw [List.foldlM_cons, read_header hname]
  exact hrows

end Section

theorem read_sections (h : ∀ s ∈ sections, s.WellFormed) {p : Progress}
    (hnames : ((p.rows ++ sections.map Section.table).map Prod.fst).Nodup) :
    ∃ current, ([.blank].intercalate (sections.map Section.lines)).foldlM Progress.read p =
      some ⟨p.rows ++ sections.map Section.table, current⟩ := by
  -- The empty line between two sections leaves the tables as they are.
  induction sections generalizing p with
  | nil => exact ⟨p.current, by simp⟩
  | cons s sections ih =>
    obtain ⟨hs, hsections⟩ := List.forall_mem_cons.mp h
    have hname : s.name ∉ p.rows.map Prod.fst := by
      rw [List.map_append, List.nodup_append] at hnames
      exact fun hmem => hnames.2.2 _ hmem _ List.mem_cons_self rfl
    have hfirst := Section.read_lines hs hname
    cases sections with
    | nil => exact ⟨[s.name], by simpa using hfirst⟩
    | cons t sections =>
      obtain ⟨current, hlater⟩ := ih hsections (p := ⟨p.rows ++ [s.table], [s.name]⟩) (by simpa using hnames)
      refine ⟨current, ?_⟩
      rw [List.map_cons, List.map_cons, List.intercalate_cons_cons, List.append_assoc, List.foldlM_append,
        hfirst]
      simpa [Progress.read] using hlater

theorem parse_of_written (h : ∀ s ∈ sections, s.WellFormed) (hnames : (sections.map Section.name).Nodup) :
    parse (written sections) = some (.table .written (sections.map Section.table)) := by
  have hdistinct : ((Progress.start.rows ++ sections.map Section.table).map Prod.fst).Nodup := by
    rw [Progress.start, List.nil_append, List.map_map]
    exact hnames
  obtain ⟨current, hread⟩ := read_sections h hdistinct
  unfold parse
  rw [lines_written h, Option.bind_eq_bind, Option.bind_some, hread]
  rfl

end TreeShare.Toml
