import TreeShare.Proofs.Toml.Reading
import TreeShare.Toml.Text
import TreeShare.Toml.Write

/-! Strings are read back as they were written, whichever of the four forms the writer chose. Main statement:
`textValue_written`. -/
namespace TreeShare.Toml

open Reader

variable {c : Char} {cs rest : List Char}

theorem codePoint_append {digits : List Char} {n : Nat} (hlength : digits.length = 4)
    (hnumber : Hex.number? digits = some n) (hvalid : n.isValidChar) (rest : List Char) :
    codePoint 4 (digits ++ rest) = some (Char.ofNat n, rest) := by
  unfold codePoint
  rw [List.take_left' hlength, List.drop_left' hlength, hnumber]
  exact if_pos ⟨hlength, hvalid⟩

theorem controlDigits {n : Nat} (h : n < 128) :
    let digits := '0' :: '0' :: (Hex.encodeChars [UInt8.ofNat n]).map Char.toUpper
    digits.length = 4 ∧ Hex.number? digits = some n := by
  have all : ∀ m : Fin 128,
      let digits := '0' :: '0' :: (Hex.encodeChars [UInt8.ofNat m.val]).map Char.toUpper
      digits.length = 4 ∧ Hex.number? digits = some m.val := by decide +kernel
  exact all ⟨n, h⟩

theorem toNat_lt_of_isControl (h : isControl c = true) : c.toNat < 128 := by
  have hbound : c < ' ' ∨ c = '\x7f' := by
    simp only [isControl, Bool.or_eq_true, Bool.and_eq_true, decide_eq_true_eq] at h
    exact h.imp (fun h => h.1.1) id
  rcases hbound with hc | rfl
  · have hlt : c.toNat < ' '.toNat := hc
    exact Nat.lt_trans hlt (by decide)
  · decide

theorem isShown_of_not_isControl (h : isControl c = false) (hnewline : c ≠ '\n') : isShown c = true := by
  by_cases htab : c = '\t'
  · simp [isShown, htab]
  · have hbound : ' ' ≤ c ∧ c ≠ '\x7f' := by simpa [isControl, htab, hnewline] using h
    simp [isShown, hbound]

theorem basicChar_escapedChar (c : Char) (rest : List Char) :
    (one isBasic <|> escaped) (escapedChar c ++ rest) = some (c, rest) := by
  unfold escapedChar
  split
  · rfl
  · rfl
  · rfl
  · rfl
  · rfl
  · rfl
  · rfl
  · rename_i htab hnewline _ _ hquote hbackslash
    split
    · rename_i hcontrol
      obtain ⟨hlength, hnumber⟩ := controlDigits (toNat_lt_of_isControl hcontrol)
      have hpoint := codePoint_append hlength hnumber c.valid rest
      rw [Char.ofNat_toNat] at hpoint
      exact (or_none (by rfl) _).trans hpoint
    · rename_i hcontrol
      have hshown := isShown_of_not_isControl (by simpa using hcontrol) hnewline
      have hbasic : isBasic c = true := by
        simp only [isBasic, hshown, Bool.true_and, Bool.and_eq_true, decide_eq_true_eq]
        exact ⟨hquote, hbackslash⟩
      exact or_some (one_cons hbasic rest) _

theorem escapedChar_ne_nil (c : Char) : escapedChar c ≠ [] := by
  unfold escapedChar
  split <;> try exact List.cons_ne_nil _ _
  split <;> exact List.cons_ne_nil _ _

theorem basicChars_reads (cs rest : List Char) :
    Reads (one isBasic <|> escaped) (cs.flatMap escapedChar ++ '\"' :: rest) cs ('\"' :: rest) := by
  induction cs with
  | nil => exact .stop rfl
  | cons c cs ih =>
    rw [List.flatMap_cons, List.append_assoc]
    refine .more (basicChar_escapedChar c _) ?_ ih
    have hpos := List.length_pos_iff.mpr (escapedChar_ne_nil c)
    simp only [List.length_append]
    omega

theorem basicText_written (cs rest : List Char) :
    basicText ('\"' :: cs.flatMap escapedChar ++ '\"' :: rest) = some (String.ofList cs, rest) :=
  (bind_some (exactly_append ['\"'] _) _).trans <|
    (bind_some (basicChars_reads cs rest).many _).trans <|
      (bind_some (exactly_append ['\"'] rest) _).trans rfl

theorem literalText_written (hcs : ∀ c ∈ cs, isLiteral c = true) (rest : List Char) :
    literalText ('\'' :: cs ++ '\'' :: rest) = some (String.ofList cs, rest) := by
  have hends : Ends isLiteral ('\'' :: rest) := by
    intro c hc
    cases hc
    rfl
  exact (bind_some (exactly_append ['\''] _) _).trans <|
    (bind_some (run_append hcs hends) _).trans <| (bind_some (exactly_append ['\''] rest) _).trans rfl

/-! Strings on several lines. -/

/-- What stands between long delimiters, after a number of quotation marks, and the characters it is read as:
marks that are content, at most two together, and pieces of which each is one other character. -/
inductive LongBody (quote : Char) (plain : Reader (List Char)) : Nat → List Char → List Char → Prop
  | done {marks : Nat} (few : marks ≤ 2) : LongBody quote plain marks [] []
  | mark {marks : Nat} {w cs : List Char} (few : marks < 2) (later : LongBody quote plain (marks + 1) w cs) :
      LongBody quote plain marks (quote :: w) (quote :: cs)
  | piece {marks : Nat} {d c : Char} {p w cs : List Char} (few : marks ≤ 2) (other : d ≠ quote)
      (read : ∀ rest, (plain <|> lineBreak) (d :: p ++ rest) = some ([c], rest))
      (later : LongBody quote plain 0 w cs) : LongBody quote plain marks (d :: p ++ w) (c :: cs)

section

variable {quote : Char} {plain : Reader (List Char)} {d : Char}

theorem longPiece_eq (quote : Char) (plain : Reader (List Char)) (input : List Char) :
    longPiece quote plain input = ((plain <|> lineBreak) <|>
      (do exactly [quote, quote]; ahead (one (· ≠ quote)); pure [quote, quote]) <|>
      (do exactly [quote]; ahead (one (· ≠ quote)); pure [quote])) input :=
  or_assoc ..

theorem longPiece_of_read {c : Char} {p : List Char}
    (h : (plain <|> lineBreak) (p ++ rest) = some ([c], rest)) :
    longPiece quote plain (p ++ rest) = some ([c], rest) :=
  (longPiece_eq ..).trans (or_some h _)

theorem longEnd_replicate {last : Nat} (hlast : last ≤ 2) (hrest : Ends (· = quote) rest) :
    longEnd quote (List.replicate last quote ++ quote :: quote :: quote :: rest) =
      some (List.replicate last quote, rest) := by
  have hmarks : List.replicate last quote ++ quote :: quote :: quote :: rest =
      List.replicate (last + 3) quote ++ rest := by
    rw [← List.replicate_append_replicate, List.append_assoc]
    rfl
  have hall : ∀ c ∈ List.replicate (last + 3) quote, decide (c = quote) = true :=
    fun c hc => decide_eq_true (List.eq_of_mem_replicate hc)
  rw [hmarks]
  refine (bind_some (run_append hall hrest) _).trans ?_
  rw [if_pos (by rw [List.length_replicate]; omega), List.drop_replicate]
  rfl

variable (hplain : ∀ rest, (plain <|> lineBreak) (quote :: rest) = none)
include hplain

theorem longPiece_marks {marks : Nat} (hpos : 0 < marks) (hfew : marks ≤ 2) (hd : d ≠ quote)
    (rest : List Char) :
    longPiece quote plain (List.replicate marks quote ++ d :: rest) =
      some (List.replicate marks quote, d :: rest) := by
  have hahead : ahead (one (· ≠ quote)) (d :: rest) = some ((), d :: rest) := by
    unfold ahead
    rw [one_cons (by simpa using hd)]
    rfl
  obtain rfl | rfl : marks = 1 ∨ marks = 2 := by omega
  · refine (longPiece_eq ..).trans ((or_none (hplain _) _).trans ((or_none ?_ _).trans ?_))
    · refine bind_none ?_ _
      unfold exactly
      rw [if_neg]
      simp [List.isPrefixOf, Ne.symm hd]
    · exact (bind_some (exactly_append [quote] _) _).trans ((bind_some hahead _).trans rfl)
  · refine (longPiece_eq ..).trans ((or_none (hplain _) _).trans (or_some ?_ _))
    exact (bind_some (exactly_append [quote, quote] _) _).trans ((bind_some hahead _).trans rfl)

theorem longPiece_end (rest : List Char) : longPiece quote plain (quote :: quote :: quote :: rest) = none := by
  have hahead (rest : List Char) : ahead (one (· ≠ quote)) (quote :: rest) = none := by
    unfold ahead
    rw [one_cons_none (by simp)]
    rfl
  refine (longPiece_eq ..).trans ((or_none (hplain _) _).trans ((or_none ?_ _).trans ?_))
  · exact (bind_some (exactly_append [quote, quote] _) _).trans (bind_none (hahead _) _)
  · exact (bind_some (exactly_append [quote] _) _).trans (bind_none (hahead _) _)

theorem LongBody.reads {marks : Nat} {w cs : List Char} (h : LongBody quote plain marks w cs)
    (rest : List Char) : ∃ pieces last, last ≤ 2 ∧
      pieces.flatten ++ List.replicate last quote = List.replicate marks quote ++ cs ∧
      Reads (longPiece quote plain)
        (List.replicate marks quote ++ w ++ quote :: quote :: quote :: rest) pieces
        (List.replicate last quote ++ quote :: quote :: quote :: rest) := by
  -- The marks read so far still stand before the rest: they are a piece only once another character follows.
  induction h with
  | @done marks few =>
    rw [List.append_nil]
    refine ⟨[], marks, few, by simp, .stop ?_⟩
    match marks, few with
    | 0, _ | 1, _ | 2, _ => exact longPiece_end hplain _
  | @mark marks w cs few later ih =>
    rw [List.replicate_succ', List.append_assoc, List.append_assoc] at ih
    simpa using ih
  | @piece marks d c p w cs few other read later ih =>
    obtain ⟨pieces, last, hlast, hflat, hreads⟩ := ih
    have hpiece : Reads (longPiece quote plain) (d :: (p ++ (w ++ quote :: quote :: quote :: rest)))
        ([c] :: pieces) (List.replicate last quote ++ quote :: quote :: quote :: rest) :=
      .more (longPiece_of_read (read _)) (by simp only [List.length_cons, List.length_append]; omega) hreads
    rw [List.append_assoc, List.append_assoc, List.cons_append]
    rcases Nat.eq_zero_or_pos marks with rfl | hpos
    · exact ⟨_, last, hlast, by simpa using hflat, hpiece⟩
    · refine ⟨List.replicate marks quote :: [c] :: pieces, last, hlast, by simpa using hflat, ?_⟩
      exact .more (longPiece_marks hplain hpos few other _) (by simp; omega) hpiece

theorem longText_of_body {opening w cs : List Char} (h : LongBody quote plain 0 w cs)
    (hopening : ∃ o, maybe newline (opening ++ w ++ quote :: quote :: quote :: rest) =
      some (o, w ++ quote :: quote :: quote :: rest))
    (hrest : Ends (· = quote) rest) :
    longText quote plain (quote :: quote :: quote :: (opening ++ w ++ quote :: quote :: quote :: rest)) =
      some (String.ofList cs, rest) := by
  obtain ⟨o, ho⟩ := hopening
  obtain ⟨pieces, last, hlast, hflat, hreads⟩ := h.reads hplain rest
  rw [List.replicate_zero, List.nil_append] at hflat hreads
  refine (bind_some (exactly_append [quote, quote, quote] _) _).trans ?_
  refine (bind_some (discard_some ho) _).trans ((bind_some hreads.many _).trans ?_)
  refine (bind_some (longEnd_replicate hlast hrest) _).trans ?_
  rw [hflat]
  rfl

end

/-! Line breaks. -/

def isBreak (c : Char) : Bool := c = '\n' || c = '\r'

theorem newline_none {input : List Char} (h : Ends isBreak input) : newline input = none := by
  cases input with
  | nil => rfl
  | cons c input =>
    have hc : '\n' ≠ c ∧ '\r' ≠ c := by
      have hbreak := h c rfl
      simp only [isBreak, Bool.or_eq_false_iff, decide_eq_false_iff_not] at hbreak
      exact ⟨Ne.symm hbreak.1, Ne.symm hbreak.2⟩
    exact (or_none (exactly_cons_none hc.1 _ _) _).trans (exactly_cons_none hc.2 _ _)

theorem newline_cons (rest : List Char) : newline ('\n' :: rest) = some ((), rest) :=
  or_some (exactly_append ['\n'] rest) _

theorem lineBreak_cons (rest : List Char) : lineBreak ('\n' :: rest) = some (['\n'], rest) :=
  bind_some (newline_cons rest) _

/-! The two kinds of strings on several lines. -/

def basicPiece : Reader (List Char) := joinedLines <|> (do pure [← one isBasic <|> escaped])

def literalPiece : Reader (List Char) := do pure [← one isLiteral]

theorem joinedLines_escapedChar (hnewline : c ≠ '\n') (rest : List Char) :
    joinedLines (escapedChar c ++ rest) = none := by
  unfold escapedChar
  split
  · rfl
  · rfl
  · exact absurd rfl hnewline
  · rfl
  · rfl
  · rfl
  · rfl
  · rename_i hbackslash
    split
    · rfl
    · exact bind_none (exactly_cons_none (Ne.symm hbackslash) _ _) _

theorem basicPiece_escapedChar (hnewline : c ≠ '\n') (rest : List Char) :
    (basicPiece <|> lineBreak) (escapedChar c ++ rest) = some ([c], rest) := by
  refine or_some ((or_none (joinedLines_escapedChar hnewline rest) _).trans ?_) _
  exact bind_some (basicChar_escapedChar c rest) _

theorem basicPiece_newline (rest : List Char) :
    (basicPiece <|> lineBreak) ('\n' :: rest) = some (['\n'], rest) :=
  (or_none (by rfl) _).trans (lineBreak_cons rest)

theorem basicPiece_mark (rest : List Char) : (basicPiece <|> lineBreak) ('\"' :: rest) = none := by
  rfl

theorem head_escapedChar (c : Char) : ∃ d p, escapedChar c = d :: p ∧ d ≠ '\"' ∧ isBreak d = false := by
  unfold escapedChar
  split
  iterate 7 exact ⟨'\\', _, rfl, by decide, by decide⟩
  rename_i hnewline _ hreturn hquote _
  split
  · exact ⟨'\\', _, rfl, by decide, by decide⟩
  · refine ⟨c, [], rfl, hquote, ?_⟩
    simp only [isBreak, Bool.or_eq_false_iff, decide_eq_false_iff_not]
    exact ⟨hnewline, hreturn⟩

theorem longBody_escaped {room : Nat} (hroom : room ≤ 2) (cs : List Char) :
    LongBody '\"' basicPiece (2 - room) (longEscaped room cs) cs := by
  have hescaped {marks : Nat} (few : marks ≤ 2) {c : Char} {w cs : List Char} (hnewline : c ≠ '\n')
      (later : LongBody '\"' basicPiece 0 w cs) :
      LongBody '\"' basicPiece marks (escapedChar c ++ w) (c :: cs) := by
    obtain ⟨d, p, hd, hquote, -⟩ := head_escapedChar c
    have hread := basicPiece_escapedChar hnewline
    rw [hd] at hread ⊢
    exact .piece few hquote hread later
  induction cs generalizing room with
  | nil => exact .done (Nat.sub_le ..)
  | cons c cs ih =>
    unfold longEscaped
    split
    · rename_i hnewline
      subst hnewline
      exact .piece (p := []) (Nat.sub_le ..) (by decide) basicPiece_newline (ih (Nat.le_refl 2))
    · rename_i hnewline
      split
      · rename_i hquote
        subst hquote
        split
        · rename_i room
          have hmarks : 2 - room = 2 - (room + 1) + 1 := by omega
          exact .mark (by omega) (hmarks ▸ ih (by omega))
        · exact hescaped (Nat.le_refl 2) hnewline (ih (Nat.le_refl 2))
      · exact hescaped (Nat.sub_le ..) hnewline (ih (Nat.le_refl 2))

theorem le_longestRun (c : Char) (before : Nat) (cs : List Char) : before ≤ longestRun c before cs := by
  induction cs generalizing before with
  | nil => exact Nat.le_refl _
  | cons d cs ih =>
    unfold longestRun
    split
    · exact Nat.le_trans (Nat.le_succ _) (ih _)
    · exact Nat.le_max_left ..

theorem notMem_of_longestRun (h : longestRun c 0 cs = 0) : c ∉ cs := by
  induction cs with
  | nil => exact List.not_mem_nil
  | cons d cs ih =>
    unfold longestRun at h
    split at h
    · have hpos := le_longestRun c 1 cs
      rw [h] at hpos
      contradiction
    · rename_i hd
      rw [List.mem_cons, not_or]
      exact ⟨Ne.symm hd, ih (Nat.max_eq_zero_iff.mp h).2⟩

theorem isLiteral_of_not_isControl (hcontrol : isControl c = false) (hnewline : c ≠ '\n')
    (hquote : c ≠ '\'') : isLiteral c = true := by
  simp [isLiteral, isShown_of_not_isControl hcontrol hnewline, hquote]

theorem longBody_literal {marks : Nat} (hmarks : longestRun '\'' marks cs ≤ 2)
    (hcontrol : ∀ c ∈ cs, isControl c = false) : LongBody '\'' literalPiece marks cs cs := by
  induction cs generalizing marks with
  | nil => exact .done hmarks
  | cons c cs ih =>
    obtain ⟨hc, hcs⟩ := List.forall_mem_cons.mp hcontrol
    unfold longestRun at hmarks
    split at hmarks
    · rename_i hquote
      subst hquote
      exact .mark (Nat.lt_of_lt_of_le (le_longestRun ..) hmarks) (ih hmarks hcs)
    · rename_i hquote
      obtain ⟨hfew, hlater⟩ := Nat.max_le.mp hmarks
      refine .piece (p := []) hfew hquote (fun rest => ?_) (ih hlater hcs)
      by_cases hnewline : c = '\n'
      · subst hnewline
        exact (or_none (by rfl) _).trans (lineBreak_cons rest)
      · have hliteral := isLiteral_of_not_isControl hc hnewline hquote
        exact or_some (bind_some (one_cons hliteral _) _) _

/-! Whole strings. -/

def isQuote (c : Char) : Bool := c = '\"' || c = '\''

theorem ends_of_isQuote {quote : Char} (hquote : isQuote quote = true) (h : Ends isQuote rest) :
    Ends (· = quote) rest := by
  intro c hc
  have hne : c ≠ quote := by
    rintro rfl
    cases hquote.symm.trans (h c hc)
  simpa using hne

theorem textValue_basic (cs : List Char) (hrest : Ends isQuote rest) :
    textValue ('\"' :: cs.flatMap escapedChar ++ '\"' :: rest) = some (String.ofList cs, rest) := by
  have hshort : ¬ ['\"', '\"', '\"'] <+: '\"' :: cs.flatMap escapedChar ++ '\"' :: rest := by
    cases cs with
    | nil =>
      rintro ⟨more, hmore⟩
      have hhead := congrArg List.head? (List.cons.inj (List.cons.inj hmore).2).2.symm
      cases hrest '\"' (by simpa using hhead)
    | cons c cs =>
      obtain ⟨d, p, hd, hquote, -⟩ := head_escapedChar c
      rintro ⟨more, hmore⟩
      rw [List.flatMap_cons, hd] at hmore
      exact hquote (List.cons.inj (List.cons.inj hmore).2).1.symm
  exact (or_none (bind_none (exactly_none hshort) _) _).trans (or_some (basicText_written cs rest) _)

theorem textValue_literal (hne : cs ≠ []) (hcs : ∀ c ∈ cs, isLiteral c = true) (rest : List Char) :
    textValue ('\'' :: cs ++ '\'' :: rest) = some (String.ofList cs, rest) := by
  obtain ⟨c, cs, rfl⟩ := List.exists_cons_of_ne_nil hne
  have hc : c ≠ '\'' := by
    rintro rfl
    cases hcs '\'' List.mem_cons_self
  have hshort : ¬ ['\'', '\'', '\''] <+: '\'' :: (c :: cs) ++ '\'' :: rest := by
    rintro ⟨more, hmore⟩
    exact hc (List.cons.inj (List.cons.inj hmore).2).1.symm
  refine (or_none (by rfl) _).trans ((or_none (by rfl) _).trans ((or_none ?_ _).trans ?_))
  · exact bind_none (exactly_none hshort) _
  · exact literalText_written hcs rest

theorem textValue_longBasic {opening : List Char} (hrest : Ends isQuote rest)
    (hopening : ∃ o, maybe newline (opening ++ longEscaped 2 cs ++ '\"' :: '\"' :: '\"' :: rest) =
      some (o, longEscaped 2 cs ++ '\"' :: '\"' :: '\"' :: rest)) :
    textValue ('\"' :: '\"' :: '\"' :: (opening ++ longEscaped 2 cs ++ '\"' :: '\"' :: '\"' :: rest)) =
      some (String.ofList cs, rest) :=
  or_some (longText_of_body basicPiece_mark (longBody_escaped (Nat.le_refl 2) cs) hopening
    (ends_of_isQuote rfl hrest)) _

theorem textValue_longLiteral {opening : List Char} (hmarks : longestRun '\'' 0 cs ≤ 2)
    (hcontrol : ∀ c ∈ cs, isControl c = false) (hrest : Ends isQuote rest)
    (hopening : ∃ o, maybe newline (opening ++ cs ++ '\'' :: '\'' :: '\'' :: rest) =
      some (o, cs ++ '\'' :: '\'' :: '\'' :: rest)) :
    textValue ('\'' :: '\'' :: '\'' :: (opening ++ cs ++ '\'' :: '\'' :: '\'' :: rest)) =
      some (String.ofList cs, rest) := by
  refine (or_none (by rfl) _).trans ((or_none (by rfl) _).trans (or_some ?_ _))
  exact longText_of_body (fun _ => by rfl) (longBody_literal hmarks hcontrol) hopening
    (ends_of_isQuote rfl hrest)

theorem newlines_iff : (TextShape.of cs).newlines = true ↔ '\n' ∈ cs := List.contains_iff_mem

/-- A break right after the opening delimiter is there exactly if the string has breaks of its own, so that
none of these is taken for it. -/
theorem exists_opening {w : List Char} (hw : '\n' ∉ cs → Ends isBreak (w ++ rest)) :
    ∃ o, maybe newline ((if (TextShape.of cs).newlines then ['\n'] else []) ++ w ++ rest) =
      some (o, w ++ rest) := by
  by_cases hnewline : '\n' ∈ cs
  · rw [if_pos (newlines_iff.mpr hnewline)]
    exact ⟨_, maybe_some (newline_cons _)⟩
  · rw [if_neg (mt newlines_iff.mp hnewline)]
    exact ⟨_, maybe_none (newline_none (hw hnewline))⟩

theorem ends_longEscaped (hnewline : '\n' ∉ cs) (rest : List Char) :
    Ends isBreak (longEscaped 2 cs ++ '\"' :: rest) := by
  intro x hx
  cases cs with
  | nil =>
    cases hx
    rfl
  | cons c cs =>
    have hc : c ≠ '\n' := fun hc => hnewline (hc ▸ List.mem_cons_self)
    unfold longEscaped at hx
    rw [if_neg hc] at hx
    split at hx
    · rename_i hquote
      cases hx
      exact hquote ▸ rfl
    · obtain ⟨d, p, hd, -, hbreak⟩ := head_escapedChar c
      rw [hd] at hx
      cases hx
      exact hbreak

theorem ends_literal (hnewline : '\n' ∉ cs) (hcontrol : ∀ c ∈ cs, isControl c = false) (rest : List Char) :
    Ends isBreak (cs ++ '\'' :: rest) := by
  intro x hx
  cases cs with
  | nil =>
    cases hx
    rfl
  | cons c cs =>
    obtain rfl : c = x := Option.some.inj hx
    have hc : c ≠ '\n' := fun hc => hnewline (hc ▸ List.mem_cons_self)
    have hreturn : c ≠ '\r' := fun hc => by
      have hcr := hcontrol c List.mem_cons_self
      rw [hc] at hcr
      cases hcr
    simp [isBreak, hc, hreturn]

theorem controls_eq_false_iff : (TextShape.of cs).controls = false ↔ ∀ c ∈ cs, isControl c = false := by
  simp [TextShape.of]

/-- Whatever the string, it is read back from what is written. -/
theorem textValue_written (s : String) (hrest : Ends isQuote rest) :
    textValue ((writtenText s).toList ++ rest) = some (s, rest) := by
  have hs := String.ofList_toList (s := s)
  unfold writtenText
  generalize s.toList = cs at hs ⊢
  subst hs
  have hbasic := textValue_basic cs hrest
  have hlongBasic := textValue_longBasic hrest (exists_opening fun h : '\n' ∉ cs => ends_longEscaped h _)
  simp only [String.toList_ofList, Bool.not_eq_true', List.replicate_succ, List.replicate_zero]
  split
  · simpa using hbasic
  rename_i hplain
  split
  · rename_i h
    obtain ⟨hcontrols, hnewlines, hsingles⟩ := h
    have hcontrol := controls_eq_false_iff.mp hcontrols
    have hnewline : '\n' ∉ cs := mt newlines_iff.mpr (by simp [hnewlines])
    have hquote : '\'' ∉ cs := notMem_of_longestRun hsingles
    have hne : cs ≠ [] := by
      rintro rfl
      exact hplain ⟨rfl, rfl, rfl, rfl⟩
    have hliteral : ∀ c ∈ cs, isLiteral c = true := fun c hc =>
      isLiteral_of_not_isControl (hcontrol c hc) (ne_of_mem_of_not_mem hc hnewline)
        (ne_of_mem_of_not_mem hc hquote)
    simpa using textValue_literal hne hliteral rest
  split
  · simpa using hlongBasic
  split
  · rename_i h
    have hcontrol := controls_eq_false_iff.mp h.1
    have hlongLiteral := textValue_longLiteral h.2 hcontrol hrest
      (exists_opening fun hnewline : '\n' ∉ cs => ends_literal hnewline hcontrol _)
    simpa using hlongLiteral
  split
  · rename_i hnewlines
    rw [hnewlines] at hlongBasic
    simpa using hlongBasic
  · simpa using hbasic

end TreeShare.Toml
