import TreeShare.Proofs.Toml.Strings
import TreeShare.Toml.Value

/-! Plain values at the end of a line are read back as they were written. Main statement: `value_written`. -/
namespace TreeShare.Toml

open Reader

variable {c : Char} {digits rest : List Char} {n : Nat}

/-! What has a different start. -/

theorem word_none {s : String} {w input : List Char} (hs : s.toList = c :: w) (h : Ends (· = c) input) :
    word s input = none := by
  unfold word
  rw [hs]
  cases input with
  | nil => rfl
  | cons d input => exact exactly_cons_none (Ne.symm (of_decide_eq_false (h d rfl))) w input

theorem ends_nil {p : Char → Bool} : Ends p [] := fun _ h => nomatch h

theorem ends_cons {p : Char → Bool} (h : p c = false) : Ends p (c :: rest) := by
  intro d hd
  cases hd
  exact h

theorem ne_of_kind {p : Char → Bool} {d : Char} (hd : p d = false) (c : Char) (hc : p c = true) :
    decide (c = d) = false := by
  apply decide_eq_false
  rintro rfl
  cases hd.symm.trans hc

theorem one_none {p : Char → Bool} {input : List Char} (h : Ends p input) : one p input = none := by
  cases input with
  | nil => rfl
  | cons d input => exact one_cons_none (h d rfl) input

theorem textValue_none (hc : isQuote c = false) (rest : List Char) : textValue (c :: rest) = none := by
  simp only [isQuote, Bool.or_eq_false_iff, decide_eq_false_iff_not] at hc
  have hdouble := exactly_cons_none (Ne.symm hc.1)
  have hsingle := exactly_cons_none (Ne.symm hc.2)
  refine (or_none (bind_none (hdouble _ _) _) _).trans ((or_none (bind_none (hdouble _ _) _) _).trans ?_)
  exact (or_none (bind_none (hsingle _ _) _) _).trans (bind_none (hsingle _ _) _)

theorem value_of_scalar {v : Value} (hlist : c ≠ '[') (htable : c ≠ '\x7b')
    (h : scalar (c :: rest) = some (v, digits)) : value (c :: rest) = some (v, digits) :=
  (or_none (bind_none (word_none rfl (ends_cons (decide_eq_false hlist))) _) _).trans <|
    (or_none (bind_none (word_none rfl (ends_cons (decide_eq_false htable))) _) _).trans h

/-! Numbers. -/

theorem ends_digits {p : Char → Bool} (hdigits : ∀ c ∈ digits, c.isDigit = true)
    (hp : ∀ c, c.isDigit = true → p c = false) (hbreak : p '\n' = false) (rest : List Char) :
    Ends p (digits ++ '\n' :: rest) := by
  cases digits with
  | nil => exact ends_cons hbreak
  | cons d digits => exact ends_cons (hp d (hdigits d List.mem_cons_self))

theorem fixedNumber_digits {width m : Nat} {left : List Char}
    (h : fixedNumber width (digits ++ '\n' :: rest) = some (m, left)) :
    left = digits.drop width ++ '\n' :: rest := by
  unfold fixedNumber at h
  dsimp only at h
  split at h
  · rename_i htaken
    have hwidth : width ≤ digits.length := by
      by_contra hlong
      have hbreak : '\n' ∈ (digits ++ '\n' :: rest).take width := by
        rw [List.take_append, List.mem_append]
        obtain ⟨k, hk⟩ := Nat.exists_eq_add_of_lt (Nat.lt_of_not_le hlong)
        exact .inr (by simp [show width - digits.length = k + 1 by omega])
      cases List.all_eq_true.mp htaken.2 _ hbreak
    cases h
    exact List.drop_append_of_le_length hwidth
  · contradiction

theorem of_discard_within {low high : Nat} {r : Reader Nat} {u : PUnit} {input left : List Char}
    (h : (discard (within low high r) : Reader PUnit) input = some (u, left)) :
    ∃ m, r input = some (m, left) := by
  obtain ⟨⟨k, left'⟩, hk, hpure⟩ := Option.bind_eq_some_iff.mp h
  cases hpure
  obtain ⟨⟨m, left''⟩, hm, hwithin⟩ := Option.bind_eq_some_iff.mp hk
  dsimp only at hwithin
  split at hwithin
  · cases hwithin
    exact ⟨_, hm⟩
  · cases hwithin

theorem momentValue_digits (hdigits : ∀ c ∈ digits, c.isDigit = true) (rest : List Char) :
    momentValue (digits ++ '\n' :: rest) = none := by
  -- A year or an hour may be read, but no sign comes after it.
  have hends {width : Nat} {d : Char} (hd : d.isDigit = false) (hbreak : '\n' ≠ d) :
      Ends (· = d) (digits.drop width ++ '\n' :: rest) :=
    ends_digits (fun c hc => hdigits c (List.mem_of_mem_drop hc)) (ne_of_kind hd) (decide_eq_false hbreak) rest
  have hdate : date (digits ++ '\n' :: rest) = none := by
    refine bind_none_of_left fun year left hyear => ?_
    obtain rfl := fixedNumber_digits hyear
    exact bind_none (word_none rfl (hends (by decide) (by decide))) _
  have htime : time (digits ++ '\n' :: rest) = none := by
    refine bind_none_of_left fun _ left hhour => ?_
    obtain ⟨hour, hhour⟩ := of_discard_within hhour
    obtain rfl := fixedNumber_digits hhour
    exact bind_none (word_none rfl (hends (by decide) (by decide))) _
  exact (or_none (bind_none hdate _) _).trans htime

theorem sign_digits (hdigits : ∀ c ∈ digits, c.isDigit = true) (rest : List Char) :
    sign (digits ++ '\n' :: rest) = some (false, digits ++ '\n' :: rest) := by
  have hnone : one (fun c => c = '+' || c = '-') (digits ++ '\n' :: rest) = none := by
    refine one_none (ends_digits hdigits (fun c hc => ?_) (by decide) rest)
    rw [Bool.or_eq_false_iff]
    exact ⟨ne_of_kind (by decide) c hc, ne_of_kind (by decide) c hc⟩
  exact (bind_some (maybe_none hnone) _).trans rfl

theorem digits_reads (hdigits : ∀ c ∈ digits, c.isDigit = true) (rest : List Char) :
    Reads (one Char.isDigit <|> (do word "_"; one Char.isDigit)) (digits ++ '\n' :: rest) digits
      ('\n' :: rest) := by
  induction digits with
  | nil => exact .stop rfl
  | cons d digits ih =>
    obtain ⟨hd, hdigits⟩ := List.forall_mem_cons.mp hdigits
    exact .more (or_some (one_cons hd _) _) (Nat.lt_succ_self _) (ih hdigits)

theorem toDigits_cases (n : Nat) : n = 0 ∨ ∃ d more, Nat.toDigits 10 n = d :: more ∧ d ≠ '0' := by
  induction n using Nat.strongRecOn with
  | ind n ih =>
    rw [Nat.toDigits_eq_if (by decide)]
    split
    · rename_i hsmall
      have hdigit : ∀ k < 10, k = 0 ∨ k.digitChar ≠ '0' := by decide
      exact (hdigit n hsmall).imp_right fun hn => ⟨_, _, rfl, hn⟩
    · rename_i hlarge
      obtain ⟨d, more, hmore, hd⟩ := (ih (n / 10) (by omega)).resolve_left (by omega)
      exact .inr ⟨d, _, by rw [hmore, List.cons_append], hd⟩

theorem plainDigits_toDigits (n : Nat) (rest : List Char) :
    plainDigits (Nat.toDigits 10 n ++ '\n' :: rest) = some (Nat.toDigits 10 n, '\n' :: rest) := by
  rcases toDigits_cases n with rfl | ⟨d, more, hmore, hzero⟩
  · rfl
  · have hdigits : ∀ c ∈ d :: more, c.isDigit = true := fun c hc =>
      Nat.isDigit_of_mem_toDigits (by decide) (by decide) (hmore ▸ hc)
    obtain ⟨hd, hdigits⟩ := List.forall_mem_cons.mp hdigits
    have hahead : ahead (one fun c => c ≠ '0') (d :: more ++ '\n' :: rest) =
        some ((), d :: more ++ '\n' :: rest) := by
      unfold ahead
      rw [List.cons_append, one_cons (by simpa using hzero)]
      rfl
    rw [hmore]
    refine or_some ((bind_some hahead _).trans ?_) _
    exact (bind_some (one_cons hd _) _).trans ((bind_some (digits_reads hdigits rest).many _).trans rfl)

theorem radixInteger_none {radix : Nat} {mark : Char} {m : String} (hm : m.toList = ['0', mark])
    (hmark : mark ≠ '\n') (n : Nat) (rest : List Char) :
    radixInteger m radix (Nat.toDigits 10 n ++ '\n' :: rest) = none := by
  refine bind_none ?_ _
  rcases toDigits_cases n with rfl | ⟨d, more, hmore, hzero⟩
  · unfold word
    rw [hm]
    refine exactly_none fun hprefix => hmark ?_
    obtain ⟨more, hmore⟩ := hprefix
    exact (List.cons.inj (List.cons.inj hmore).2).1
  · rw [hmore]
    exact word_none hm (ends_cons (decide_eq_false hzero))

theorem scalar_number (hn : n < 9223372036854775808) (rest : List Char) :
    scalar (Nat.toDigits 10 n ++ '\n' :: rest) = some (.integer n, '\n' :: rest) := by
  have hdigits : ∀ c ∈ Nat.toDigits 10 n, c.isDigit = true := fun c =>
    Nat.isDigit_of_mem_toDigits (by decide) (by decide)
  have hsign := sign_digits hdigits rest
  have hplain := plainDigits_toDigits n rest
  have htext : textValue (Nat.toDigits 10 n ++ '\n' :: rest) = none := by
    obtain ⟨d, more, hmore⟩ := List.exists_cons_of_ne_nil (Nat.toDigits_ne_nil (n := n) (b := 10))
    rw [hmore]
    refine textValue_none ?_ _
    have hd : d.isDigit = true := hdigits d (hmore ▸ List.mem_cons_self)
    exact Bool.or_eq_false_iff.mpr ⟨ne_of_kind (by decide) d hd, ne_of_kind (by decide) d hd⟩
  have hfloat : floatValue (Nat.toDigits 10 n ++ '\n' :: rest) = none := by
    have hdecimal : decimalFloat (Nat.toDigits 10 n ++ '\n' :: rest) = none :=
      (bind_some hsign _).trans ((bind_some hplain _).trans rfl)
    have hletter {d : Char} (hd : d.isDigit = false) (hbreak : '\n' ≠ d) :=
      ends_digits hdigits (ne_of_kind hd) (decide_eq_false hbreak) rest
    refine (or_none hdecimal _).trans ((bind_some (discard_some hsign) _).trans ?_)
    exact (or_none (word_none rfl (hletter (by decide) (by decide))) _).trans
      (word_none rfl (hletter (by decide) (by decide)))
  have hinteger : integerValue (Nat.toDigits 10 n ++ '\n' :: rest) = some (↑n, '\n' :: rest) := by
    refine (or_none (radixInteger_none rfl (by decide) n rest) _).trans ?_
    refine (or_none (radixInteger_none rfl (by decide) n rest) _).trans ?_
    refine (or_none (radixInteger_none rfl (by decide) n rest) _).trans ?_
    refine (bind_some hsign _).trans ((bind_some hplain _).trans ?_)
    have hvalue : decimal (Nat.toDigits 10 n) = n := Nat.ofDigitChars_ten_toDigits
    simp only [hvalue, Bool.false_eq_true, if_false, bounded]
    rw [if_pos (by omega)]
    rfl
  refine (or_none (bind_none htext _) _).trans ?_
  refine (or_none (bind_none (momentValue_digits hdigits rest) _) _).trans ?_
  exact (or_none (bind_none hfloat _) _).trans (or_some ((bind_some hinteger _).trans rfl) _)

/-! All plain values. -/

def Plain.value : Plain → Value
  | text s => .text s
  | number n => .integer n
  | boolean b => .boolean b

def Plain.Fits : Plain → Prop
  | number n => n < 9223372036854775808
  | _ => True

theorem head_writtenText (s : String) : ∃ c w, (writtenText s).toList = c :: w ∧ isQuote c = true := by
  unfold writtenText
  dsimp only
  rw [String.toList_ofList]
  repeat' split
  all_goals exact ⟨_, _, rfl, by decide⟩

theorem scalar_text (s : String) (rest : List Char) :
    scalar ((writtenText s).toList ++ '\n' :: rest) = some (.text s, '\n' :: rest) :=
  or_some ((bind_some (textValue_written s (ends_cons (by decide))) _).trans rfl) _

theorem scalar_boolean (b : Bool) (rest : List Char) :
    scalar ((toString b).toList ++ '\n' :: rest) = some (.boolean b, '\n' :: rest) := by
  cases b <;> rfl

theorem toList_toString (n : Nat) : (toString n).toList = Nat.toDigits 10 n := by
  rw [Nat.toString_eq_ofList_toDigits, String.toList_ofList]

def beginsValue (c : Char) : Bool := isQuote c || c.isDigit || c = 't' || c = 'f'

theorem head_written (p : Plain) : ∃ c w, p.written.toList = c :: w ∧ beginsValue c = true := by
  cases p with
  | text s =>
    obtain ⟨c, w, hw, hc⟩ := head_writtenText s
    exact ⟨c, w, hw, by simp [beginsValue, hc]⟩
  | number n =>
    obtain ⟨c, w, hw⟩ := List.exists_cons_of_ne_nil (Nat.toDigits_ne_nil (n := n) (b := 10))
    have hc : c.isDigit = true :=
      Nat.isDigit_of_mem_toDigits (by decide) (by decide) (hw ▸ List.mem_cons_self)
    exact ⟨c, w, (toList_toString n).trans hw, by simp [beginsValue, hc]⟩
  | boolean b => cases b <;> exact ⟨_, _, rfl, by decide⟩

theorem value_written {p : Plain} (hp : p.Fits) (rest : List Char) :
    value (p.written.toList ++ '\n' :: rest) = some (p.value, '\n' :: rest) := by
  have hscalar : scalar (p.written.toList ++ '\n' :: rest) = some (p.value, '\n' :: rest) := by
    cases p with
    | text s => exact scalar_text s rest
    | number n =>
      change scalar ((toString n).toList ++ '\n' :: rest) = _
      rw [toList_toString]
      exact scalar_number hp rest
    | boolean b => exact scalar_boolean b rest
  obtain ⟨c, w, hw, hc⟩ := head_written p
  rw [hw] at hscalar ⊢
  have hne {d : Char} (hd : beginsValue d = false) : c ≠ d := of_decide_eq_false (ne_of_kind hd c hc)
  exact value_of_scalar (hne (by decide)) (hne (by decide)) hscalar

end TreeShare.Toml
