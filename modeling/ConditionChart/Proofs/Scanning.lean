import ConditionChart.Json.Skip
import ConditionChart.Proofs.Spelling

/-!
# Scanning what is spelled

What is spelled in front of a text is taken off it as a whole: blanks, words, strings and numbers.
A number ends where no character goes on with it.
-/

namespace ConditionChart.Json

variable {ε α : Type} {P : List Char → Prop}

/-- The outcome is that `rest` is left. -/
def Leaves (x : Except ε { rest // P rest }) (rest : List Char) : Prop := ∃ h, x = .ok ⟨rest, h⟩

/-- The outcome is a value, and that `rest` is left. -/
def Gives (x : Except ε (α × { rest // P rest })) (a : α) (rest : List Char) : Prop :=
  ∃ h, x = .ok (a, ⟨rest, h⟩)

open Spelling

section Blanks

variable {text rest : List Char} {c : Char}

theorem skipBlanks_of_blanks (h : blanks text rest) : skipBlanks text = skipBlanks rest := by
  obtain ⟨front, rfl, hfront⟩ := h
  induction front with
  | nil => rfl
  | cons c front ih =>
      simp only [List.forall_mem_cons] at hfront
      have hc : isBlank c = true := by
        rcases hfront.1 with rfl | rfl | rfl | rfl <;> rfl
      rw [List.cons_append, skipBlanks, List.dropWhile_cons_of_pos hc]
      exact ih hfront.2

/-- Behind the blanks stands what is not one of them. -/
theorem skipBlanks_eq (h : blanks text (c :: rest)) (hc : isBlank c = false) :
    skipBlanks text = c :: rest := by
  rw [skipBlanks_of_blanks h, skipBlanks, List.dropWhile_cons_of_neg (by simp [hc])]

end Blanks

theorem leaves_scanWord (letters rest : List Char) :
    Leaves (scanWord letters (letters ++ rest)) rest := by
  induction letters with
  | nil => exact ⟨_, rfl⟩
  | cons l letters ih =>
      obtain ⟨h, hword⟩ := ih
      rw [List.cons_append, scanWord, if_pos rfl, hword]
      exact ⟨_, rfl⟩

section Strings

variable {text rest s : List Char} {n : Nat}

theorem gives_scanHex (h : hex n text rest) : Gives (scanHex text) n rest := by
  obtain ⟨a, b, c, d, va, vb, vc, vd, rfl, ha, hb, hc, hd, rfl⟩ := h
  simp only [scanHex, ha, hb, hc, hd]
  exact ⟨_, rfl⟩

/-- A raw character is no quote, no backslash and no control character. -/
theorem Spelling.IsRaw.isControl {c : Char} (h : IsRaw c) : isControl c = false := by
  simp [Json.isControl, UInt32.not_lt, h.2.2]

theorem leaves_skipEscape_short {e c : Char} (he : shortEscape? e = some c) :
    Leaves (skipEscape (e :: rest)) rest := by
  have hu : e ≠ 'u' := by
    rintro rfl
    cases he
  simp only [skipEscape, he, Option.isSome_some, if_true]
  exact ⟨_, rfl⟩

theorem leaves_skipEscape_unit (hn : hex n text rest) : Leaves (skipEscape ('u' :: text)) rest := by
  obtain ⟨_, hdigits⟩ := gives_scanHex hn
  rw [skipEscape, hdigits]
  exact ⟨_, rfl⟩

/-- Behind an escape, a string is passed over as if it began there. -/
theorem leaves_skipString_escape {middle : List Char} (hescape : Leaves (skipEscape text) middle)
    (htail : Leaves (skipString middle) rest) : Leaves (skipString ('\\' :: text)) rest := by
  obtain ⟨_, hescape⟩ := hescape
  obtain ⟨_, htail⟩ := htail
  rw [skipString, if_neg (by decide), if_pos rfl, hescape]
  simp only [bind, Except.bind, htail]
  exact ⟨_, rfl⟩

theorem leaves_skipString (h : AnyContent text ('"' :: rest)) : Leaves (skipString text) rest := by
  generalize hend : '"' :: rest = ending at h
  induction h with
  | nil text =>
      subst hend
      rw [skipString]
      exact ⟨_, rfl⟩
  | raw hc _ ih =>
      obtain ⟨_, htail⟩ := ih hend
      rw [skipString, if_neg hc.1, if_neg hc.2.1, hc.isControl, if_neg Bool.false_ne_true, htail]
      exact ⟨_, rfl⟩
  | short he _ ih => exact leaves_skipString_escape (leaves_skipEscape_short he) (ih hend)
  | unit hn _ ih => exact leaves_skipString_escape (leaves_skipEscape_unit hn) (ih hend)

theorem gives_scanEscape_short {e c : Char} (he : shortEscape? e = some c) :
    Gives (scanEscape (e :: rest)) c rest := by
  have hu : e ≠ 'u' := by
    rintro rfl
    cases he
  simp only [scanEscape, he]
  exact ⟨_, rfl⟩

theorem gives_scanCodePoint (hn : hex n text rest) (hplane : n < 0xd800 ∨ 0xdfff < n) :
    Gives (scanCodePoint text) (Char.ofNat n) rest := by
  obtain ⟨_, hdigits⟩ := gives_scanHex hn
  have hlow : isLowSurrogate n = false := by
    simp only [isLowSurrogate, Bool.and_eq_false_iff, decide_eq_false_iff_not]
    omega
  have hhigh : isHighSurrogate n = false := by
    simp only [isHighSurrogate, Bool.and_eq_false_iff, decide_eq_false_iff_not]
    omega
  rw [scanCodePoint, hdigits]
  simp only [bind, Except.bind, hlow, hhigh, Bool.false_eq_true, if_false]
  exact ⟨_, rfl⟩

theorem gives_scanCodePoint_pair {high low : Nat} {middle : List Char}
    (hhigh : hex high text ('\\' :: 'u' :: middle)) (hlow : hex low middle rest)
    (hrange : 0xd800 ≤ high ∧ high ≤ 0xdbff) (hrange' : 0xdc00 ≤ low ∧ low ≤ 0xdfff) :
    Gives (scanCodePoint text)
      (Char.ofNat (0x10000 + (high - 0xd800) * 0x400 + (low - 0xdc00))) rest := by
  obtain ⟨_, hdigits⟩ := gives_scanHex hhigh
  obtain ⟨_, hdigits'⟩ := gives_scanHex hlow
  have hfirst : isLowSurrogate high = false := by
    simp only [isLowSurrogate, Bool.and_eq_false_iff, decide_eq_false_iff_not]
    omega
  have hfirst' : isHighSurrogate high = true := by
    simpa [isHighSurrogate] using hrange
  have hsecond : isLowSurrogate low = true := by
    simpa [isLowSurrogate] using hrange'
  rw [scanCodePoint, hdigits]
  simp only [bind, Except.bind, hfirst, hfirst', hdigits', hsecond, Bool.false_eq_true, if_false,
    if_true]
  exact ⟨_, rfl⟩

theorem gives_scanEscape_point {c : Char} (h : Gives (scanCodePoint text) c rest) :
    Gives (scanEscape ('u' :: text)) c rest := by
  obtain ⟨_, h⟩ := h
  rw [scanEscape, h]
  exact ⟨_, rfl⟩

/-- Behind an escape, a string is read as if it began there. -/
theorem gives_scanString_escape {middle : List Char} {c : Char}
    (hescape : Gives (scanEscape text) c middle) (htail : Gives (scanString middle) s rest) :
    Gives (scanString ('\\' :: text)) (c :: s) rest := by
  obtain ⟨_, hescape⟩ := hescape
  obtain ⟨_, htail⟩ := htail
  rw [scanString, if_neg (by decide), if_pos rfl, hescape]
  simp only [bind, Except.bind, htail]
  exact ⟨_, rfl⟩

theorem gives_scanString (h : Content s text ('"' :: rest)) : Gives (scanString text) s rest := by
  generalize hend : '"' :: rest = ending at h
  induction h with
  | nil text =>
      subst hend
      rw [scanString]
      exact ⟨_, rfl⟩
  | raw hc _ ih =>
      obtain ⟨_, htail⟩ := ih hend
      rw [scanString, if_neg hc.1, if_neg hc.2.1, hc.isControl, if_neg Bool.false_ne_true, htail]
      exact ⟨_, rfl⟩
  | short he _ ih => exact gives_scanString_escape (gives_scanEscape_short he) (ih hend)
  | point hn hplane _ ih =>
      exact gives_scanString_escape (gives_scanEscape_point (gives_scanCodePoint hn hplane))
        (ih hend)
  | pair hhigh hlow hrange hrange' _ ih =>
      exact gives_scanString_escape
        (gives_scanEscape_point (gives_scanCodePoint_pair hhigh hlow hrange hrange')) (ih hend)

end Strings

section Heads

variable {p : Char → Bool} {front front' rest rest' : List Char}

theorem takeWhile_append_of_head (hfront : ∀ c ∈ front, p c = true)
    (hrest : ∀ c ∈ rest.head?, p c = false) : (front ++ rest).takeWhile p = front := by
  rw [List.takeWhile_append_of_pos hfront]
  cases rest with
  | nil => simp
  | cons c rest => simp [hrest c rfl]

/-- Texts that agree have the same characters of one kind in front, and the same behind them. -/
theorem append_inj_of_head (hfront : ∀ c ∈ front, p c = true) (hfront' : ∀ c ∈ front', p c = true)
    (hrest : ∀ c ∈ rest.head?, p c = false) (hrest' : ∀ c ∈ rest'.head?, p c = false)
    (h : front ++ rest = front' ++ rest') : front = front' ∧ rest = rest' := by
  have hsame : front = front' := by
    rw [← takeWhile_append_of_head hfront hrest, h, takeWhile_append_of_head hfront' hrest']
  exact ⟨hsame, List.append_cancel_left (hsame ▸ h)⟩

end Heads

section Numbers

variable {text rest front : List Char} {c : Char} {n : Nat}

/-- No digit stands in front. -/
def EndsDigits (rest : List Char) : Prop := ∀ c ∈ rest.head?, isDigit c = false

/-- Nothing stands in front that goes on with a number. -/
def EndsNumber (rest : List Char) : Prop :=
  ∀ c ∈ rest.head?, isDigit c = false ∧ c ≠ '.' ∧ c ≠ 'e' ∧ c ≠ 'E'

theorem endsNumber_nil : EndsNumber [] := by
  simp [EndsNumber]

theorem EndsNumber.endsDigits (h : EndsNumber rest) : EndsDigits rest := fun c hc => (h c hc).1

theorem leadingDigits_append (hfront : ∀ c ∈ front, isDigit c = true) (hrest : EndsDigits rest) :
    leadingDigits (front ++ rest) = front :=
  takeWhile_append_of_head hfront hrest

theorem afterDigits_append (hfront : ∀ c ∈ front, isDigit c = true) (hrest : EndsDigits rest) :
    afterDigits (front ++ rest) = rest := by
  rw [afterDigits, List.dropWhile_append_of_pos hfront]
  cases rest with
  | nil => simp
  | cons c rest => simp [hrest c rfl]

theorem gives_scanWhole_zero (hrest : EndsDigits rest) :
    Gives (scanWhole ('0' :: rest)) ['0'] rest := by
  have hnone : leadingDigits ([] ++ rest) = [] := leadingDigits_append (by simp) hrest
  rw [List.nil_append] at hnone
  rw [scanWhole, if_pos rfl, hnone]
  exact ⟨_, rfl⟩

theorem gives_scanWhole_digits (hc : isDigit c = true) (hzero : c ≠ '0')
    (hfront : ∀ c ∈ front, isDigit c = true) (hrest : EndsDigits rest) :
    Gives (scanWhole (c :: (front ++ rest))) (c :: front) rest := by
  rw [scanWhole, if_neg hzero, if_pos hc]
  simp only [leadingDigits_append hfront hrest, afterDigits_append hfront hrest]
  exact ⟨_, rfl⟩

theorem gives_scanWhole (h : whole text rest) (hrest : EndsDigits rest) :
    ∃ ds, Gives (scanWhole text) ds rest := by
  obtain rfl | ⟨_, ⟨c, rfl, hc, hzero⟩, _, ⟨front, rfl, hfront⟩, rfl⟩ := h
  · exact ⟨_, gives_scanWhole_zero hrest⟩
  · exact ⟨_, gives_scanWhole_digits hc hzero hfront hrest⟩

theorem gives_scanDigits (h : chain [digit, digits] text rest) (hrest : EndsDigits rest) :
    ∃ ds, Gives (scanDigits text) ds rest := by
  obtain ⟨_, ⟨c, rfl, hc⟩, _, ⟨front, rfl, hfront⟩, rfl⟩ := h
  have hall : ∀ d ∈ c :: front, isDigit d = true := List.forall_mem_cons.mpr ⟨hc, hfront⟩
  rw [← List.cons_append, scanDigits, leadingDigits_append hall hrest]
  simp only [afterDigits_append hall hrest]
  exact ⟨_, _, rfl⟩

/-- No digit stands in front of a fraction, nor where there is none. -/
theorem endsDigits_of_fraction (h : maybe fraction text rest) (hrest : EndsDigits rest) :
    EndsDigits text := by
  obtain rfl | ⟨_, rfl, -⟩ := h
  · exact hrest
  · simp [EndsDigits, isDigit]

theorem gives_scanFraction_none (hpoint : ∀ c ∈ rest.head?, c ≠ '.') :
    Gives (scanFraction rest) none rest := by
  unfold scanFraction
  split
  · exact absurd rfl (hpoint '.' rfl)
  · exact ⟨_, rfl⟩

theorem gives_scanFraction (h : maybe fraction text rest) (hrest : EndsDigits rest)
    (hpoint : ∀ c ∈ rest.head?, c ≠ '.') : ∃ ds, Gives (scanFraction text) ds rest := by
  obtain rfl | ⟨_, rfl, hdigits⟩ := h
  · exact ⟨none, gives_scanFraction_none hpoint⟩
  · obtain ⟨ds, _, hdigits⟩ := gives_scanDigits hdigits hrest
    rw [scanFraction, hdigits]
    exact ⟨some ds, _, rfl⟩

/-- A digit is no sign. -/
theorem scanSign_rest (h : maybe sign text rest) (hdigit : ∀ c ∈ rest.head?, isDigit c = true) :
    (scanSign text).2.1 = rest := by
  obtain rfl | rfl | rfl := h
  · fun_cases scanSign text with
    | case1 => cases hdigit '-' rfl
    | case2 => cases hdigit '+' rfl
    | case3 => simp [scanSign, Tail.all]
  · rfl
  · rfl

/-- Neither a digit nor a point stands in front of a power of ten, nor where there is none. -/
theorem ends_of_exponent (h : maybe exponent text rest) (hrest : EndsNumber rest) :
    EndsDigits text ∧ ∀ c ∈ text.head?, c ≠ '.' := by
  obtain rfl | ⟨_, rfl | rfl, -⟩ := h
  · exact ⟨hrest.endsDigits, fun c hc => (hrest c hc).2.1⟩
  · simp [EndsDigits, isDigit]
  · simp [EndsDigits, isDigit]

theorem gives_scanExponent_none (hrest : EndsNumber rest) : Gives (scanExponent rest) none rest := by
  unfold scanExponent
  split
  · exact ⟨_, rfl⟩
  next c _ =>
    have hc := hrest c rfl
    rw [if_neg (by simp [hc.2.2])]
    exact ⟨_, rfl⟩

theorem gives_scanExponent (h : maybe exponent text rest) (hrest : EndsNumber rest) :
    ∃ size, Gives (scanExponent text) size rest := by
  obtain rfl | ⟨_, hmark, body, hsign, hdigits⟩ := h
  · exact ⟨none, gives_scanExponent_none hrest⟩
  · have hdigit : ∀ c ∈ body.head?, isDigit c = true := by
      obtain ⟨more, ⟨c, rfl, hc⟩, -⟩ := hdigits
      simpa using hc
    obtain rfl := scanSign_rest hsign hdigit
    obtain ⟨ds, _, hdigits⟩ := gives_scanDigits hdigits hrest.endsDigits
    obtain rfl | rfl := hmark
    all_goals
      rw [scanExponent, if_pos (by decide)]
      simp only [bind, Except.bind]
      rw [hdigits]
      exact ⟨_, _, rfl⟩

theorem gives_scanUnsigned (negative : Bool) {behindWhole behindFraction ds : List Char}
    {fs : Option (List Char)} {size : Option Int} (hwhole : Gives (scanWhole text) ds behindWhole)
    (hfraction : Gives (scanFraction behindWhole) fs behindFraction)
    (hexponent : Gives (scanExponent behindFraction) size rest) :
    Gives (scanUnsigned negative text) ⟨negative, ds, fs, size⟩ rest := by
  obtain ⟨_, hwhole⟩ := hwhole
  obtain ⟨_, hfraction⟩ := hfraction
  obtain ⟨_, hexponent⟩ := hexponent
  rw [scanUnsigned, hwhole]
  simp only [bind, Except.bind, hfraction, hexponent]
  exact ⟨_, rfl⟩

theorem exists_gives_scanUnsigned (negative : Bool)
    (h : chain [whole, maybe fraction, maybe exponent] text rest) (hrest : EndsNumber rest) :
    ∃ t, Gives (scanUnsigned negative text) t rest := by
  obtain ⟨_, hwhole, _, hfraction, _, hexponent, rfl⟩ := h
  obtain ⟨hends, hpoint⟩ := ends_of_exponent hexponent hrest
  obtain ⟨ds, hwhole⟩ := gives_scanWhole hwhole (endsDigits_of_fraction hfraction hends)
  obtain ⟨fs, hfraction⟩ := gives_scanFraction hfraction hends hpoint
  obtain ⟨size, hexponent⟩ := gives_scanExponent hexponent hrest
  exact ⟨_, gives_scanUnsigned negative hwhole hfraction hexponent⟩

/-- The digits before the point begin with a digit. -/
theorem whole_cons (h : whole text rest) : ∃ c more, text = c :: more ∧ isDigit c = true := by
  obtain rfl | ⟨_, ⟨c, rfl, hc, -⟩, -⟩ := h
  · exact ⟨_, _, rfl, rfl⟩
  · exact ⟨_, _, rfl, hc⟩

/-- A number begins with a minus or a digit. -/
theorem number_cons (h : number text rest) :
    ∃ c more, text = c :: more ∧ (c = '-' ∨ isDigit c = true) := by
  obtain ⟨_, rfl | rfl, _, hwhole, -⟩ := h
  · obtain ⟨c, more, rfl, hc⟩ := whole_cons hwhole
    exact ⟨c, more, rfl, .inr hc⟩
  · exact ⟨_, _, rfl, .inl rfl⟩

/-- In front of a digit there is no sign. -/
theorem scanNumber_of_isDigit (hc : isDigit c = true) :
    scanNumber (c :: rest) = scanUnsigned false (c :: rest) := by
  rw [scanNumber]
  rintro more ⟨⟩
  cases hc

/-- A number ends where nothing goes on with it. -/
theorem leaves_skipNumber (h : number text rest) (hrest : EndsNumber rest) :
    Leaves (skipNumber text) rest := by
  suffices hscan : ∃ t, Gives (scanNumber text) t rest by
    obtain ⟨t, _, hscan⟩ := hscan
    rw [skipNumber, hscan]
    exact ⟨_, rfl⟩
  obtain ⟨_, rfl | rfl, hunsigned⟩ := h
  · obtain ⟨c, more, rfl, hc⟩ : ∃ c more, text = c :: more ∧ isDigit c = true := by
      obtain ⟨_, hwhole, -⟩ := hunsigned
      exact whole_cons hwhole
    rw [scanNumber_of_isDigit hc]
    exact exists_gives_scanUnsigned false hunsigned hrest
  · obtain ⟨t, _, hscan⟩ := exists_gives_scanUnsigned true hunsigned hrest
    rw [scanNumber, hscan]
    exact ⟨_, _, rfl⟩

theorem isDigit_of_mem_toDigits (hc : c ∈ Nat.toDigits 10 n) : isDigit c = true :=
  Nat.isDigit_of_mem_toDigits (by decide) (by decide) hc

theorem toDigits_injective : (Nat.toDigits 10).Injective := by
  intro n n' h
  rw [← Nat.ofDigitChars_ten_toDigits (n := n), h, Nat.ofDigitChars_ten_toDigits]

/-- A natural number begins with a digit. -/
theorem natural_cons (h : natural n text rest) : ∃ c more, text = c :: more ∧ isDigit c = true := by
  obtain rfl := h
  cases hdigits : Nat.toDigits 10 n with
  | nil => exact absurd hdigits Nat.toDigits_ne_nil
  | cons c front =>
      have hc : c ∈ Nat.toDigits 10 n := by simp [hdigits]
      exact ⟨c, front ++ rest, rfl, isDigit_of_mem_toDigits hc⟩

/-- Only zero is written with a zero in front. -/
theorem eq_zero_of_toDigits {ds : List Char} (h : Nat.toDigits 10 n = '0' :: ds) : n = 0 := by
  induction n using Nat.strongRecOn generalizing ds with
  | ind n ih =>
      by_cases hn : n < 10
      · rw [Nat.toDigits_of_lt_base hn, List.cons.injEq] at h
        simpa [h.1] using (Nat.toNat_digitChar_sub_48_of_lt_ten hn).symm
      · rw [Nat.toDigits_of_base_le (by decide) (Nat.le_of_not_lt hn)] at h
        obtain ⟨front, hfront⟩ : ∃ front, Nat.toDigits 10 (n / 10) = '0' :: front := by
          cases hdigits : Nat.toDigits 10 (n / 10) with
          | nil => exact absurd hdigits Nat.toDigits_ne_nil
          | cons d front =>
              rw [hdigits, List.cons_append, List.cons.injEq] at h
              exact ⟨front, h.1 ▸ rfl⟩
        have hzero := ih (n / 10) (by omega) hfront
        omega

theorem gives_scanWhole_natural (hrest : EndsDigits rest) :
    Gives (scanWhole (Nat.toDigits 10 n ++ rest)) (Nat.toDigits 10 n) rest := by
  by_cases hn : n = 0
  · subst hn
    exact gives_scanWhole_zero hrest
  · cases hdigits : Nat.toDigits 10 n with
    | nil => exact absurd hdigits Nat.toDigits_ne_nil
    | cons c front =>
        have hall : ∀ d ∈ c :: front, isDigit d = true := fun d hd =>
          isDigit_of_mem_toDigits (hdigits ▸ hd)
        obtain ⟨hc, hfront⟩ := List.forall_mem_cons.mp hall
        refine gives_scanWhole_digits hc ?_ hfront hrest
        rintro rfl
        exact hn (eq_zero_of_toDigits hdigits)

/-- Digits that fit are taken as a whole. -/
theorem absorb_eq {significand : Nat} {ds : List Char}
    (h : Nat.ofDigitChars 10 ds significand < UInt64.size) :
    absorb significand ds = (Nat.ofDigitChars 10 ds significand, []) := by
  induction ds generalizing significand with
  | nil => rfl
  | cons c ds ih =>
      have hmore : 10 * significand + digitValue c < UInt64.size := by
        refine Nat.lt_of_le_of_lt ?_ h
        rw [Nat.ofDigitChars_cons, Nat.ofDigitChars_eq_ofDigitChars_zero]
        exact Nat.le_add_right_of_le (Nat.le_mul_of_pos_left _ (Nat.pow_pos (by decide)))
      rw [absorb, if_pos hmore]
      exact ih h

/-- The significand fits into 64 bits while digits are taken into it. -/
theorem absorb_eq_nil_iff {significand v : Nat} {ds : List Char} (h : significand < UInt64.size) :
    absorb significand ds = (v, []) ↔ Nat.ofDigitChars 10 ds significand = v ∧ v < UInt64.size := by
  constructor
  · intro habsorb
    induction ds generalizing significand with
    | nil =>
        obtain rfl := (Prod.mk.inj habsorb).1
        exact ⟨rfl, h⟩
    | cons c ds ih =>
        rw [absorb] at habsorb
        split at habsorb
        next hmore => exact ih hmore habsorb
        next => cases habsorb
  · rintro ⟨rfl, hv⟩
    exact absorb_eq hv

/-- Natural is what is written without sign, fraction and exponent and fits into 64 bits. -/
theorem NumberText.numeral_eq_natural_iff {t : NumberText} : t.numeral = .ok (.natural n) ↔
    (t.negative = false ∧ t.fraction = none ∧ t.exponent = none) ∧
      Nat.ofDigitChars 10 t.whole 0 = n ∧ n < UInt64.size := by
  rw [← absorb_eq_nil_iff (by decide)]
  fun_cases NumberText.numeral t with
  | case1 whole extra habsorb hplain hsign =>
      simp only [Bool.and_eq_true, List.isEmpty_iff, Option.isNone_iff_eq_none] at hplain
      simp_all
  | case2 | case3 => simp_all
  | case4 whole extra habsorb hplain fraction significand unused _ shift =>
      -- What is no whole number of 64 bits becomes a floating-point number, if it is in range.
      constructor
      · intro h
        cases hscaled : scaled significand (shift + t.exponent.getD 0) <;> rw [hscaled] at h <;>
          cases h
      · rintro ⟨⟨-, hfraction, hexponent⟩, hwhole⟩
        simp_all

/-- A natural number of 64 bits is read as it is. -/
theorem gives_readNumber (hn : n < UInt64.size) (h : natural n text rest) (hrest : EndsNumber rest) :
    Gives (readNumber text) (.natural n) rest := by
  obtain ⟨c, more, htext, hc⟩ := natural_cons h
  have hsign : scanNumber text = scanUnsigned false text := htext ▸ scanNumber_of_isDigit hc
  obtain rfl := h
  have hwhole : Gives (scanWhole (Nat.toDigits 10 n ++ rest)) (Nat.toDigits 10 n) rest :=
    gives_scanWhole_natural hrest.endsDigits
  obtain ⟨_, hscan⟩ := gives_scanUnsigned false hwhole
    (gives_scanFraction_none fun c hc => (hrest c hc).2.1) (gives_scanExponent_none hrest)
  have hvalue : NumberText.numeral ⟨false, Nat.toDigits 10 n, none, none⟩ = .ok (.natural n) :=
    NumberText.numeral_eq_natural_iff.mpr
      ⟨⟨rfl, rfl, rfl⟩, Nat.ofDigitChars_ten_toDigits, hn⟩
  rw [readNumber, hsign, hscan]
  simp only [hvalue]
  exact ⟨_, rfl⟩

end Numbers

end ConditionChart.Json
