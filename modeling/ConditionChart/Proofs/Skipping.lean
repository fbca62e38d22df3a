import ConditionChart.Proofs.Scanning

/-!
# Passing over what is spelled

A value of any kind is passed over as a whole, however deep it nests: where it ends, the same brackets
are open as where it began. The proof follows the grammar and needs one equation for each thing that
passing over can meet.
-/

namespace ConditionChart.Json

open Spelling

variable {text middle rest : List Char} {c : Char}

section Blanks

/-- Neither blanks nor what closes or parts the members of something go on with a number. -/
theorem endsNumber_of_blanks (h : blanks text rest) (hrest : EndsNumber rest) : EndsNumber text := by
  obtain ⟨front, rfl, hfront⟩ := h
  cases front with
  | nil => exact hrest
  | cons c front =>
      obtain rfl | rfl | rfl | rfl := hfront c (by simp)
      all_goals simp [EndsNumber, isDigit]

theorem endsNumber_comma : EndsNumber (',' :: rest) := by
  simp [EndsNumber, isDigit]

theorem endsNumber_closing (b : Bracket) : EndsNumber (b.closing :: rest) := by
  cases b <;> simp [EndsNumber, isDigit, Bracket.closing]

end Blanks

section Names

theorem leaves_readColon (h : blanks text (':' :: rest)) : Leaves (readColon text) rest := by
  have hfront := skipBlanks_eq h (by decide)
  unfold readColon
  split
  next heq => simp [hfront] at heq
  next heq =>
    obtain ⟨rfl, rfl⟩ := List.cons.inj (hfront.symm.trans heq)
    exact ⟨_, rfl⟩

/-- Behind a name and its colon the value is left, with the blanks before it. -/
theorem leaves_skipName (h : anyName text rest) :
    ∃ place, Leaves (skipName text) place ∧ blanks place rest := by
  obtain ⟨_, hfront, _, hname, _, hcolon, place, rfl, _, hplace, rfl⟩ := h
  obtain ⟨_, rfl, _, hcontent, _, rfl, rfl⟩ := hname
  have hfront := skipBlanks_eq hfront (by decide)
  obtain ⟨_, hname⟩ := leaves_skipString hcontent
  obtain ⟨_, hcolon⟩ := leaves_readColon hcolon
  refine ⟨place, ?_, hplace⟩
  unfold skipName
  split
  next heq => simp [hfront] at heq
  next heq =>
    obtain ⟨rfl, rfl⟩ := List.cons.inj (hfront.symm.trans heq)
    simp only [if_true, hname, bind, Except.bind, hcolon]
    exact ⟨_, rfl⟩

/-- Behind the blanks a name begins with its quote. -/
theorem anyName_blanks (h : anyName text rest) :
    ∃ quoted, blanks text ('"' :: quoted) ∧ anyName ('"' :: quoted) rest := by
  obtain ⟨_, hblanks, _, ⟨_, rfl, hcontent⟩, hcolon⟩ := h
  exact ⟨_, hblanks, _, blanks_refl _, _, ⟨_, rfl, hcontent⟩, hcolon⟩

end Names

/-- How far passing over has come: what it does next, which brackets are open, and the text that is
left. -/
structure SkipState where
  phase : SkipPhase
  opened : List Bracket
  text : List Char

namespace SkipState

/-- Passing over comes from one place to another, whatever is left behind it. -/
def Reaches (a b : SkipState) : Prop := ∀ limit (fits : a.text.length < limit), ∃ fits',
  skipLoop limit a.phase a.opened a.text fits = skipLoop limit b.phase b.opened b.text fits'

theorem Reaches.trans {a b c : SkipState} (h : a.Reaches b) (h' : b.Reaches c) : a.Reaches c := by
  intro limit fits
  obtain ⟨fits', hab⟩ := h limit fits
  obtain ⟨fits'', hbc⟩ := h' limit fits'
  exact ⟨fits'', hab.trans hbc⟩

variable {opened : List Bracket}

-- One equation for each thing that can stand where a value begins or has just ended.

theorem reaches_scalar (h : skipBlanks text = c :: middle) (hlist : c ≠ '[') (hobject : c ≠ '\x7b')
    (hscalar : Leaves (skipScalar c middle) rest) :
    Reaches ⟨.atValue, opened, text⟩ ⟨.afterValue, opened, rest⟩ := by
  intro limit (fits : text.length < limit)
  have hfits := length_le_of_skipBlanks h
  obtain ⟨hrest, hscalar⟩ := hscalar
  refine ⟨by grind, ?_⟩
  rw [skipLoop]
  split
  next heq => simp [h] at heq
  next heq =>
    obtain ⟨rfl, rfl⟩ := List.cons.inj (h.symm.trans heq)
    simp only [if_neg hlist, if_neg hobject, hscalar]

theorem reaches_emptyList (h : skipBlanks text = '[' :: middle)
    (hmiddle : skipBlanks middle = ']' :: rest) :
    Reaches ⟨.atValue, opened, text⟩ ⟨.afterValue, opened, rest⟩ := by
  intro limit (fits : text.length < limit)
  have hfits := length_le_of_skipBlanks h
  have hfits' := length_le_of_skipBlanks hmiddle
  refine ⟨by grind, ?_⟩
  rw [skipLoop]
  split
  next heq => simp [h] at heq
  next heq =>
    obtain ⟨rfl, rfl⟩ := List.cons.inj (h.symm.trans heq)
    rw [if_pos rfl]
    split
    next heq => simp [hmiddle] at heq
    next heq =>
      obtain ⟨rfl, rfl⟩ := List.cons.inj (hmiddle.symm.trans heq)
      rw [if_pos rfl]

theorem reaches_list (h : skipBlanks text = '[' :: middle) (hmiddle : skipBlanks middle = c :: rest)
    (hc : c ≠ ']') :
    Reaches ⟨.atValue, opened, text⟩ ⟨.atValue, .list :: opened, c :: rest⟩ := by
  intro limit (fits : text.length < limit)
  have hfits := length_le_of_skipBlanks h
  have hfits' := length_le_of_skipBlanks hmiddle
  refine ⟨by grind, ?_⟩
  rw [skipLoop]
  split
  next heq => simp [h] at heq
  next heq =>
    obtain ⟨rfl, rfl⟩ := List.cons.inj (h.symm.trans heq)
    rw [if_pos rfl]
    split
    next heq => simp [hmiddle] at heq
    next heq =>
      obtain ⟨rfl, rfl⟩ := List.cons.inj (hmiddle.symm.trans heq)
      rw [if_neg hc]

theorem reaches_emptyObject (h : skipBlanks text = '\x7b' :: middle)
    (hmiddle : skipBlanks middle = '\x7d' :: rest) :
    Reaches ⟨.atValue, opened, text⟩ ⟨.afterValue, opened, rest⟩ := by
  intro limit (fits : text.length < limit)
  have hfits := length_le_of_skipBlanks h
  have hfits' := length_le_of_skipBlanks hmiddle
  refine ⟨by grind, ?_⟩
  rw [skipLoop]
  split
  next heq => simp [h] at heq
  next heq =>
    obtain ⟨rfl, rfl⟩ := List.cons.inj (h.symm.trans heq)
    rw [if_neg (by decide), if_pos rfl]
    split
    next heq => simp [hmiddle] at heq
    next heq =>
      obtain ⟨rfl, rfl⟩ := List.cons.inj (hmiddle.symm.trans heq)
      rw [if_pos rfl]

theorem reaches_object (h : skipBlanks text = '\x7b' :: middle) (hmiddle : skipBlanks middle = c :: rest)
    (hc : c ≠ '\x7d') {place : List Char} (hname : Leaves (skipName (c :: rest)) place) :
    Reaches ⟨.atValue, opened, text⟩ ⟨.atValue, .object :: opened, place⟩ := by
  intro limit (fits : text.length < limit)
  have hfits := length_le_of_skipBlanks h
  have hfits' := length_le_of_skipBlanks hmiddle
  obtain ⟨hplace, hname⟩ := hname
  refine ⟨by grind, ?_⟩
  rw [skipLoop]
  split
  next heq => simp [h] at heq
  next heq =>
    obtain ⟨rfl, rfl⟩ := List.cons.inj (h.symm.trans heq)
    rw [if_neg (by decide), if_pos rfl]
    split
    next heq => simp [hmiddle] at heq
    next heq =>
      obtain ⟨rfl, rfl⟩ := List.cons.inj (hmiddle.symm.trans heq)
      simp only [if_neg hc, hname]

theorem reaches_closing {b : Bracket} (h : skipBlanks text = b.closing :: rest) :
    Reaches ⟨.afterValue, b :: opened, text⟩ ⟨.afterValue, opened, rest⟩ := by
  intro limit (fits : text.length < limit)
  have hfits := length_le_of_skipBlanks h
  refine ⟨by grind, ?_⟩
  rw [skipLoop]
  split
  next heq => simp [h] at heq
  next heq =>
    obtain ⟨rfl, rfl⟩ := List.cons.inj (h.symm.trans heq)
    rw [if_neg (by cases b <;> decide), if_pos rfl]

theorem reaches_nextItem (h : skipBlanks text = ',' :: rest) :
    Reaches ⟨.afterValue, .list :: opened, text⟩ ⟨.atValue, .list :: opened, rest⟩ := by
  intro limit (fits : text.length < limit)
  have hfits := length_le_of_skipBlanks h
  refine ⟨by grind, ?_⟩
  conv_lhs => rw [skipLoop]
  split
  next heq => simp [h] at heq
  next heq =>
    obtain ⟨rfl, rfl⟩ := List.cons.inj (h.symm.trans heq)
    rw [if_pos rfl]

theorem reaches_nextMember (h : skipBlanks text = ',' :: middle) {place : List Char}
    (hname : Leaves (skipName middle) place) :
    Reaches ⟨.afterValue, .object :: opened, text⟩ ⟨.atValue, .object :: opened, place⟩ := by
  intro limit (fits : text.length < limit)
  have hfits := length_le_of_skipBlanks h
  obtain ⟨hplace, hname⟩ := hname
  refine ⟨by grind, ?_⟩
  conv_lhs => rw [skipLoop]
  split
  next heq => simp [h] at heq
  next heq =>
    obtain ⟨rfl, rfl⟩ := List.cons.inj (h.symm.trans heq)
    simp only [if_true, hname]

end SkipState

section Values

/-- What begins a number begins nothing else. -/
theorem ne_of_number {d : Char} (hc : c = '-' ∨ isDigit c = true)
    (hd : ¬ (d = '-' ∨ isDigit d = true) := by decide) : c ≠ d := by
  rintro rfl
  exact hd hc

theorem isBlank_of_number (hc : c = '-' ∨ isDigit c = true) : isBlank c = false := by
  simp only [isBlank, Bool.or_eq_false_iff, beq_eq_false_iff_ne]
  exact ⟨⟨⟨ne_of_number hc, ne_of_number hc⟩, ne_of_number hc⟩, ne_of_number hc⟩

theorem leaves_skipScalar_number (h : number (c :: text) rest) (hc : c = '-' ∨ isDigit c = true)
    (hrest : EndsNumber rest) : Leaves (skipScalar c text) rest := by
  obtain ⟨_, hskip⟩ := leaves_skipNumber h hrest
  rw [skipScalar, if_neg (ne_of_number hc), if_neg (ne_of_number hc), if_neg (ne_of_number hc),
    if_neg (ne_of_number hc), if_pos hc, hskip]
  exact ⟨_, rfl⟩

theorem leaves_skipScalar_string (h : AnyContent text ('"' :: rest)) :
    Leaves (skipScalar '"' text) rest := by
  obtain ⟨_, hskip⟩ := leaves_skipString h
  rw [skipScalar, if_neg (by decide), if_neg (by decide), if_neg (by decide), if_pos rfl, hskip]
  exact ⟨_, rfl⟩

/-- A value begins with a character that is no blank and closes no list. -/
theorem value_cons (h : Any .value text rest) :
    ∃ c more, text = c :: more ∧ isBlank c = false ∧ c ≠ ']' := by
  cases h with
  | null h | true h | false h => exact ⟨_, _, h, by decide, by decide⟩
  | number h =>
      obtain ⟨c, more, rfl, hc⟩ := number_cons h
      exact ⟨c, more, rfl, isBlank_of_number hc, ne_of_number hc⟩
  | string h | emptyList h | list h | emptyObject h | object h =>
      obtain ⟨_, rfl, -⟩ := h
      exact ⟨_, _, rfl, by decide, by decide⟩

/-- What follows an item or a member does not go on with a number. -/
theorem endsNumber_of_any {part : Part} (h : Any part text rest) (hpart : part ≠ .value) :
    EndsNumber text := by
  cases h with
  | null | true | false | number | string | emptyList | list | emptyObject | object =>
      exact absurd rfl hpart
  | lastItem h =>
      obtain ⟨_, hblanks, _, rfl, rfl⟩ := h
      exact endsNumber_of_blanks hblanks (endsNumber_closing .list)
  | lastMember h =>
      obtain ⟨_, hblanks, _, rfl, rfl⟩ := h
      exact endsNumber_of_blanks hblanks (endsNumber_closing .object)
  | nextItem h =>
      obtain ⟨_, hblanks, _, rfl, -⟩ := h
      exact endsNumber_of_blanks hblanks endsNumber_comma
  | nextMember h =>
      obtain ⟨_, hblanks, _, rfl, -⟩ := h
      exact endsNumber_of_blanks hblanks endsNumber_comma

namespace SkipState

/-- Where passing over stands in front of a part of a value. -/
def before (part : Part) (opened : List Bracket) (text : List Char) : SkipState :=
  match part with
  | .value => ⟨.atValue, opened, text⟩
  | .items => ⟨.afterValue, .list :: opened, text⟩
  | .members => ⟨.afterValue, .object :: opened, text⟩

/-- Each part of a value is passed over, with the blanks before it, and closes the bracket that it
was found in. -/
theorem reaches_of_any {part : Part} (h : Any part text rest) (hrest : EndsNumber rest)
    {start : List Char} (hstart : blanks start text) (opened : List Bracket) :
    (before part opened start).Reaches ⟨.afterValue, opened, rest⟩ := by
  -- A list or an object opens its bracket, passes over the first value with the bracket open, and
  -- what follows that value closes the bracket again.
  induction h generalizing start opened with
  | null h =>
      obtain rfl := h
      exact reaches_scalar (skipBlanks_eq hstart (by decide)) (by decide) (by decide)
        (leaves_scanWord ['u', 'l', 'l'] _)
  | true h =>
      obtain rfl := h
      exact reaches_scalar (skipBlanks_eq hstart (by decide)) (by decide) (by decide)
        (leaves_scanWord ['r', 'u', 'e'] _)
  | false h =>
      obtain rfl := h
      exact reaches_scalar (skipBlanks_eq hstart (by decide)) (by decide) (by decide)
        (leaves_scanWord ['a', 'l', 's', 'e'] _)
  | number h =>
      obtain ⟨c, more, rfl, hc⟩ := number_cons h
      exact reaches_scalar (skipBlanks_eq hstart (isBlank_of_number hc)) (ne_of_number hc)
        (ne_of_number hc) (leaves_skipScalar_number h hc hrest)
  | string h =>
      obtain ⟨_, rfl, _, hcontent, _, rfl, rfl⟩ := h
      exact reaches_scalar (skipBlanks_eq hstart (by decide)) (by decide) (by decide)
        (leaves_skipScalar_string hcontent)
  | emptyList h =>
      obtain ⟨_, rfl, _, hblanks, _, rfl, rfl⟩ := h
      exact reaches_emptyList (skipBlanks_eq hstart (by decide)) (skipBlanks_eq hblanks (by decide))
  | list h hfirst hmore ihfirst ihmore =>
      obtain ⟨_, rfl, _, hblanks, rfl⟩ := h
      obtain ⟨c, more, rfl, hc, hclosing⟩ := value_cons hfirst
      refine (reaches_list (skipBlanks_eq hstart (by decide)) (skipBlanks_eq hblanks hc)
        hclosing).trans ?_
      exact (ihfirst (endsNumber_of_any hmore (by decide)) (blanks_refl _) (.list :: opened)).trans
        (ihmore hrest (blanks_refl _) opened)
  | emptyObject h =>
      obtain ⟨_, rfl, _, hblanks, _, rfl, rfl⟩ := h
      exact reaches_emptyObject (skipBlanks_eq hstart (by decide)) (skipBlanks_eq hblanks (by decide))
  | object h hfirst hmore ihfirst ihmore =>
      obtain ⟨_, rfl, _, hname, rfl⟩ := h
      obtain ⟨quoted, hblanks, hname⟩ := anyName_blanks hname
      obtain ⟨place, hleaves, hplace⟩ := leaves_skipName hname
      refine (reaches_object (skipBlanks_eq hstart (by decide)) (skipBlanks_eq hblanks (by decide))
        (by decide) hleaves).trans ?_
      exact (ihfirst (endsNumber_of_any hmore (by decide)) hplace (.object :: opened)).trans
        (ihmore hrest (blanks_refl _) opened)
  | lastItem h =>
      obtain ⟨_, hblanks, _, rfl, rfl⟩ := h
      exact reaches_closing (skipBlanks_eq (blanks_trans hstart hblanks) (by decide))
  | nextItem h hnext hmore ihnext ihmore =>
      obtain ⟨_, hblanks, _, rfl, _, hblanks', rfl⟩ := h
      refine (reaches_nextItem (skipBlanks_eq (blanks_trans hstart hblanks) (by decide))).trans ?_
      exact (ihnext (endsNumber_of_any hmore (by decide)) hblanks' (.list :: opened)).trans
        (ihmore hrest (blanks_refl _) opened)
  | lastMember h =>
      obtain ⟨_, hblanks, _, rfl, rfl⟩ := h
      exact reaches_closing (skipBlanks_eq (blanks_trans hstart hblanks) (by decide))
  | nextMember h hnext hmore ihnext ihmore =>
      obtain ⟨_, hblanks, _, rfl, _, hname, rfl⟩ := h
      obtain ⟨place, hleaves, hplace⟩ := leaves_skipName hname
      refine (reaches_nextMember (skipBlanks_eq (blanks_trans hstart hblanks) (by decide))
        hleaves).trans ?_
      exact (ihnext (endsNumber_of_any hmore (by decide)) hplace (.object :: opened)).trans
        (ihmore hrest (blanks_refl _) opened)

end SkipState

/-- A value of any kind is passed over. -/
theorem leaves_skipValue (h : anyValue text rest) (hrest : EndsNumber rest) {start : List Char}
    (hstart : blanks start text) : Leaves (skipValue start) rest := by
  obtain ⟨fits, hloop⟩ := SkipState.reaches_of_any h hrest hstart [] (start.length + 1)
    (Nat.lt_succ_self _)
  rw [skipValue]
  simp only [SkipState.before] at hloop
  rw [hloop, skipLoop]
  exact ⟨_, rfl⟩

end Values

end ConditionChart.Json
