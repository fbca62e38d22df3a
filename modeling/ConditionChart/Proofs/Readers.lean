import ConditionChart.Json.Value
import ConditionChart.Proofs.Skipping

/-!
# Readers on what is spelled

A reader answers to a spelling with one outcome, wherever the spelling stands. For text, truth values
and natural numbers the outcome is what was spelled.
-/

namespace ConditionChart.Json

open Spelling

variable {α β : Type} {P : List Char → Prop} {start text middle rest : List Char} {c : Char}

/-- The outcome is a given one, where a value leaves `rest`. -/
def Yields (x : Except Error (α × { rest // P rest })) : Except Error α → List Char → Prop
  | .ok a, rest => Gives x a rest
  | .error e, _ => x = .error e

/-- Either there is a value, or both fail alike. -/
theorem Yields.ok_or_error {x : Except Error (α × { rest // P rest })} {outcome : Except Error α}
    (h : Yields x outcome rest) :
    (∃ a, outcome = .ok a ∧ ∃ hrest, x = .ok (a, ⟨rest, hrest⟩)) ∨
      ∃ e, outcome = .error e ∧ x = .error e := by
  cases outcome with
  | ok a => exact .inl ⟨a, rfl, h⟩
  | error e => exact .inr ⟨e, rfl, h⟩

/-- A reader has one outcome for whatever is spelled, with any blanks before it, unless a number goes
on behind it. -/
def Reads (r : Reader α) (s : Spelling) (outcome : Except Error α) : Prop :=
  ∀ ⦃start text rest⦄, blanks start text → s text rest → EndsNumber rest →
    Yields (r start) outcome rest

theorem yields_map {x : Except Error (α × { rest // P rest })} {outcome : Except Error α}
    (h : Yields x outcome rest) (f : α → β) :
    Yields (x.map fun (a, tail) => (f a, tail)) (outcome.map f) rest := by
  obtain ⟨a, rfl, _, rfl⟩ | ⟨e, rfl, rfl⟩ := h.ok_or_error
  · exact ⟨_, rfl⟩
  · rfl

/-- A reader whose value begins where the blanks end. -/
theorem yields_valueReader {wanted : String}
    {take : (c : Char) → (rest : List Char) → Option (Except Error (α × Tail rest))}
    {outcome : Except Error α} (h : skipBlanks start = c :: middle)
    (htake : ∃ reading, take c middle = some reading ∧ Yields reading outcome rest) :
    Yields (valueReader wanted take start) outcome rest := by
  obtain ⟨reading, htake, hreading⟩ := htake
  unfold valueReader
  split
  next heq => simp [h] at heq
  next heq =>
    obtain ⟨rfl, rfl⟩ := List.cons.inj (h.symm.trans heq)
    simp only [htake]
    obtain ⟨a, rfl, _, rfl⟩ | ⟨e, rfl, rfl⟩ := hreading.ok_or_error
    · exact ⟨_, rfl⟩
    · rfl

section Values

theorem reads_string (s : String) : Reads readString (string s) (.ok s) := by
  rintro start text rest hstart ⟨_, rfl, _, hcontent, _, rfl, rfl⟩ -
  obtain ⟨_, hscan⟩ := gives_scanString hcontent
  refine yields_valueReader (skipBlanks_eq hstart (by decide)) ⟨_, if_pos rfl, ?_⟩
  simp only [hscan, bind, Except.bind, String.ofList_toList]
  exact ⟨_, rfl⟩

theorem yields_word (letters rest : List Char) (a : α) :
    Yields ((scanWord letters (letters ++ rest)).map fun tail => (a, tail)) (.ok a) rest := by
  obtain ⟨_, hword⟩ := leaves_scanWord letters rest
  rw [hword]
  exact ⟨_, rfl⟩

theorem reads_flag (b : Bool) : Reads readFlag (flag b) (.ok b) := by
  rintro start text rest hstart rfl -
  cases b with
  | true =>
      exact yields_valueReader (skipBlanks_eq hstart (by decide))
        ⟨_, rfl, yields_word ['r', 'u', 'e'] rest true⟩
  | false =>
      exact yields_valueReader (skipBlanks_eq hstart (by decide))
        ⟨_, rfl, yields_word ['a', 'l', 's', 'e'] rest false⟩

theorem reads_valueOf {n : Nat} (hn : n < UInt64.size) (part : Option (Reader Literal)) :
    Reads (valueOf part) (natural n) (.ok (.natural n)) := by
  rintro start text rest hstart htext hrest
  obtain ⟨_, hread⟩ := gives_readNumber hn htext hrest
  obtain ⟨c, more, rfl, hc⟩ := natural_cons htext
  have hnumber : c = '-' ∨ isDigit c = true := .inr hc
  refine yields_valueReader (skipBlanks_eq hstart (isBlank_of_number hnumber)) ?_
  rw [if_neg (ne_of_number hnumber), if_neg (ne_of_number hnumber), if_neg (ne_of_number hnumber),
    if_neg (ne_of_number hnumber), if_pos hnumber, hread]
  exact ⟨_, rfl, _, rfl⟩

/-- A natural number of 64 bits is kept of a value of any kind. -/
theorem reads_literal {n : Nat} (hn : n < UInt64.size) (depth : Nat) :
    Reads (readLiteral depth) (natural n) (.ok (.natural n)) := by
  cases depth with
  | zero => exact reads_valueOf hn none
  | succ depth => exact reads_valueOf hn (some (readLiteral depth))

/-- Null is not among the spellings, and each of them begins at once. -/
def Spelling.Present (s : Spelling) : Prop := ∀ ⦃text rest⦄, s text rest →
  ∃ c more, text = c :: more ∧ isBlank c = false ∧ c ≠ 'n'

theorem present_string (s : String) : (string s).Present := by
  rintro text rest ⟨_, rfl, -⟩
  exact ⟨_, _, rfl, by decide, by decide⟩

theorem present_natural (n : Nat) : (natural n).Present := by
  intro text rest h
  obtain ⟨c, more, rfl, hc⟩ := natural_cons h
  exact ⟨c, more, rfl, isBlank_of_number (.inr hc), ne_of_number (.inr hc)⟩

theorem reads_optional {r : Reader α} {s : Spelling} {outcome : Except Error α}
    (h : Reads r s outcome) (hs : s.Present) : Reads (optional r) s (outcome.map some) := by
  rintro start text rest hstart htext hrest
  obtain ⟨c, more, rfl, hc, hnull⟩ := hs htext
  have hfront := skipBlanks_eq hstart hc
  unfold optional
  split
  next heq => simp [hfront] at heq
  next heq =>
    obtain ⟨rfl, rfl⟩ := List.cons.inj (hfront.symm.trans heq)
    rw [if_neg hnull]
    exact yields_map (h hstart htext hrest) some

end Values

section Names

/-- Behind the closing brace no member is left. -/
theorem gives_nextName_none (first : Bool) (h : chain [blanks, mark '\x7d'] text rest) :
    Gives (nextName first text) none rest := by
  obtain ⟨_, hblanks, _, rfl, rfl⟩ := h
  have hfront := skipBlanks_eq hblanks (by decide)
  unfold nextName
  split
  next heq => simp [hfront] at heq
  next heq =>
    obtain ⟨rfl, rfl⟩ := List.cons.inj (hfront.symm.trans heq)
    exact ⟨_, rfl⟩

/-- A quoted name behind its separator is read. -/
theorem gives_nextName_quoted {first : Bool} {s : String}
    (hseparator : separator first text middle) (hblanks : blanks middle ('"' :: start))
    (hcontent : Content s.toList start ('"' :: rest)) : Gives (nextName first text) (some s) rest := by
  obtain ⟨_, hscan⟩ := gives_scanString hcontent
  have hquote := skipBlanks_eq hblanks (by decide)
  cases first with
  | true =>
      obtain rfl := hseparator
      unfold nextName
      split
      next heq => simp [hquote] at heq
      next heq =>
        obtain ⟨rfl, rfl⟩ := List.cons.inj (hquote.symm.trans heq)
        simp only [Char.reduceEq, if_true, if_false, Shorter.ofBlanks, hscan, bind, Except.bind,
          String.ofList_toList]
        exact ⟨_, rfl⟩
  | false =>
      obtain ⟨_, hblanks', _, rfl, rfl⟩ := hseparator
      have hcomma := skipBlanks_eq hblanks' (by decide)
      unfold nextName
      split
      next heq => simp [hcomma] at heq
      next heq =>
        obtain ⟨rfl, rfl⟩ := List.cons.inj (hcomma.symm.trans heq)
        simp only [Char.reduceEq, if_true, Bool.false_eq_true, if_false]
        split
        next heq => simp [hquote] at heq
        next heq =>
          obtain ⟨rfl, rfl⟩ := List.cons.inj (hquote.symm.trans heq)
          simp only [if_true, Shorter.ofBlanks, Shorter.trans, Shorter.toTail, hscan, bind,
            Except.bind, String.ofList_toList]
          exact ⟨_, rfl⟩

/-- The name of a member is read, and behind its colon the value is left with the blanks before it. -/
theorem gives_nextName {first : Bool} {s : String} (h : chain [separator first, name s] text rest) :
    ∃ behind place, Gives (nextName first text) (some s) behind ∧
      Leaves (readColon behind) place ∧ blanks place rest := by
  obtain ⟨_, hseparator, _, ⟨_, hblanks, _, hname, behind, hcolon, place, rfl, _, hplace, rfl⟩, rfl⟩ := h
  obtain ⟨_, rfl, _, hcontent, _, rfl, rfl⟩ := hname
  exact ⟨_, place, gives_nextName_quoted hseparator hblanks hcontent, leaves_readColon hcolon, hplace⟩

end Names

/-- A whole text is read as what it spells. -/
theorem readAll_eq {r : Reader α} {s : Spelling} {outcome : Except Error α} {text : String}
    (h : Reads r s outcome) (htext : Spells s text) : readAll r text = outcome := by
  obtain ⟨_, hstart, rest, hs, _, hrest, rfl⟩ := htext
  have hread := h hstart hs (endsNumber_of_blanks hrest endsNumber_nil)
  rw [readAll]
  obtain ⟨a, rfl, _, hread⟩ | ⟨e, rfl, hread⟩ := hread.ok_or_error
  · simp only [hread, bind, Except.bind, skipBlanks_of_blanks hrest]
    rfl
  · rw [hread]
    rfl

end ConditionChart.Json
