import ConditionChart.Proofs.DocumentText
import ConditionChart.Proofs.Readers

/-!
# Lists on what is spelled

A list is spelled item by item, with commas between the items. It is read as the list of what its
items are read as, and a written list is spelled by its written items.
-/

namespace ConditionChart.Json

variable {α : Type} {text middle rest : List Char} {c : Char}

namespace Spelling

/-- The word for the absence of a value. -/
def null : Spelling := word ['n', 'u', 'l', 'l']

/-- The given items of a list in their order, up to the closing bracket. -/
def items (first : Bool) : List Spelling → Spelling
  | [] => chain [blanks, mark ']']
  | value :: more => chain [separator first, blanks, value, items false more]

/-- A list with the given items in their order. -/
def list (all : List Spelling) : Spelling := chain [mark '[', items true all]

/-- Each of the spellings begins at once, and none of them as a list ends. -/
def Item (s : Spelling) : Prop := ∀ ⦃text rest⦄, s text rest →
  ∃ c more, text = c :: more ∧ isBlank c = false ∧ c ≠ ']'

end Spelling

open Spelling

section Items

variable {first : Bool}

/-- What follows an item of a list does not go on with a number. -/
theorem endsNumber_of_items {spelled : List Spelling} (h : items false spelled text rest) :
    EndsNumber text := by
  cases spelled with
  | nil =>
      obtain ⟨_, hblanks, _, rfl, -⟩ := h
      exact endsNumber_of_blanks hblanks (endsNumber_closing .list)
  | cons s more =>
      obtain ⟨_, ⟨_, hblanks, _, rfl, rfl⟩, -⟩ := h
      exact endsNumber_of_blanks hblanks endsNumber_comma

/-- Behind the closing bracket no item is left. -/
theorem gives_nextItem_false (first : Bool) (h : chain [blanks, mark ']'] text rest) :
    Gives (nextItem first text) false rest := by
  obtain ⟨_, hblanks, _, rfl, rfl⟩ := h
  have hfront := skipBlanks_eq hblanks (by decide)
  unfold nextItem
  split
  next heq => simp [hfront] at heq
  next heq =>
    obtain ⟨rfl, rfl⟩ := List.cons.inj (hfront.symm.trans heq)
    exact ⟨_, rfl⟩

/-- Behind its separator an item is found, without the blanks before it. -/
theorem gives_nextItem_true (hseparator : separator first text middle)
    (hblanks : blanks middle (c :: rest)) (hc : isBlank c = false) (hclosing : c ≠ ']') :
    Gives (nextItem first text) true (c :: rest) := by
  have hitem := skipBlanks_eq hblanks hc
  cases first with
  | true =>
      obtain rfl := hseparator
      unfold nextItem
      split
      next heq => simp [hitem] at heq
      next heq =>
        obtain ⟨rfl, rfl⟩ := List.cons.inj (hitem.symm.trans heq)
        rw [if_neg hclosing, if_pos rfl]
        exact ⟨_, rfl⟩
  | false =>
      obtain ⟨_, hblanks', _, rfl, rfl⟩ := hseparator
      have hcomma := skipBlanks_eq hblanks' (by decide)
      unfold nextItem
      split
      next heq => simp [hcomma] at heq
      next heq =>
        obtain ⟨rfl, rfl⟩ := List.cons.inj (hcomma.symm.trans heq)
        rw [if_neg (by decide), if_neg Bool.false_ne_true, if_pos rfl]
        split
        next heq => simp [hitem] at heq
        next heq =>
          obtain ⟨rfl, rfl⟩ := List.cons.inj (hitem.symm.trans heq)
          rw [if_neg hclosing]
          exact ⟨_, rfl⟩

/-- The items of a list are read one after the other. -/
theorem gives_readItems {item : Reader α} {spelled : List Spelling} {values : List α}
    (hitems : List.Forall₂ (fun s a => s.Item ∧ Reads item s (.ok a)) spelled values)
    (h : items first spelled text rest) : Gives (readItems item first text) values rest := by
  induction hitems generalizing first text with
  | nil =>
      obtain ⟨_, hend⟩ := gives_nextItem_false first h
      rw [readItems, hend]
      exact ⟨_, rfl⟩
  | cons hitem _ ih =>
      obtain ⟨hbegins, hreads⟩ := hitem
      obtain ⟨_, hseparator, _, hblanks, after, hvalue, _, hmore, rfl⟩ := h
      obtain ⟨c, more, rfl, hc, hclosing⟩ := hbegins hvalue
      obtain ⟨_, hnext⟩ := gives_nextItem_true hseparator hblanks hc hclosing
      obtain ⟨_, hread⟩ := hreads (blanks_refl _) hvalue (endsNumber_of_items hmore)
      obtain ⟨_, htail⟩ := ih hmore
      rw [readItems, hnext]
      simp only [bind, Except.bind, hread, htail]
      exact ⟨_, rfl⟩

end Items

/-- A list is read as the list of what its items are read as. -/
theorem reads_list {item : Reader α} {spelled : List Spelling} {values : List α}
    (hitems : List.Forall₂ (fun s a => s.Item ∧ Reads item s (.ok a)) spelled values) :
    Reads (readList item) (list spelled) (.ok values) := by
  rintro start text rest hstart ⟨_, rfl, _, hinner, rfl⟩ -
  apply yields_valueReader (skipBlanks_eq hstart (by decide))
  exact ⟨_, if_pos rfl, gives_readItems hitems hinner⟩

/-- Null is read as nothing. -/
theorem reads_null (value : Reader α) : Reads (optional value) null (.ok none) := by
  rintro start text rest hstart rfl -
  have hfront := skipBlanks_eq hstart (by decide)
  unfold optional
  split
  next heq => simp [hfront] at heq
  next heq =>
    obtain ⟨rfl, rfl⟩ := List.cons.inj (hfront.symm.trans heq)
    rw [if_pos rfl]
    exact ⟨_, rfl⟩

/-- A natural number of 32 bits is read as it is. -/
theorem reads_uint32 (n : UInt32) : Reads readUInt32 (natural n.toNat) (.ok n) := by
  rintro start text rest hstart htext hrest
  have hfits : n.toNat < UInt32.size := n.toNat_lt
  obtain ⟨_, hread⟩ := gives_readNumber (Nat.lt_trans hfits (by decide)) htext hrest
  obtain ⟨c, more, rfl, hc⟩ := natural_cons htext
  have hnumber : c = '-' ∨ isDigit c = true := .inr hc
  apply yields_valueReader (skipBlanks_eq hstart (isBlank_of_number hnumber))
  refine ⟨_, if_pos hnumber, ?_⟩
  rw [hread]
  simp only [bind, Except.bind, if_pos hfits, UInt32.ofNat_toNat]
  exact ⟨_, rfl⟩

namespace Document

variable {documents : List Document} {spelled : List Spelling}

theorem writes_null : Document.null.Writes .null := fun _ rest => by
  rw [textAt]
  rfl

/-- The items after the first one as they are written, up to the closing bracket. -/
theorem items_written (h : List.Forall₂ Writes documents spelled) (depth : Nat) (rest : List Char) :
    items false spelled (laterLines (textAt (depth + 1)) depth documents ++
      ((newline depth).toList ++ ']' :: rest)) rest := by
  induction h with
  | nil => exact ⟨_, blanks_newline depth _, rest, rfl, rfl⟩
  | cons hd _ ih =>
      rw [laterLines, List.flatMap_cons, ← laterLines]
      simp only [List.cons_append, List.append_assoc]
      exact ⟨_, ⟨_, blanks_refl _, _, rfl, rfl⟩, _, blanks_newline _ _, _, hd _ _, _, ih, rfl⟩

/-- A list is written item by item. -/
theorem writes_list (h : List.Forall₂ Writes documents spelled) :
    (list documents).Writes (.list spelled) := by
  intro depth rest
  rw [textAt, itemTexts_eq_map]
  cases h with
  | nil =>
      have htext : (bracketed "[" "]" depth []).toList = ['[', ']'] := by
        simp [bracketed]
      rw [List.map_nil, htext]
      exact ⟨_, rfl, _, ⟨_, blanks_refl _, rest, rfl, rfl⟩, rfl⟩
  | cons hd hmore =>
      rw [toList_bracketed_cons]
      simp only [List.append_assoc]
      exact ⟨_, rfl, _, ⟨_, rfl, _, blanks_newline _ _, _, hd _ _, _,
        items_written hmore depth rest, rfl⟩, rfl⟩

end Document

end ConditionChart.Json
