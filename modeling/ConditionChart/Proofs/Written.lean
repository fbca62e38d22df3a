import ConditionChart.Json.Document
import ConditionChart.Proofs.Spelling

/-!
# Written documents are spelled

What is written for a document is one of its spellings: strings with their escapes, and objects with
their members one to a line.
-/

namespace ConditionChart.Json

open Spelling

variable {text rest s : List Char}

section Strings

theorem hexValue?_digitChar : ∀ k < 16, hexValue? (Nat.digitChar k) = some k := by
  decide

/-- A control character is written by its number. -/
theorem hex_of_control {c : Char} (hc : c.toNat < 0x20) :
    hex c.toNat ('0' :: '0' :: Nat.digitChar (c.toNat / 16) :: Nat.digitChar (c.toNat % 16) :: text) text :=
  ⟨_, _, _, _, 0, 0, _, _, rfl, rfl, rfl, hexValue?_digitChar _ (by omega),
    hexValue?_digitChar _ (Nat.mod_lt _ (by decide)), by omega⟩

/-- A character is written as it is or by an escape that stands for it. -/
theorem content_escapeChar (c : Char) (h : Content s text rest) :
    Content (c :: s) (escapeChar c ++ text) rest := by
  fun_cases escapeChar c with
  | case1 | case2 | case3 | case4 | case5 | case6 | case7 =>
      subst c
      exact .short rfl h
  | case8 _ _ _ _ _ _ _ hcontrol =>
      have hpoint := Content.point (hex_of_control hcontrol) (.inl (by omega)) h
      rwa [Char.ofNat_toNat] at hpoint
  | case9 hquote hbackslash _ _ _ _ _ hcontrol =>
      exact .raw ⟨hquote, hbackslash, Nat.le_of_not_lt hcontrol⟩ h

theorem content_flatMap (s rest : List Char) : Content s (s.flatMap escapeChar ++ rest) rest := by
  induction s with
  | nil => exact .nil rest
  | cons c s ih =>
      rw [List.flatMap_cons, List.append_assoc]
      exact content_escapeChar c ih

theorem string_quoted (s : String) (rest : List Char) :
    Spelling.string s ((quoted s).toList ++ rest) rest := by
  have hquoted : (quoted s).toList ++ rest = '"' :: (s.toList.flatMap escapeChar ++ '"' :: rest) := by
    simp [quoted]
  exact ⟨_, hquoted, '"' :: rest, content_flatMap _ _, rest, rfl, rfl⟩

end Strings

theorem blanks_newline (depth : Nat) (rest : List Char) :
    blanks ((newline depth).toList ++ rest) rest := by
  refine ⟨_, rfl, fun c hc => ?_⟩
  rw [newline, String.toList_ofList, List.mem_cons, List.mem_replicate] at hc
  exact hc.elim (fun hline => .inr (.inl hline)) fun hindent => .inl hindent.2

namespace Document

/-- What is written for a document is spelled, at any depth. -/
def Writes (d : Document) (s : Spelling) : Prop :=
  ∀ depth rest, s ((d.textAt depth).toList ++ rest) rest

theorem writes_string (s : String) : (string s).Writes (.string s) := fun _ rest => by
  rw [textAt]
  exact string_quoted s rest

theorem writes_natural (n : Nat) : (natural n).Writes (.natural n) := fun _ rest => by
  rw [textAt, Spelling.natural, word, Nat.toString_eq_repr, Nat.toList_repr]

theorem writes_flag (b : Bool) : (flag b).Writes (.flag b) := fun _ rest => by
  rw [textAt, Spelling.flag, word]
  cases b <;> simp

section Members

variable {known : List String} {documents : List (String × Document)}
  {wanted : List (String × Spelling)}

/-- A member of an object is spelled under its own name. -/
def WritesMember (m : String × Document) (m' : String × Spelling) : Prop :=
  m.1 = m'.1 ∧ m.2.Writes m'.2

/-- One member as it is written. -/
def memberText (depth : Nat) (m : String × Document) : List Char :=
  (quoted m.1).toList ++ ':' :: ' ' :: (m.2.textAt depth).toList

/-- The members after the first one as they are written, each behind a comma on a line of its own. -/
def laterTexts (depth : Nat) (documents : List (String × Document)) : List Char :=
  documents.flatMap fun m => ',' :: (newline depth).toList ++ memberText depth m

theorem toList_memberTexts (depth : Nat) :
    (memberTexts depth documents).map String.toList = documents.map (memberText depth) := by
  induction documents with
  | nil => rfl
  | cons m documents ih => simp [memberTexts, memberText, ih]

theorem intercalate_cons_eq_flatMap {α : Type} (sep first : List α) (more : List (List α)) :
    sep.intercalate (first :: more) = first ++ more.flatMap (sep ++ ·) := by
  induction more generalizing first with
  | nil => simp
  | cons next more ih => simp [ih]

theorem toList_textAt_object (depth : Nat) (m : String × Document) :
    ((object (m :: documents)).textAt depth).toList =
      '\x7b' :: (newline (depth + 1)).toList ++ memberText (depth + 1) m ++
        laterTexts (depth + 1) documents ++ (newline depth).toList ++ ['\x7d'] := by
  simp [textAt, memberTexts, bracketed, toList_memberTexts, intercalate_cons_eq_flatMap, memberText,
    laterTexts, List.flatMap_map]

/-- A name is written with its quotes and a colon, and a blank stands before the value. -/
theorem name_written {m : String × Document} {s : String} (hname : m.1 = s) {depth : Nat}
    (h : blanks text (memberText depth m ++ rest)) :
    name s text ((m.2.textAt depth).toList ++ rest) := by
  subst hname
  rw [memberText, List.append_assoc] at h
  exact ⟨_, h, _, string_quoted m.1 _, _, blanks_refl _, _, rfl, _, ⟨[' '], rfl, by simp⟩, rfl⟩

theorem members_written (h : List.Forall₂ WritesMember documents wanted) (depth : Nat)
    (rest : List Char) :
    members false wanted
      (laterTexts (depth + 1) documents ++ ((newline depth).toList ++ '\x7d' :: rest)) rest := by
  induction h with
  | nil => exact ⟨_, blanks_newline depth _, rest, rfl, rfl⟩
  | cons hm _ ih =>
      obtain ⟨hname, hvalue⟩ := hm
      rw [laterTexts, List.flatMap_cons, ← laterTexts]
      simp only [List.cons_append, List.append_assoc]
      exact ⟨_, ⟨_, blanks_refl _, _, rfl, rfl⟩, _, name_written hname (blanks_newline _ _), _,
        hvalue _ _, _, ih, rfl⟩

/-- An object is written with its members in their order. -/
theorem writes_object (h : List.Forall₂ WritesMember documents wanted) :
    (object documents).Writes (.object wanted) := by
  intro depth rest
  cases h with
  | nil =>
      have htext : ((object []).textAt depth).toList = ['\x7b', '\x7d'] := by
        simp [textAt, memberTexts, bracketed]
      rw [htext]
      exact ⟨_, rfl, _, ⟨_, blanks_refl _, rest, rfl, rfl⟩, rfl⟩
  | cons hm hmore =>
      obtain ⟨hname, hvalue⟩ := hm
      rw [toList_textAt_object]
      simp only [List.cons_append, List.append_assoc]
      exact ⟨_, rfl, _, ⟨_, rfl, _, name_written hname (blanks_newline _ _), _, hvalue _ _, _,
        members_written hmore depth rest, rfl⟩, rfl⟩

/-- A record may be written without further members, and with its members in any order. -/
theorem writes_record {ordered : List (String × Spelling)} (horder : ordered.Perm wanted)
    (h : List.Forall₂ WritesMember documents ordered) :
    (object documents).Writes (.record known wanted) := fun depth rest =>
  ⟨[], ordered, by simp, by simpa using horder, writes_object h depth rest⟩

end Members

/-- The text of a document is spelled as a whole. -/
theorem spells_text {d : Document} {s : Spelling} (h : d.Writes s) : s.Spells d.text := by
  have hwhole := h 0 []
  rw [List.append_nil] at hwhole
  exact ⟨_, blanks_refl _, [], hwhole, [], blanks_refl _, rfl⟩

end Document

end ConditionChart.Json
