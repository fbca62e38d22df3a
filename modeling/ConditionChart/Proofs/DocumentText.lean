import ConditionChart.Proofs.Scanning
import ConditionChart.Proofs.Written

/-!
# Texts of documents

A document can be read off its text as far as it is shown there: strings, lists and objects as they
are, and everything else as the word that is written for it. Each part of a text shows where it ends,
since words, strings, lists and objects begin with different characters, and since no word goes on
where a line ends.
-/

namespace ConditionChart.Json

/-- What a text shows of a document. -/
inductive Shown
  /-- A number, a truth value or null, by its letters. -/
  | word (letters : List Char)
  | string (s : String)
  | list (items : List Shown)
  | object (members : List (String × Shown))

namespace Document

mutual

/-- What the text of a document shows of it. -/
def shown : Document → Shown
  | null => .word "null".toList
  | flag b => .word (if b then "true" else "false").toList
  | natural n => .word (toString n).toList
  | single x => .word (Decimal.singleText x).toList
  | string s => .string s
  | list items => .list (shownItems items)
  | object members => .object (shownMembers members)

/-- What is shown of the items of a list. -/
def shownItems : List Document → List Shown
  | [] => []
  | d :: rest => d.shown :: shownItems rest

/-- What is shown of the members of an object. -/
def shownMembers : List (String × Document) → List (String × Shown)
  | [] => []
  | (name, d) :: rest => (name, d.shown) :: shownMembers rest

end

/-- The text of a member on its line. -/
def lineText (depth : Nat) (m : String × Document) : String :=
  quoted m.1 ++ ": " ++ m.2.textAt depth

/-- What is shown of a member. -/
def shownMember (m : String × Document) : String × Shown := (m.1, m.2.shown)

theorem shownItems_eq_map (items : List Document) : shownItems items = items.map shown := by
  induction items with
  | nil => rfl
  | cons d items ih => rw [shownItems, ih, List.map_cons]

theorem shownMembers_eq_map (members : List (String × Document)) :
    shownMembers members = members.map shownMember := by
  induction members with
  | nil => rfl
  | cons m members ih => rw [shownMembers, ih, List.map_cons, shownMember]

theorem itemTexts_eq_map (depth : Nat) (items : List Document) :
    itemTexts depth items = items.map (textAt depth) := by
  induction items with
  | nil => rfl
  | cons d items ih => rw [itemTexts, ih, List.map_cons]

theorem memberTexts_eq_map (depth : Nat) (members : List (String × Document)) :
    memberTexts depth members = members.map (lineText depth) := by
  induction members with
  | nil => rfl
  | cons m members ih => rw [memberTexts, ih, List.map_cons, lineText]

end Document

section Words

variable {letters letters' rest rest' : List Char}

/-- A character of numbers and of the words for truth values and null. -/
def isWordChar (c : Char) : Bool := c.isAlphanum || c == '.' || c == '+' || c == '-'

/-- Letters that are written as one word. -/
structure IsWord (letters : List Char) : Prop where
  ne_nil : letters ≠ []
  all : ∀ c ∈ letters, isWordChar c = true

theorem isWord_of_all (hne : letters ≠ []) (h : letters.all isWordChar = true) : IsWord letters :=
  ⟨hne, List.all_eq_true.mp h⟩

/-- No word goes on. -/
def EndsWord (rest : List Char) : Prop := ∀ c ∈ rest.head?, isWordChar c = false

/-- Words that agree, whatever follows them, are one word. -/
theorem IsWord.append_inj (h : IsWord letters) (h' : IsWord letters') (hrest : EndsWord rest)
    (hrest' : EndsWord rest') (heq : letters ++ rest = letters' ++ rest') :
    letters = letters' ∧ rest = rest' :=
  append_inj_of_head h.all h'.all hrest hrest' heq

theorem IsWord.append (h : IsWord letters) (h' : ∀ c ∈ letters', isWordChar c = true) :
    IsWord (letters ++ letters') :=
  ⟨by simp [h.ne_nil], List.forall_mem_append.mpr ⟨h.all, h'⟩⟩

theorem IsWord.append_left (h : ∀ c ∈ letters, isWordChar c = true) (h' : IsWord letters') :
    IsWord (letters ++ letters') :=
  ⟨by simp [h'.ne_nil], List.forall_mem_append.mpr ⟨h, h'.all⟩⟩

theorem isWord_toDigits (n : Nat) : IsWord (Nat.toDigits 10 n) where
  ne_nil := Nat.toDigits_ne_nil
  all c hc := by
    have hdigit : c.isDigit = true := Nat.isDigit_of_mem_toDigits (by decide) (by decide) hc
    simp [isWordChar, Char.isAlphanum, hdigit]

end Words

end ConditionChart.Json

namespace ConditionChart.Decimal

open Json (IsWord isWordChar isWord_of_all isWord_toDigits)

variable {digits : List Char}

theorem subset_dropZeros (digits : List Char) : (dropZeros digits).1 ⊆ digits := by
  intro c hc
  have hkept : c ∈ digits.reverse.dropWhile (· = '0') := List.mem_reverse.mp hc
  exact List.mem_reverse.mp ((List.dropWhile_sublist _).subset hkept)

theorem isWordChar_of_mem_shortest {tie : Tie} {f : BinaryFormat} {m : Nat} {q : Int} {c : Char}
    (hc : c ∈ (shortest tie f m q).1) : isWordChar c = true :=
  (isWord_toDigits _).all c (subset_dropZeros _ hc)

/-- Digits with zeros behind them, so many that there is one at least. -/
theorem isWord_whole (h : ∀ c ∈ digits, isWordChar c = true) (places : Nat) :
    IsWord (digits.take (places + 1) ++ List.replicate (places + 1 - digits.length) '0') := by
  have hzeros : ∀ c ∈ List.replicate (places + 1 - digits.length) '0', isWordChar c = true := by
    intro c hc
    rw [List.eq_of_mem_replicate hc]
    rfl
  cases digits with
  | nil => exact ⟨by simp, hzeros⟩
  | cons d digits =>
      refine IsWord.append ⟨by simp, ?_⟩ hzeros
      exact fun c hc => h c (List.mem_of_mem_take hc)

theorem isWord_positional (layout : Layout) (h : ∀ c ∈ digits, isWordChar c = true)
    (exponent : Int) : IsWord (layout.positional digits exponent) := by
  fun_cases Layout.positional layout digits exponent with
  | case1 _ =>
      refine IsWord.append ⟨by simp, ?_⟩ h
      simp +decide [List.mem_replicate]
  | case2 _ width whole _ =>
      refine (isWord_whole h exponent.toNat).append (List.all_eq_true.mp ?_)
      split <;> rfl
  | case3 _ width whole _ =>
      have hfraction : ∀ c ∈ digits.drop width, isWordChar c = true :=
        fun c hc => h c (List.mem_of_mem_drop hc)
      exact (isWord_whole h exponent.toNat).append (List.forall_mem_cons.mpr ⟨rfl, hfraction⟩)

theorem isWord_scientific (h : ∀ c ∈ digits, isWordChar c = true) (exponent : Int) :
    IsWord (Layout.scientific digits exponent) := by
  have hmark : ∀ c ∈ ['e', if exponent < 0 then '-' else '+'], isWordChar c = true := by
    refine List.all_eq_true.mp ?_
    split <;> rfl
  have hpower : IsWord ('e' :: (if exponent < 0 then '-' else '+') ::
      Nat.toDigits 10 exponent.natAbs) := (isWord_toDigits exponent.natAbs).append_left hmark
  match digits, h with
  | [], _ => exact hpower
  | [_], h => exact hpower.append_left h
  | first :: second :: rest, h =>
      obtain ⟨hfirst, hrest⟩ := List.forall_mem_cons.mp h
      exact hpower.append_left
        (List.forall_mem_cons.mpr ⟨hfirst, List.forall_mem_cons.mpr ⟨rfl, hrest⟩⟩)

/-- A number is written as one word in every layout. -/
theorem isWord_text (layout : Layout) (format : BinaryFormat) (bits : Nat) :
    IsWord (layout.text format bits).toList := by
  have hsign : ∀ c ∈ if format.isNegative bits then ['-'] else [], isWordChar c = true := by
    refine List.all_eq_true.mp ?_
    split <;> rfl
  fun_cases Layout.text layout format bits with
  | case1 _ => exact isWord_of_all (by decide) (by decide)
  | case2 sign _ =>
      rw [String.toList_ofList]
      exact .append_left hsign (isWord_of_all (by decide) (by decide))
  | case3 sign _ _ =>
      rw [String.toList_ofList]
      exact .append_left hsign (isWord_positional layout (List.all_eq_true.mp rfl) 0)
  | case4 sign m q _ _ digits exponent hshortest =>
      have hdigits : ∀ c ∈ digits, isWordChar c = true := by
        rw [show digits = (shortest layout.tie format m q).1 by rw [hshortest]]
        exact fun c hc => isWordChar_of_mem_shortest hc
      rw [String.toList_ofList]
      refine .append_left hsign ?_
      rw [Layout.digitText]
      split
      · exact isWord_positional layout hdigits exponent
      · exact isWord_scientific hdigits exponent

/-- Every finite number is written as one word in JSON, and so is what stands for the others. -/
theorem isWord_singleText (x : Float32) : IsWord (singleText x).toList := by
  rw [singleText]
  split
  · exact isWord_text _ _ _
  · exact isWord_of_all (by decide) (by decide)

end ConditionChart.Decimal

namespace ConditionChart.Json

open Spelling (Content)

section Strings

variable {s s' text rest rest' : List Char}

/-- What is spelled is read in one way only. -/
theorem content_unique (h : Content s text ('"' :: rest)) (h' : Content s' text ('"' :: rest')) :
    s = s' ∧ rest = rest' := by
  obtain ⟨_, hread⟩ := gives_scanString h
  obtain ⟨_, hread'⟩ := gives_scanString h'
  simp_all

theorem quoted_append_inj {s s' : String} {rest rest' : List Char}
    (h : (quoted s).toList ++ rest = (quoted s').toList ++ rest') : s = s' ∧ rest = rest' := by
  have hquoted : ∀ (s : String) (rest : List Char), (quoted s).toList ++ rest =
      '"' :: (s.toList.flatMap escapeChar ++ '"' :: rest) := by
    simp [quoted]
  rw [hquoted, hquoted, List.cons.injEq] at h
  obtain ⟨hs, hrest⟩ := content_unique (content_flatMap s.toList _) (h.2 ▸ content_flatMap s'.toList _)
  exact ⟨String.toList_inj.mp hs, hrest⟩

end Strings

section Lines

variable {α β : Type}

/-- Where the text of `a` agrees with another one, whatever follows them, both show the same. -/
def Tells (text : α → String) (shows : α → β) (a : α) : Prop :=
  ∀ {b : α} {rest rest' : List Char}, EndsWord rest → EndsWord rest' →
    (text a).toList ++ rest = (text b).toList ++ rest' → shows a = shows b ∧ rest = rest'

variable {text : α → String} {shows : α → β} {as bs : List α} {rest rest' : List Char}

/-- The lines after the first one, up to the line of the closing bracket. -/
def laterLines (text : α → String) (depth : Nat) (as : List α) : List Char :=
  as.flatMap fun a => ',' :: (newline (depth + 1)).toList ++ (text a).toList

theorem toList_bracketed_cons (opening closing : String) (depth : Nat) (a : α) (as : List α) :
    (bracketed opening closing depth ((a :: as).map text)).toList =
      opening.toList ++ (newline (depth + 1)).toList ++ (text a).toList ++
        laterLines text depth as ++ (newline depth).toList ++ closing.toList := by
  simp [bracketed, Document.intercalate_cons_eq_flatMap, laterLines, List.flatMap_map]

theorem endsWord_newline (depth : Nat) (rest : List Char) :
    EndsWord ((newline depth).toList ++ rest) := by
  simp [newline, EndsWord, isWordChar, Char.isAlphanum]

/-- No word goes on where a line ends. -/
theorem endsWord_laterLines (depth : Nat) (as : List α) (rest : List Char) :
    EndsWord (laterLines text depth as ++ ((newline depth).toList ++ rest)) := by
  cases as with
  | nil => exact endsWord_newline depth rest
  | cons a as => simp [laterLines, EndsWord, isWordChar, Char.isAlphanum]

/-- A further line begins with a comma, the last one does not. -/
theorem laterLines_append_inj (h : ∀ a ∈ as, Tells text shows a) {depth : Nat}
    (heq : laterLines text depth as ++ ((newline depth).toList ++ rest) =
      laterLines text depth bs ++ ((newline depth).toList ++ rest')) :
    as.map shows = bs.map shows ∧ rest = rest' := by
  induction as generalizing bs with
  | nil =>
      cases bs with
      | nil => exact ⟨rfl, List.append_cancel_left (List.append_cancel_left heq)⟩
      | cons b bs => simp [laterLines, newline] at heq
  | cons a as ih =>
      cases bs with
      | nil => simp [laterLines, newline] at heq
      | cons b bs =>
          obtain ⟨ha, has⟩ := List.forall_mem_cons.mp h
          simp only [laterLines, List.flatMap_cons, List.cons_append, List.append_assoc,
            List.cons.injEq, true_and, List.append_cancel_left_eq] at heq
          obtain ⟨hshows, hmore⟩ := ha (endsWord_laterLines depth as rest)
            (endsWord_laterLines depth bs rest') heq
          obtain ⟨hall, hrest⟩ := ih has hmore
          exact ⟨by rw [List.map_cons, List.map_cons, hshows, hall], hrest⟩

/-- Texts between brackets can be told apart if the texts on the lines can. -/
theorem bracketed_append_inj {opening closing : String} {c : Char} (hclosing : closing.toList = [c])
    (hc : c ≠ '\n') (h : ∀ a ∈ as, Tells text shows a) {depth : Nat}
    (heq : (bracketed opening closing depth (as.map text)).toList ++ rest =
      (bracketed opening closing depth (bs.map text)).toList ++ rest') :
    as.map shows = bs.map shows ∧ rest = rest' := by
  cases as with
  | nil =>
      cases bs with
      | nil => exact ⟨rfl, List.append_cancel_left heq⟩
      | cons b bs =>
          rw [toList_bracketed_cons] at heq
          simp [bracketed, hclosing, newline, hc] at heq
  | cons a as =>
      cases bs with
      | nil =>
          rw [toList_bracketed_cons] at heq
          simp [bracketed, hclosing, newline, hc.symm] at heq
      | cons b bs =>
          obtain ⟨ha, has⟩ := List.forall_mem_cons.mp h
          rw [toList_bracketed_cons, toList_bracketed_cons] at heq
          simp only [List.append_assoc, List.append_cancel_left_eq] at heq
          obtain ⟨hshows, hmore⟩ := ha (endsWord_laterLines depth as _)
            (endsWord_laterLines depth bs _) heq
          obtain ⟨hall, hrest⟩ := laterLines_append_inj has hmore
          exact ⟨by rw [List.map_cons, List.map_cons, hshows, hall], List.append_cancel_left hrest⟩

end Lines

namespace Document

/-- A member is told by its name and its value. -/
theorem tells_lineText {depth : Nat} {m : String × Document} (h : Tells (textAt depth) shown m.2) :
    Tells (lineText depth) shownMember m := by
  intro m' rest rest' hrest hrest' heq
  simp only [lineText, String.toList_append, List.append_assoc] at heq
  obtain ⟨hname, hvalue⟩ := quoted_append_inj heq
  obtain ⟨hshown, hrest⟩ := h hrest hrest' (List.append_cancel_left hvalue)
  exact ⟨Prod.ext hname hshown, hrest⟩

/-- The character that a document begins with if it is not written as a word. -/
def mark? : Document → Option Char
  | null | flag _ | natural _ | single _ => none
  | string _ => some '"'
  | list _ => some '['
  | object _ => some '\x7b'

/-- A document without a mark is shown by one word. -/
theorem word_of_mark? {d : Document} (h : d.mark? = none) :
    ∃ letters, IsWord letters ∧ d.shown = .word letters ∧
      ∀ depth, (d.textAt depth).toList = letters := by
  cases d with
  | null => exact ⟨_, isWord_of_all (by decide) (by decide), rfl, fun _ => rfl⟩
  | flag b =>
      exact ⟨_, by cases b <;> exact isWord_of_all (by decide) (by decide), rfl, fun _ => rfl⟩
  | natural n =>
      refine ⟨Nat.toDigits 10 n, isWord_toDigits n, ?_, fun _ => ?_⟩
      · simp [shown]
      · simp [textAt]
  | single x => exact ⟨_, Decimal.isWord_singleText x, rfl, fun _ => rfl⟩
  | string _ | list _ | object _ => cases h

theorem toList_bracketed (opening closing : String) (depth : Nat) (lines : List String) :
    ∃ more, (bracketed opening closing depth lines).toList = opening.toList ++ more := by
  cases lines with
  | nil => exact ⟨_, String.toList_append⟩
  | cons line lines =>
      simp only [bracketed, String.toList_append, List.append_assoc]
      exact ⟨_, rfl⟩

/-- The first character tells how a document is written. -/
theorem exists_head (d : Document) (depth : Nat) :
    ∃ c more, (d.textAt depth).toList = c :: more ∧
      d.mark? = if isWordChar c then none else some c := by
  cases hmark : d.mark? with
  | none =>
      obtain ⟨letters, hword, -, htext⟩ := word_of_mark? hmark
      cases letters with
      | nil => exact absurd rfl hword.ne_nil
      | cons c letters => exact ⟨c, letters, htext depth, by rw [hword.all c (by simp), if_pos rfl]⟩
  | some mark =>
      cases d with
      | null | flag _ | natural _ | single _ => cases hmark
      | string s =>
          cases hmark
          exact ⟨'"', _, by rw [textAt, quoted, String.append_assoc, String.toList_append]; rfl, rfl⟩
      | list items =>
          cases hmark
          obtain ⟨more, hmore⟩ := toList_bracketed "[" "]" depth (itemTexts (depth + 1) items)
          exact ⟨'[', more, by rw [textAt, hmore]; rfl, rfl⟩
      | object members =>
          cases hmark
          obtain ⟨more, hmore⟩ :=
            toList_bracketed "\x7b" "\x7d" depth (memberTexts (depth + 1) members)
          exact ⟨'\x7b', more, by rw [textAt, hmore]; rfl, rfl⟩

theorem mark?_eq {d d' : Document} {depth : Nat} {rest rest' : List Char}
    (h : (d.textAt depth).toList ++ rest = (d'.textAt depth).toList ++ rest') :
    d.mark? = d'.mark? := by
  obtain ⟨c, more, htext, hmark⟩ := d.exists_head depth
  obtain ⟨c', more', htext', hmark'⟩ := d'.exists_head depth
  rw [htext, htext', List.cons_append, List.cons_append, List.cons.injEq] at h
  rw [hmark, hmark', h.1]

section Tells

variable {depth : Nat}

theorem tells_word {d : Document} (h : d.mark? = none) : Tells (textAt depth) shown d := by
  intro d' rest rest' hrest hrest' heq
  obtain ⟨letters, hword, hshown, htext⟩ := word_of_mark? h
  obtain ⟨letters', hword', hshown', htext'⟩ := word_of_mark? ((mark?_eq heq).symm.trans h)
  rw [htext, htext'] at heq
  obtain ⟨hletters, hrest⟩ := hword.append_inj hword' hrest hrest' heq
  exact ⟨by rw [hshown, hshown', hletters], hrest⟩

theorem tells_string (s : String) : Tells (textAt depth) shown (string s) := by
  intro d' rest rest' _ _ heq
  have hmark := mark?_eq heq
  cases d' with
  | string s' =>
      obtain ⟨rfl, hrest⟩ := quoted_append_inj heq
      exact ⟨rfl, hrest⟩
  | _ => cases hmark

theorem tells_list {items : List Document}
    (h : ∀ d ∈ items, Tells (textAt (depth + 1)) shown d) :
    Tells (textAt depth) shown (list items) := by
  intro d' rest rest' _ _ heq
  have hmark := mark?_eq heq
  cases d' with
  | list items' =>
      rw [textAt, textAt, itemTexts_eq_map, itemTexts_eq_map] at heq
      obtain ⟨hitems, hrest⟩ := bracketed_append_inj rfl (by decide) h heq
      exact ⟨by rw [shown, shown, shownItems_eq_map, shownItems_eq_map, hitems], hrest⟩
  | _ => cases hmark

theorem tells_object {members : List (String × Document)}
    (h : ∀ m ∈ members, Tells (textAt (depth + 1)) shown m.2) :
    Tells (textAt depth) shown (object members) := by
  intro d' rest rest' _ _ heq
  have hmark := mark?_eq heq
  cases d' with
  | object members' =>
      rw [textAt, textAt, memberTexts_eq_map, memberTexts_eq_map] at heq
      obtain ⟨hmembers, hrest⟩ :=
        bracketed_append_inj rfl (by decide) (fun m hm => tells_lineText (h m hm)) heq
      exact ⟨by rw [shown, shown, shownMembers_eq_map, shownMembers_eq_map, hmembers], hrest⟩
  | _ => cases hmark

end Tells

mutual

/-- At any depth, the text of a document tells what is shown of it and where it ends. -/
theorem tells_textAt : ∀ (d : Document) (depth : Nat), Tells (textAt depth) shown d
  | null, _ | flag _, _ | natural _, _ | single _, _ => tells_word rfl
  | string s, _ => tells_string s
  | list items, depth => tells_list (tells_items items (depth + 1))
  | object members, depth => tells_object (tells_members members (depth + 1))

theorem tells_items : ∀ (items : List Document) (depth : Nat),
    ∀ d ∈ items, Tells (textAt depth) shown d
  | [], _ => by simp
  | d :: items, depth =>
      List.forall_mem_cons.mpr ⟨tells_textAt d depth, tells_items items depth⟩

theorem tells_members : ∀ (members : List (String × Document)) (depth : Nat),
    ∀ m ∈ members, Tells (textAt depth) shown m.2
  | [], _ => by simp
  | (_, d) :: members, depth =>
      List.forall_mem_cons.mpr ⟨tells_textAt d depth, tells_members members depth⟩

end

/-- Documents of one text show the same. -/
theorem shown_eq_of_text_eq {d d' : Document} (h : d.text = d'.text) : d.shown = d'.shown := by
  have hend : EndsWord [] := by simp [EndsWord]
  have hchars : (d.textAt 0).toList ++ [] = (d'.textAt 0).toList ++ [] :=
    congrArg (fun s => s.toList ++ []) h
  exact (tells_textAt d 0 hend hend hchars).1

/-! ### Documents that show the same -/

@[simp] theorem shown_flag_inj {b b' : Bool} : (flag b).shown = (flag b').shown ↔ b = b' := by
  cases b <;> cases b' <;> simp [shown]

@[simp] theorem shown_natural_inj {n n' : Nat} : (natural n).shown = (natural n').shown ↔ n = n' := by
  simp [shown, toDigits_injective.eq_iff]

@[simp] theorem shown_string_inj {s s' : String} : (string s).shown = (string s').shown ↔ s = s' := by
  simp [shown]

@[simp] theorem shown_list_inj {items items' : List Document} :
    (list items).shown = (list items').shown ↔ items.map shown = items'.map shown := by
  simp [shown, shownItems_eq_map]

@[simp] theorem shown_object_inj {members members' : List (String × Document)} :
    (object members).shown = (object members').shown ↔
      members.map shownMember = members'.map shownMember := by
  simp [shown, shownMembers_eq_map]

@[simp] theorem shownMember_inj {name name' : String} {d d' : Document} :
    shownMember (name, d) = shownMember (name', d') ↔ name = name' ∧ d.shown = d'.shown := by
  simp [shownMember]

/-- Lists agree if they show the same and no two of their elements do. -/
theorem eq_of_map_shown_eq {α : Type} {document : α → Document} {as as' : List α}
    (hinj : ∀ a ∈ as, ∀ a' ∈ as', (document a).shown = (document a').shown → a = a')
    (h : (as.map document).map shown = (as'.map document).map shown) : as = as' := by
  induction as generalizing as' with
  | nil => simpa [eq_comm] using h
  | cons a as ih =>
      cases as' with
      | nil => cases h
      | cons a' as' =>
          obtain ⟨hhead, htail⟩ := List.cons.inj h
          have hmore := fun a ha a' ha' =>
            hinj a (List.mem_cons_of_mem _ ha) a' (List.mem_cons_of_mem _ ha')
          rw [hinj a (by simp) a' (by simp) hhead, ih hmore htail]

/-- A member that may be left out can be told from what follows it. -/
theorem optional_append_inj {α : Type} {name : String} {document : α → Document}
    (hinj : ∀ a a', (document a).shown = (document a').shown → a = a') {o o' : Option α}
    {rest rest' : List (String × Shown)} (hrest : name ∉ rest.map Prod.fst)
    (hrest' : name ∉ rest'.map Prod.fst)
    (h : (o.map fun a => (name, document a)).toList.map shownMember ++ rest =
      (o'.map fun a => (name, document a)).toList.map shownMember ++ rest') :
    o = o' ∧ rest = rest' := by
  cases o with
  | none =>
      cases o' with
      | none => exact ⟨rfl, h⟩
      | some a' =>
          obtain rfl : rest = _ := h
          simp [shownMember] at hrest
  | some a =>
      cases o' with
      | none =>
          obtain rfl : _ = rest' := h
          simp [shownMember] at hrest'
      | some a' =>
          obtain ⟨hmember, hsame⟩ := List.cons.inj h
          exact ⟨congrArg some (hinj a a' (shownMember_inj.mp hmember).2), hsame⟩

theorem optional_inj {α : Type} {name : String} {document : α → Document}
    (hinj : ∀ a a', (document a).shown = (document a').shown → a = a') {o o' : Option α}
    (h : (o.map fun a => (name, document a)).toList.map shownMember =
      (o'.map fun a => (name, document a)).toList.map shownMember) : o = o' :=
  (optional_append_inj hinj List.not_mem_nil List.not_mem_nil (congrArg (· ++ []) h)).1

end Document

end ConditionChart.Json
