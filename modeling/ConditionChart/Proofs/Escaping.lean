import ConditionChart.Chart.Markup
import ConditionChart.Proofs.Numbering
import Mathlib.Data.List.Infix

/-!
# Escaped attribute values

A text that is taken as it is comes out as if its characters had been escaped one by one. No escaped
text ends its attribute, and decoding its entities gives the text back. A replaced character ends in
a semicolon, so an escaped text ends like the text itself where no semicolon is in the way. Issued
ids need no escaping.
-/

namespace ConditionChart

namespace Markup

theorem escapeChar_of_ne {c : Char} (hamp : c ≠ '&') (hquote : c ≠ '"') (hless : c ≠ '<')
    (hgreater : c ≠ '>') : escapeChar c = [c] := by
  unfold escapeChar
  split <;> simp_all

theorem mem_replaced {c : Char} : c ∈ replaced ↔ c = '&' ∨ c = '"' ∨ c = '<' ∨ c = '>' := by
  simp only [replaced, List.mem_cons, List.not_mem_nil, or_false]

theorem escapeChar_of_not_replaced {c : Char} (hc : c ∉ replaced) : escapeChar c = [c] := by
  simp only [mem_replaced, not_or] at hc
  obtain ⟨hamp, hquote, hless, hgreater⟩ := hc
  exact escapeChar_of_ne hamp hquote hless hgreater

theorem flatMap_escapeChar_of_disjoint {text : List Char} (h : List.Disjoint replaced text) :
    text.flatMap escapeChar = text := by
  have hsame : ∀ c ∈ text, escapeChar c = [c] := fun c hc =>
    escapeChar_of_not_replaced fun hmark => h hmark hc
  rw [List.flatMap_congr hsame, List.flatMap_singleton']

/-- The short way for a text with nothing to replace gives what the loop gives. -/
theorem escape_eq_escapeEach (text : String) : escape text = escapeEach text := by
  unfold escape
  split
  · rfl
  · next hnone =>
      have hdisjoint : List.Disjoint replaced text.toList := by
        intro c hc hmem
        exact hnone (List.any_eq_true.mpr ⟨c, hmem, List.contains_iff_mem.mpr hc⟩)
      rw [escapeEach, flatMap_escapeChar_of_disjoint hdisjoint, String.ofList_toList]

theorem toList_escape (text : String) : (escape text).toList = text.toList.flatMap escapeChar := by
  rw [escape_eq_escapeEach, escapeEach, String.toList_ofList]

/-- The characters that could end an attribute or a tag. -/
def delimiters : List Char := ['"', '<', '>']

/-- A character stays as it is, or it is replaced by an entity. No mark is left of it. -/
theorem escapeChar_cases (c : Char) :
    (c ∉ delimiters ∧ escapeChar c = [c]) ∨
      ∃ entity, escapeChar c = entity ++ [';'] ∧ ∀ mark ∈ delimiters, mark ∉ escapeChar c := by
  unfold escapeChar
  split
  case h_1 => exact .inr ⟨"&amp".toList, rfl, by simp [delimiters]⟩
  case h_2 => exact .inr ⟨"&quot".toList, rfl, by simp [delimiters]⟩
  case h_3 => exact .inr ⟨"&lt".toList, rfl, by simp [delimiters]⟩
  case h_4 => exact .inr ⟨"&gt".toList, rfl, by simp [delimiters]⟩
  case h_5 => exact .inl ⟨by simp_all [delimiters], rfl⟩

/-- An escaped text has no quotes and no angle brackets. -/
theorem not_mem_escape {mark : Char} (hmark : mark ∈ delimiters) (text : String) :
    mark ∉ (escape text).toList := by
  simp only [toList_escape, List.mem_flatMap, not_exists, not_and]
  intro c _
  rcases escapeChar_cases c with ⟨hc, hsame⟩ | ⟨_, _, hnone⟩
  · rw [hsame, List.mem_singleton]
    rintro rfl
    exact hc hmark
  · exact hnone mark hmark

theorem quote_not_mem_escape (text : String) : '"' ∉ (escape text).toList :=
  not_mem_escape (by decide) text

/-- An ending without semicolon that an escaped text has is an ending of the text. -/
theorem suffix_of_suffix_flatMap {ending text : List Char} (hending : ';' ∉ ending)
    (h : ending <:+ text.flatMap escapeChar) : ending <:+ text := by
  induction ending using List.reverseRecOn generalizing text with
  | nil => exact List.nil_suffix
  | append_singleton ending last ih =>
      obtain ⟨front, hfront⟩ := h
      cases text using List.reverseRecOn with
      | nil => simp at hfront
      | append_singleton text c =>
          rw [← List.append_assoc, List.flatMap_append, List.flatMap_singleton] at hfront
          rcases escapeChar_cases c with ⟨-, hsame⟩ | ⟨entity, hentity, -⟩
          · rw [hsame] at hfront
            obtain ⟨hfront, hlast⟩ := List.append_inj' hfront rfl
            rw [List.singleton_inj.mp hlast]
            have hrest : ending <:+ text :=
              ih (fun hmem => hending (List.mem_append_left _ hmem)) ⟨front, hfront⟩
            exact List.suffix_append_self_iff.mpr hrest
          · rw [hentity, ← List.append_assoc] at hfront
            obtain ⟨-, hlast⟩ := List.append_inj' hfront rfl
            rw [List.singleton_inj.mp hlast] at hending
            simp at hending

/-- An ending that needs no escaping and has no semicolon belongs to an escaped text just where it
belongs to the text. -/
theorem suffix_escape_iff {ending : List Char} (hending : ';' ∉ ending)
    (hsame : ending.flatMap escapeChar = ending) (text : String) :
    ending <:+ (escape text).toList ↔ ending <:+ text.toList := by
  rw [toList_escape]
  constructor
  · exact suffix_of_suffix_flatMap hending
  · rintro ⟨front, hfront⟩
    refine ⟨front.flatMap escapeChar, ?_⟩
    rw [← hfront, List.flatMap_append, hsame]

/-- The characters with the entities decoded, in one pass from left to right. An ampersand that
begins no entity stands for itself. -/
def decode : List Char → List Char
  | '&' :: 'a' :: 'm' :: 'p' :: ';' :: rest => '&' :: decode rest
  | '&' :: 'q' :: 'u' :: 'o' :: 't' :: ';' :: rest => '"' :: decode rest
  | '&' :: 'l' :: 't' :: ';' :: rest => '<' :: decode rest
  | '&' :: 'g' :: 't' :: ';' :: rest => '>' :: decode rest
  | c :: rest => c :: decode rest
  | [] => []

/-- A text with its entities decoded. -/
def unescape (text : String) : String := String.ofList (decode text.toList)

theorem decode_cons_of_ne {c : Char} (hc : c ≠ '&') (rest : List Char) :
    decode (c :: rest) = c :: decode rest := by
  rw [decode]
  all_goals
    rintro _ rfl
    exact absurd rfl hc

/-- Whatever follows, the first thing decoded is the character that was escaped. -/
theorem decode_escapeChar (c : Char) (rest : List Char) :
    decode (escapeChar c ++ rest) = c :: decode rest := by
  by_cases hc : c ∈ replaced
  · rcases mem_replaced.mp hc with rfl | rfl | rfl | rfl
    · change decode ('&' :: 'a' :: 'm' :: 'p' :: ';' :: rest) = '&' :: decode rest
      rw [decode]
    · change decode ('&' :: 'q' :: 'u' :: 'o' :: 't' :: ';' :: rest) = '"' :: decode rest
      rw [decode]
    · change decode ('&' :: 'l' :: 't' :: ';' :: rest) = '<' :: decode rest
      rw [decode]
    · change decode ('&' :: 'g' :: 't' :: ';' :: rest) = '>' :: decode rest
      rw [decode]
  · have hamp : c ≠ '&' := by
      rintro rfl
      exact hc List.mem_cons_self
    rw [escapeChar_of_not_replaced hc, List.singleton_append, decode_cons_of_ne hamp]

theorem decode_flatMap (text : List Char) : decode (text.flatMap escapeChar) = text := by
  induction text with
  | nil => rfl
  | cons c text ih => rw [List.flatMap_cons, decode_escapeChar, ih]

theorem unescape_escape (text : String) : unescape (escape text) = text := by
  rw [unescape, toList_escape, decode_flatMap, String.ofList_toList]

theorem one_lt_length_escapeChar {c : Char} (hc : c ∈ replaced) : 1 < (escapeChar c).length := by
  rcases mem_replaced.mp hc with rfl | rfl | rfl | rfl
  all_goals decide

theorem length_le_flatMap (text : List Char) :
    text.length ≤ (text.flatMap escapeChar).length := by
  induction text with
  | nil => exact Nat.zero_le _
  | cons c text ih =>
      have hc : 1 ≤ (escapeChar c).length := by
        by_cases hc : c ∈ replaced
        · exact (one_lt_length_escapeChar hc).le
        · rw [escapeChar_of_not_replaced hc, List.length_singleton]
      rw [List.flatMap_cons, List.length_append, List.length_cons]
      omega

/-- Escaping leaves a text as it is just where there is nothing to replace, since every entity is
longer than its character. -/
theorem escape_eq_self_iff {text : String} :
    escape text = text ↔ List.Disjoint replaced text.toList := by
  rw [← String.toList_inj, toList_escape]
  constructor
  · intro hsame c hc hmem
    obtain ⟨before, after, hsplit⟩ := List.append_of_mem hmem
    have hlength := congrArg List.length hsame
    rw [hsplit, List.flatMap_append, List.flatMap_cons] at hlength
    simp only [List.length_append, List.length_cons] at hlength
    have hbefore := length_le_flatMap before
    have hafter := length_le_flatMap after
    have hlonger := one_lt_length_escapeChar hc
    omega
  · exact flatMap_escapeChar_of_disjoint

/-- An escaped text is safe inside a quoted attribute and can be read back, so different texts stay
different. It is the text with its characters escaped one by one, also where the text is taken as it
is, and it is the text itself just where the text has nothing to replace. -/
theorem escape_safe_and_reversible (text : String) :
    List.Disjoint ['"', '<', '>'] (escape text).toList ∧ unescape (escape text) = text ∧
      escape text = escapeEach text ∧
        (escape text = text ↔ List.Disjoint ['&', '"', '<', '>'] text.toList) ∧
          ∀ other, escape other = escape text ↔ other = text := by
  refine ⟨?_, unescape_escape text, escape_eq_escapeEach text, escape_eq_self_iff, ?_⟩
  · intro mark hmark
    exact not_mem_escape hmark text
  · intro other
    constructor
    · intro hsame
      calc
        other
        _ = unescape (escape other) := (unescape_escape other).symm
        _ = unescape (escape text) := by rw [hsame]
        _ = text := unescape_escape text
    · rintro rfl
      rfl

/-- A text that already has an entity, and a piece of one in front of a mark. -/
theorem escape_safe_and_reversible_entities :
    escape "&lt;&am<p;" = "&amp;lt;&amp;am&lt;p;" ∧ '<' ∉ (escape "&lt;&am<p;").toList ∧
      unescape "&amp;lt;&amp;am&lt;p;" = "&lt;&am<p;" := by
  obtain ⟨hsafe, hback, -⟩ := escape_safe_and_reversible "&lt;&am<p;"
  exact ⟨rfl, hsafe (by decide), hback⟩

/-- A text of letters, digits and underscores. -/
def Plain (text : String) : Prop := ∀ c ∈ text.toList, c.isAlphanum = true ∨ c = '_'

namespace Plain

theorem of_all {text : String} (h : text.toList.all fun c => c.isAlphanum || c == '_') :
    Plain text := by
  intro c hc
  simpa using List.all_eq_true.mp h c hc

theorem not_mem {text : String} (h : Plain text) {c : Char} (hmark : c.isAlphanum = false)
    (hne : c ≠ '_') : c ∉ text.toList := by
  intro hc
  rcases h c hc with halpha | heq
  · rw [hmark] at halpha
    cases halpha
  · exact hne heq

/-- What is plain needs no escaping. -/
theorem escape_eq {text : String} (h : Plain text) : escape text = text := by
  rw [escape_eq_self_iff]
  intro mark hmark
  rcases mem_replaced.mp hmark with rfl | rfl | rfl | rfl
  all_goals exact h.not_mem rfl (by decide)

end Plain

theorem plain_seqText (seq : SeqNo) : Plain (seqText seq) := by
  intro c hc
  have hc : c.isDigit = true :=
    Nat.isDigit_of_mem_toDigits (b := 10) (by decide) (by decide) (by simpa [seqText] using hc)
  exact .inl (by simp [Char.isAlphanum, hc])

end Markup

namespace IdSource

open Markup

theorem plain_stamp (ids : IdSource) {stem : String} (h : Plain stem) : Plain (ids.stamp stem) := by
  intro c hc
  rw [toList_stamp, List.mem_append, List.mem_cons] at hc
  rcases hc with hstem | rfl | hdigit
  · exact h c hstem
  · exact .inr rfl
  · have hc : c.isDigit = true := Nat.isDigit_of_mem_toDigits (by decide) (by decide) hdigit
    exact .inl (by simp [Char.isAlphanum, hc])

theorem plain_condition (ids : IdSource) (seq : SeqNo) : Plain (ids.condition seq) :=
  ids.plain_stamp (plain_seqText seq)

theorem plain_group (ids : IdSource) : Plain ids.group :=
  ids.plain_stamp (.of_all rfl)

end IdSource

end ConditionChart
