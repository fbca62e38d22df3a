import ConditionChart.Chart.Ids
import Mathlib.Data.List.Nodup
import Mathlib.Data.List.Perm.Basic
import Mathlib.Order.Nat

/-!
# Numbered ids

The number of an issued id is what follows its last underscore, so it can be read back. Ids that
one source put out at different times therefore differ, whatever their stems are, and none of them
is the id of the start or of the end.
-/

namespace ConditionChart

namespace IdSource

theorem toList_stamp (ids : IdSource) (stem : String) :
    (ids.stamp stem).toList = stem.toList ++ '_' :: Nat.toDigits 10 ids.next := by
  simp [stamp]

/-- Two texts that agree have the same last mark, and the same parts around it. -/
private theorem append_mark_inj {mark : Char} {stem stem' digits digits' : List Char}
    (hd : mark ∉ digits) (hd' : mark ∉ digits')
    (h : stem ++ mark :: digits = stem' ++ mark :: digits') :
    stem = stem' ∧ digits = digits' := by
  rcases List.append_eq_append_iff.mp h with ⟨extra, hs, ht⟩ | ⟨extra, hs, ht⟩
  · cases extra with
    | nil => simp_all
    | cons c extra => simp_all
  · cases extra with
    | nil => simp_all
    | cons c extra => simp_all

/-- An id determines the number and the stem it was made from. -/
theorem stamp_inj {a b : IdSource} {stem stem' : String} (h : a.stamp stem = b.stamp stem') :
    a = b ∧ stem = stem' := by
  have hchars := congrArg String.toList h
  rw [toList_stamp, toList_stamp] at hchars
  obtain ⟨hstem, hdigits⟩ := append_mark_inj
    Nat.underscore_not_in_toDigits Nat.underscore_not_in_toDigits hchars
  have hnext : a.next = b.next :=
    calc
      a.next = Nat.ofDigitChars 10 (Nat.toDigits 10 a.next) 0 :=
        Nat.ofDigitChars_ten_toDigits.symm
      _ = Nat.ofDigitChars 10 (Nat.toDigits 10 b.next) 0 := by rw [hdigits]
      _ = b.next := Nat.ofDigitChars_ten_toDigits
  constructor
  · cases a; cases b; exact congrArg IdSource.mk hnext
  · exact String.toList_inj.mp hstem

theorem group_inj {a b : IdSource} (h : a.group = b.group) : a = b := (stamp_inj h).1

/-- What stands in brackets in an id can be read from it. -/
theorem bracketed_inj {a b : IdSource} {front text text' : String}
    (h : a.stamp (front ++ text ++ "]") = b.stamp (front ++ text' ++ "]")) : text = text' := by
  have hstem := (stamp_inj h).2
  simpa [← String.toList_inj] using hstem

/-- The entry of a group names the group. -/
theorem boundaryInput_inj {a b : IdSource} {groupId groupId' : String}
    (h : a.boundaryInput groupId = b.boundaryInput groupId') : groupId = groupId' :=
  bracketed_inj h

/-- The exit of a group names the group. -/
theorem boundaryOutput_inj {a b : IdSource} {groupId groupId' : String}
    (h : a.boundaryOutput groupId = b.boundaryOutput groupId') : groupId = groupId' :=
  bracketed_inj h

theorem stamp_ne_of_no_underscore (ids : IdSource) (stem : String) {id : String}
    (h : '_' ∉ id.toList) : ids.stamp stem ≠ id := by
  rintro rfl
  exact h (by simp [toList_stamp])

/-- The id was put out after the source stood at `first`, and before it stood at `last`. -/
def Issued (first last : IdSource) (id : String) : Prop :=
  ∃ (source : IdSource) (stem : String),
    first.next ≤ source.next ∧ source.next < last.next ∧ id = source.stamp stem

theorem Issued.mono {a a' b b' : IdSource} {id : String} (h : Issued a b id)
    (ha : a'.next ≤ a.next) (hb : b.next ≤ b'.next) : Issued a' b' id := by
  obtain ⟨source, stem, hlow, hhigh, rfl⟩ := h
  exact ⟨source, stem, ha.trans hlow, hhigh.trans_le hb, rfl⟩

/-- An id is put out only once. -/
theorem Issued.ne {a b c : IdSource} {id id' : String} (h : Issued a b id) (h' : Issued b c id') :
    id ≠ id' := by
  obtain ⟨source, stem, _, hhigh, rfl⟩ := h
  obtain ⟨source', stem', hlow, _, rfl⟩ := h'
  intro heq
  obtain ⟨hsource, _⟩ := stamp_inj heq
  rw [hsource] at hhigh
  omega

theorem Issued.ne_start {a b : IdSource} {id : String} (h : Issued a b id) : id ≠ startId := by
  obtain ⟨source, stem, _, _, rfl⟩ := h
  exact source.stamp_ne_of_no_underscore stem (by decide)

theorem Issued.ne_end {a b : IdSource} {id : String} (h : Issued a b id) : id ≠ endId := by
  obtain ⟨source, stem, _, _, rfl⟩ := h
  exact source.stamp_ne_of_no_underscore stem (by decide)

/-- Distinct ids, all put out on the way from one state of the source to another. -/
structure Fresh (first last : IdSource) (ids : List String) : Prop where
  ordered : first.next ≤ last.next
  nodup : ids.Nodup
  issued : ∀ id ∈ ids, Issued first last id

namespace Fresh

theorem nil (source : IdSource) : Fresh source source [] :=
  ⟨le_rfl, List.nodup_nil, by simp⟩

theorem singleton (source : IdSource) (stem : String) :
    Fresh source source.advance [source.stamp stem] := by
  refine ⟨Nat.le_succ _, List.nodup_singleton _, ?_⟩
  intro id hid
  exact ⟨source, stem, le_rfl, Nat.lt_succ_self _, List.mem_singleton.mp hid⟩

/-- What is put out later is new. -/
theorem append {a b c : IdSource} {ids ids' : List String} (h : Fresh a b ids)
    (h' : Fresh b c ids') : Fresh a c (ids ++ ids') := by
  refine ⟨h.ordered.trans h'.ordered, ?_, ?_⟩
  · refine List.nodup_append.mpr ⟨h.nodup, h'.nodup, ?_⟩
    intro id hid id' hid'
    exact (h.issued id hid).ne (h'.issued id' hid')
  · intro id hid
    rcases List.mem_append.mp hid with hid | hid
    · exact (h.issued id hid).mono le_rfl h'.ordered
    · exact (h'.issued id hid).mono h.ordered le_rfl

theorem perm {a b : IdSource} {ids ids' : List String} (h : Fresh a b ids)
    (hp : ids.Perm ids') : Fresh a b ids' :=
  ⟨h.ordered, hp.nodup_iff.mp h.nodup, fun id hid => h.issued id (hp.mem_iff.mpr hid)⟩

end Fresh

/-- What a source may be asked for. The text in an entry or an exit is any text, whether or not the
source has put it out. -/
inductive Request
  | condition (seq : SeqNo)
  | group
  | boundaryInput (text : String)
  | boundaryOutput (text : String)
deriving DecidableEq, Repr

/-- The stem of the id for a request. -/
def Request.stem : Request → String
  | condition seq => seqText seq
  | group => "group"
  | boundaryInput text => "boundary_input[" ++ text ++ "]"
  | boundaryOutput text => "boundary_output[" ++ text ++ "]"

/-- The next id for a request. -/
def answer (ids : IdSource) : Request → String
  | .condition seq => ids.condition seq
  | .group => ids.group
  | .boundaryInput text => ids.boundaryInput text
  | .boundaryOutput text => ids.boundaryOutput text

/-- The ids for requests that follow each other. -/
def answers (ids : IdSource) : List Request → List String
  | [] => []
  | request :: more => ids.answer request :: ids.advance.answers more

/-- The source after requests that follow each other. -/
def after (ids : IdSource) : List Request → IdSource
  | [] => ids
  | _ :: more => ids.advance.after more

theorem answer_eq_stamp (ids : IdSource) (request : Request) :
    ids.answer request = ids.stamp request.stem := by
  cases request <;> rfl

theorem length_answers (ids : IdSource) (requests : List Request) :
    (ids.answers requests).length = requests.length := by
  induction requests generalizing ids with
  | nil => rfl
  | cons request more ih => simp only [answers, List.length_cons, ih]

/-- The number goes up by one with each request. -/
theorem next_after (ids : IdSource) (requests : List Request) :
    (ids.after requests).next = ids.next + requests.length := by
  induction requests generalizing ids with
  | nil => rfl
  | cons request more ih =>
      calc
        (ids.after (request :: more)).next
        _ = ids.next + 1 + more.length := ih ids.advance
        _ = ids.next + (more.length + 1) := by omega

/-- Whatever is asked for, the answers are new. -/
theorem fresh_answers (ids : IdSource) (requests : List Request) :
    Fresh ids (ids.after requests) (ids.answers requests) := by
  induction requests generalizing ids with
  | nil => exact Fresh.nil ids
  | cons request more ih =>
      have hfirst : Fresh ids ids.advance [ids.answer request] := by
        rw [answer_eq_stamp]
        exact Fresh.singleton ids request.stem
      exact hfirst.append (ih ids.advance)

/-- A new source gives each of fewer than 2^64 requests an id of its own, and never that of the
start or of the end. Its number needs no more than 64 bits. -/
theorem answers_distinct (requests : List Request) (h : requests.length < UInt64.size) :
    (answers {} requests).length = requests.length ∧ (answers {} requests).Nodup ∧
      startId ∉ answers {} requests ∧ endId ∉ answers {} requests ∧
        (after {} requests).next < UInt64.size := by
  have hfresh := fresh_answers {} requests
  refine ⟨length_answers {} requests, hfresh.nodup, ?_, ?_, ?_⟩
  · intro hmem
    exact (hfresh.issued _ hmem).ne_start rfl
  · intro hmem
    exact (hfresh.issued _ hmem).ne_end rfl
  · calc
      (after {} requests).next
      _ = 0 + requests.length := next_after {} requests
      _ = requests.length := Nat.zero_add _
      _ < UInt64.size := h

/-- The same condition twice, an entry that quotes its group and an exit that quotes the entry. -/
theorem answers_distinct_quoted :
    answers {} [.condition 7, .group, .boundaryInput "group_1", .condition 7,
        .boundaryOutput "boundary_input[group_1]_2"] =
      ["7_0", "group_1", "boundary_input[group_1]_2", "7_3",
        "boundary_output[boundary_input[group_1]_2]_4"] ∧
    (answers {} [.condition 7, .group, .boundaryInput "group_1", .condition 7,
        .boundaryOutput "boundary_input[group_1]_2"]).Nodup := by
  constructor
  · rfl
  · exact (answers_distinct [.condition 7, .group, .boundaryInput "group_1", .condition 7,
      .boundaryOutput "boundary_input[group_1]_2"] (by decide)).2.1

end IdSource

end ConditionChart
