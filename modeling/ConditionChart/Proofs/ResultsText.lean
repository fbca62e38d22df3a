import ConditionChart.Failure
import ConditionChart.Proofs.Records
import ConditionChart.Proofs.Sequences
import ConditionChart.Source.Read
import ConditionChart.Source.Write

/-!
# Results on what is spelled

Each entry of a list of results is spelled in its own way: under the short or the long names of its
main fields, with its members in any order and further members between them, and with a missing text
as null or not at all. In whatever way it is spelled, a list is read as it is.
-/

namespace ConditionChart

open Json (Document Effect Reads Record Spelling)

namespace ConditionResult

/-- The names of members that mean a field. -/
def names : List String := ["seq", "sequenceNumber", "result", "truthValue", "value"]

/-- The ways to spell the text of a condition. A missing text is null or has no member. -/
def valueSpellings : Option String → List (List (String × Spelling))
  | some text => [[("value", .string text)]]
  | none => [[("value", .null)], []]

/-- The ways to spell a result. -/
def spelling (r : ConditionResult) : Spelling := fun text rest =>
  ∃ seqName ∈ ["seq", "sequenceNumber"], ∃ resultName ∈ ["result", "truthValue"],
    ∃ value ∈ valueSpellings r.value, Spelling.record names
      ((seqName, .natural r.seq.toNat) :: (resultName, .flag r.result) :: value) text rest

/-- What the member for the sequence number does. -/
def seqEffect (seq : SeqNo) : Effect ConditionResult :=
  .store "seq" (.ok seq) fun x r => { r with seq := x }

/-- What the member for the outcome does. -/
def resultEffect (result : Bool) : Effect ConditionResult :=
  .store "result" (.ok result) fun x r => { r with result := x }

/-- What the member for the text does. -/
def valueEffect (value : Option String) : Effect ConditionResult :=
  .store "value" (.ok value) fun x r => { r with value := x }

end ConditionResult

/-- The ways to spell a list of results, each entry in its own way. -/
def Results.spelling (results : Results) : Spelling :=
  .list (results.map ConditionResult.spelling)

namespace ConditionResult

theorem takes_seq (seq : SeqNo) {name : String} (hname : name ∈ ["seq", "sequenceNumber"]) :
    record.Takes (name, .natural seq.toNat) (seqEffect seq) := by
  simp only [List.mem_cons, List.not_mem_nil, or_false] at hname
  rcases hname with rfl | rfl
  all_goals exact Record.takes_alsoNamed rfl (Json.reads_uint32 seq)

theorem takes_result (result : Bool) {name : String} (hname : name ∈ ["result", "truthValue"]) :
    record.Takes (name, .flag result) (resultEffect result) := by
  simp only [List.mem_cons, List.not_mem_nil, or_false] at hname
  rcases hname with rfl | rfl
  all_goals exact Record.takes_alsoNamed rfl (Json.reads_flag result)

/-- However the text of a condition is spelled, a record without a text has it afterwards. -/
theorem takes_value {text : Option String} {value : List (String × Spelling)}
    (hvalue : value ∈ valueSpellings text) :
    ∃ effects, List.Forall₂ record.Takes value effects ∧ effects.Sublist [valueEffect text] ∧
      ∀ seq result, Effect.run effects ⟨seq, result, none⟩ = .ok ⟨seq, result, text⟩ := by
  cases text with
  | some text =>
      rw [List.mem_singleton.mp hvalue]
      have hread := Json.reads_optional (Json.reads_string text) (Json.present_string text)
      exact ⟨_, .cons (Record.takes_of rfl hread) .nil, .refl _, fun _ _ => rfl⟩
  | none =>
      simp only [valueSpellings, List.mem_cons, List.not_mem_nil, or_false] at hvalue
      rcases hvalue with rfl | rfl
      · exact ⟨_, .cons (Record.takes_of rfl (Json.reads_null _)) .nil, .refl _, fun _ _ => rfl⟩
      · exact ⟨[], .nil, List.nil_sublist _, fun _ _ => rfl⟩

theorem known_of_answersTo : ∀ f ∈ record.fields, ∀ s, f.answersTo s = true → s ∈ names := by
  intro f hf s hs
  simp only [record, List.mem_cons, List.not_mem_nil, or_false] at hf
  rcases hf with rfl | rfl | rfl
  all_goals
    simp only [Json.Field.answersTo, Json.Field.alsoNamed, Json.Field.of, Bool.or_eq_true,
      beq_iff_eq, List.contains_iff_mem, List.mem_cons, List.not_mem_nil, or_false] at hs
    simp only [names, List.mem_cons, List.not_mem_nil, or_false]
    grind

/-- Only the sequence number and the outcome must be there. -/
theorem name_of_refused : ∀ f ∈ record.fields, f.absence = .refused →
    f.name ∈ ["seq", "result"] := by
  simp [record, Json.Field.of, Json.Field.alsoNamed]

section Members

variable (seq : SeqNo) (result : Bool) (value : Option String)

/-- Each member changes a field of its own, and none fails. -/
theorem commute_effects :
    [seqEffect seq, resultEffect result, valueEffect value].Pairwise Effect.Commute := by
  simp only [List.pairwise_cons, List.mem_cons, forall_eq_or_imp, List.not_mem_nil, false_imp_iff,
    implies_true, List.Pairwise.nil, and_true]
  and_intros
  all_goals exact fun _ => rfl

theorem nodup_fields :
    (Effect.fields [seqEffect seq, resultEffect result, valueEffect value]).Nodup := by
  change ["seq", "result", "value"].Nodup
  decide

end Members

/-- An object with the two main fields, and perhaps a text, is read as the result that they make. -/
theorem reads_members {r : ConditionResult} {wanted : List (String × Spelling)}
    {effects : List (Effect ConditionResult)}
    (htakes : List.Forall₂ record.Takes wanted
      (seqEffect r.seq :: resultEffect r.result :: effects))
    (hsublist : effects.Sublist [valueEffect r.value])
    (hrun : ∀ seq result, Effect.run effects ⟨seq, result, none⟩ = .ok ⟨seq, result, r.value⟩) :
    Reads record.reader (Spelling.record names wanted) (.ok r) := by
  have hall : (seqEffect r.seq :: resultEffect r.result :: effects).Sublist
      [seqEffect r.seq, resultEffect r.result, valueEffect r.value] :=
    (hsublist.cons_cons _).cons_cons _
  have hwhole : Effect.run (seqEffect r.seq :: resultEffect r.result :: effects) record.blank =
      .ok r := hrun r.seq r.result
  rw [← hwhole]
  apply Record.reads_reader known_of_answersTo htakes
  · exact (nodup_fields r.seq r.result r.value).sublist (hall.filterMap _)
  · intro f hf hrefused
    change f.name ∈ ["seq", "result"] ++ Effect.fields effects
    exact List.mem_append_left _ (name_of_refused f hf hrefused)
  · exact (commute_effects r.seq r.result r.value).sublist hall

/-- A result is read as it is, in whatever way it is spelled. -/
theorem reads_spelling (r : ConditionResult) : Reads record.reader r.spelling (.ok r) := by
  rintro start text rest hstart ⟨seqName, hseq, resultName, hresult, value, hvalue, htext⟩ hrest
  obtain ⟨effects, hvalue, hsublist, hrun⟩ := takes_value hvalue
  have htakes := List.Forall₂.cons (takes_seq r.seq hseq)
    (.cons (takes_result r.result hresult) hvalue)
  exact reads_members htakes hsublist hrun hstart htext hrest

theorem item_spelling (r : ConditionResult) : r.spelling.Item := by
  rintro text rest ⟨_, -, _, -, _, -, _, _, -, -, _, rfl, -⟩
  exact ⟨_, _, rfl, by decide, by decide⟩

/-- A result is written under its short names, with null for a missing text. -/
theorem writes_document (r : ConditionResult) : r.document.Writes r.spelling := by
  obtain ⟨value, hvalue, hwritten⟩ : ∃ value ∈ valueSpellings r.value,
      List.Forall₂ Document.WritesMember [("value", (r.value.map Document.string).getD .null)]
        value := by
    cases r.value with
    | some text =>
        exact ⟨_, List.mem_singleton_self _, .cons ⟨rfl, Document.writes_string text⟩ .nil⟩
    | none => exact ⟨_, List.mem_cons_self, .cons ⟨rfl, Document.writes_null⟩ .nil⟩
  have hobject : r.document.Writes (.record names
      (("seq", .natural r.seq.toNat) :: ("result", .flag r.result) :: value)) := by
    apply Document.writes_record (.refl _)
    exact .cons ⟨rfl, Document.writes_natural _⟩ (.cons ⟨rfl, Document.writes_flag _⟩ hwritten)
  intro depth rest
  exact ⟨"seq", List.mem_cons_self, "result", List.mem_cons_self, value, hvalue, hobject depth rest⟩

end ConditionResult

namespace Results

theorem reads_spelling (results : Results) :
    Reads (Json.readList ConditionResult.record.reader) results.spelling (.ok results) := by
  apply Json.reads_list
  rw [List.forall₂_map_left_iff, List.forall₂_same]
  exact fun r _ => ⟨r.item_spelling, r.reads_spelling⟩

theorem writes_document (results : Results) : results.document.Writes results.spelling := by
  apply Document.writes_list
  rw [List.forall₂_map_left_iff, List.forall₂_map_right_iff, List.forall₂_same]
  exact fun r _ => r.writes_document

/-- Every spelling of a list of results is read as the list, and what is written for the list is one
of its spellings. -/
theorem ofJson_spelled_and_written (results : Results) :
    (∀ text, results.spelling.Spells text → ofJson text = .ok results) ∧
      results.spelling.Spells results.document.text ∧
        ofJson results.document.text = .ok results := by
  have hread : ∀ text, results.spelling.Spells text → ofJson text = .ok results := fun _ htext =>
    Json.readAll_eq results.reads_spelling htext
  have hwritten := Document.spells_text results.writes_document
  exact ⟨hread, hwritten, hread _ hwritten⟩

/-- Long names behind a further member, and no text; then an entry as it is written, where the text has
a quote. -/
theorem ofJson_spelled_and_written_long :
    ofJson (Document.list [
        .object [("note", .list []), ("truthValue", .flag true), ("sequenceNumber", .natural 7)],
        (⟨4294967295, false, some "a\"b"⟩ : ConditionResult).document]).text =
      .ok [⟨7, true, none⟩, ⟨4294967295, false, some "a\"b"⟩] := by
  have hnote : (Document.list []).Writes Spelling.anyValue := by
    intro depth rest
    have htext : ((Document.list []).textAt depth).toList = ['[', ']'] := by
      simp [Document.textAt, Document.itemTexts, Json.bracketed]
    rw [htext]
    exact .emptyList ⟨_, rfl, _, Json.Spelling.blanks_refl _, _, rfl, rfl⟩
  have hordered : List.Forall₂ Document.WritesMember
      [("note", .list []), ("truthValue", .flag true), ("sequenceNumber", .natural 7)]
      [("note", Spelling.anyValue), ("truthValue", .flag true), ("sequenceNumber", .natural 7)] :=
    .cons ⟨rfl, hnote⟩ <| .cons ⟨rfl, Document.writes_flag true⟩ <|
      .cons ⟨rfl, Document.writes_natural 7⟩ .nil
  have hlong : (Document.object [("note", .list []), ("truthValue", .flag true),
      ("sequenceNumber", .natural 7)]).Writes (ConditionResult.spelling ⟨7, true, none⟩) :=
    fun depth rest => ⟨"sequenceNumber", by decide, "truthValue", by decide, [],
      List.mem_cons_of_mem _ (List.mem_singleton_self _), ["note"], _, by decide,
      List.reverse_perm [("sequenceNumber", Spelling.natural 7), _, _],
      Document.writes_object hordered depth rest⟩
  have hwritten := Document.writes_list (.cons hlong
    (.cons (ConditionResult.writes_document ⟨4294967295, false, some "a\"b"⟩) .nil))
  obtain ⟨hread, -, -⟩ := ofJson_spelled_and_written
    [⟨7, true, none⟩, ⟨4294967295, false, some "a\"b"⟩]
  exact hread _ (Document.spells_text hwritten)

end Results

end ConditionChart
