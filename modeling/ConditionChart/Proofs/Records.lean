import ConditionChart.Json.Record
import ConditionChart.Proofs.Readers
import Mathlib.Data.List.Perm.Basic

/-!
# Records on what is spelled

Each member of an object has an effect on the record: a further member has none, and a member that
names a field changes the record or fails. Effects that commute may come in any order, so a record is
read from its members in any order, with any further members between them.
-/

namespace ConditionChart.Json

open Spelling

variable {ρ α : Type} {text rest : List Char}

/-- Nothing but a given failure can happen. -/
def FailsOnly (e : Error) (x : Except Error α) : Prop := ∀ e', x = .error e' → e' = e

@[simp] theorem failsOnly_ok (e : Error) (a : α) : FailsOnly e (.ok a) := by
  rintro e' ⟨⟩

@[simp] theorem failsOnly_ite (c : Prop) [Decidable c] (e : Error) (a : α) :
    FailsOnly e (if c then .ok a else .error e) := by
  intro e' h
  split at h
  · cases h
  · cases h
    rfl

@[simp] theorem failsOnly_map {β : Type} {e : Error} {x : Except Error α} {f : α → β} :
    FailsOnly e (x.map f) ↔ FailsOnly e x := by
  cases x <;> simp [FailsOnly, Except.map]

/-- What a member does: the field that it names, if any, and the change that it makes. -/
structure Effect (ρ : Type) where
  field : Option String
  outcome : Except Error (ρ → ρ)

namespace Effect

variable {effects effects' : List (Effect ρ)}

/-- The effect of a member that names no field. -/
def nothing : Effect ρ := ⟨none, .ok id⟩

/-- The effect of storing what was read for a field. -/
def store (name : String) (outcome : Except Error α) (change : α → ρ → ρ) : Effect ρ :=
  ⟨some name, outcome.map change⟩

/-- The fields that are named. -/
def fields (effects : List (Effect ρ)) : List String := effects.filterMap field

@[simp] theorem fields_nil : fields ([] : List (Effect ρ)) = [] := rfl

@[simp] theorem fields_store (name : String) (outcome : Except Error α) (change : α → ρ → ρ) :
    fields (store name outcome change :: effects) = name :: fields effects := rfl

/-- The effects one after the other. The first failure ends them. -/
def run : List (Effect ρ) → ρ → Except Error ρ
  | [], record => .ok record
  | effect :: more, record => do
      let change ← effect.outcome
      run more (change record)

@[simp] theorem run_nil (record : ρ) : run [] record = .ok record := rfl

@[simp] theorem run_store_ok (name : String) (a : α) (change : α → ρ → ρ) (record : ρ) :
    run (store name (.ok a) change :: effects) record = run effects (change a record) := rfl

@[simp] theorem run_store_error (name : String) (e : Error) (change : α → ρ → ρ) (record : ρ) :
    run (store name (.error e) change :: effects) record = .error e := rfl

/-- The order of two effects does not matter. -/
def Commute (a b : Effect ρ) : Prop := ∀ record, run [a, b] record = run [b, a] record

theorem run_append (record : ρ) :
    run (effects ++ effects') record = (run effects record).bind (run effects') := by
  induction effects generalizing record with
  | nil => rfl
  | cons a effects ih =>
      cases h : a.outcome with
      | ok change => simp only [List.cons_append, run, h, bind, Except.bind, ih]
      | error e => simp only [List.cons_append, run, h, bind, Except.bind]

/-- Effects that commute with each other may come in any order. -/
theorem run_perm (h : effects.Perm effects') (hcommute : effects.Pairwise Commute) (record : ρ) :
    run effects record = run effects' record := by
  induction h generalizing record with
  | nil => rfl
  | cons a _ ih =>
      have htail := ih (List.pairwise_cons.mp hcommute).2
      simp only [run, htail]
  | swap a b effects =>
      have hab : Commute b a := (List.pairwise_cons.mp hcommute).1 a (by simp)
      calc run ([b, a] ++ effects) record
        _ = (run [b, a] record).bind (run effects) := run_append record
        _ = (run [a, b] record).bind (run effects) := by rw [hab record]
        _ = run ([a, b] ++ effects) record := (run_append record).symm
  | trans h _ ih ih' =>
      have hcommute' := h.pairwise hcommute fun hab record => (hab record).symm
      exact (ih hcommute record).trans (ih' hcommute' record)

/-- Further members do nothing, however many there are. -/
theorem run_further (further : List String) (record : ρ) :
    run (effects ++ further.map fun _ => nothing) record = run effects record := by
  have hfurther (record : ρ) : run (further.map fun _ => nothing) record = .ok record := by
    induction further with
    | nil => rfl
    | cons _ further ih => exact ih
  rw [run_append]
  cases run effects record with
  | ok record => exact hfurther record
  | error e => rfl

theorem pairwise_further (hcommute : effects.Pairwise Commute) (further : List String) :
    (effects ++ further.map fun _ => nothing).Pairwise Commute := by
  refine List.pairwise_append.mpr ⟨hcommute, ?_, ?_⟩
  · rw [List.pairwise_map]
    exact List.pairwise_of_forall fun _ _ _ => rfl
  · rintro a - b hb record
    obtain ⟨-, -, rfl⟩ := List.mem_map.mp hb
    cases h : a.outcome with
    | ok change => simp only [run, nothing, h, bind, Except.bind, id]
    | error e => simp only [run, nothing, h, bind, Except.bind]

theorem fields_further (further : List String) :
    fields (effects ++ further.map fun _ => nothing) = fields effects := by
  simp [fields, nothing]

/-- Storing two things commutes if the changes do, and if both can only fail alike. -/
theorem commute_store {β : Type} {name name' : String} {outcome : Except Error α}
    {outcome' : Except Error β} {change : α → ρ → ρ} {change' : β → ρ → ρ} (e : Error)
    (hchange : ∀ a b record, change' b (change a record) = change a (change' b record))
    (h : FailsOnly e outcome) (h' : FailsOnly e outcome') :
    Commute (store name outcome change) (store name' outcome' change') := by
  intro record
  cases outcome with
  | ok a =>
      cases outcome' with
      | ok b => exact congrArg Except.ok (hchange a b record)
      | error e => rfl
  | error e =>
      cases outcome' with
      | ok b => rfl
      | error e' => exact congrArg Except.error ((h e rfl).trans (h' e' rfl).symm)

end Effect

namespace Record

variable {r : Record ρ} {known : List String} {wanted all : List (String × Spelling)}
  {effects : List (Effect ρ)} {met : List String}

/-- The effect that a member with a given spelling has on a record. -/
inductive Takes (r : Record ρ) : String × Spelling → Effect ρ → Prop
  | further {s : String} (h : r.fields.find? (·.answersTo s) = none) : Takes r (s, anyValue) .nothing
  | field {s : String} {value : Spelling} {f : Field ρ} {outcome : Except Error (ρ → ρ)}
      (h : r.fields.find? (·.answersTo s) = some f) (hread : Reads f.read value outcome) :
      Takes r (s, value) ⟨some f.name, outcome⟩

theorem takes_of {name : String} {absence : Absence} {value : Reader α} {change : α → ρ → ρ}
    {s : Spelling} {outcome : Except Error α}
    (hfind : r.fields.find? (·.answersTo name) = some (.of name absence value change))
    (hread : Reads value s outcome) : r.Takes (name, s) (.store name outcome change) :=
  .field hfind fun _ _ _ hstart htext hrest => yields_map (hread hstart htext hrest) change

/-- A field is read in the same way under its other name. -/
theorem takes_alsoNamed {name other met : String} {absence : Absence} {value : Reader α}
    {change : α → ρ → ρ} {s : Spelling} {outcome : Except Error α}
    (hfind : r.fields.find? (·.answersTo met) =
      some ((Field.of name absence value change).alsoNamed other))
    (hread : Reads value s outcome) : r.Takes (met, s) (.store name outcome change) :=
  .field hfind fun _ _ _ hstart htext hrest => yields_map (hread hstart htext hrest) change

theorem missing?_eq_none (h : ∀ f ∈ r.fields, f.absence = .refused → f.name ∈ met) :
    r.missing? met = none := by
  simp only [missing?, Option.map_eq_none_iff, List.find?_eq_none, Bool.and_eq_true, beq_iff_eq,
    Bool.not_eq_true', not_and, Bool.not_eq_false, List.contains_iff_mem]
  exact h

/-- What follows a value in an object does not go on with a number. -/
theorem endsNumber_of_members (h : members false all text rest) : EndsNumber text := by
  cases all with
  | nil =>
      obtain ⟨_, hblanks, _, rfl, -⟩ := h
      exact endsNumber_of_blanks hblanks (endsNumber_closing .object)
  | cons m more =>
      obtain ⟨_, ⟨_, hblanks, _, rfl, rfl⟩, -⟩ := h
      exact endsNumber_of_blanks hblanks endsNumber_comma

section Members

variable {first : Bool} {name : String} {behind place after : List Char} {record : ρ}

/-- A member that names no field is passed over. -/
theorem yields_readMembers_further {outcome : Except Error ρ}
    (hnext : Gives (nextName first text) (some name) behind)
    (hcolon : Leaves (readColon behind) place)
    (hfind : r.fields.find? (·.answersTo name) = none) (hskip : Leaves (skipValue place) after)
    (htail : Yields (r.readMembers false met record after) outcome rest) :
    Yields (r.readMembers first met record text) outcome rest := by
  obtain ⟨_, hnext⟩ := hnext
  obtain ⟨_, hcolon⟩ := hcolon
  obtain ⟨_, hskip⟩ := hskip
  rw [readMembers, hnext]
  simp only [bind, Except.bind, hfind, hcolon, hskip]
  obtain ⟨result, rfl, _, htail⟩ | ⟨e, rfl, htail⟩ := htail.ok_or_error
  · rw [htail]
    exact ⟨_, rfl⟩
  · rw [htail]
    rfl

/-- A member that names a field is read as that field. -/
theorem yields_readMembers_field {f : Field ρ} {change : Except Error (ρ → ρ)}
    {outcome : ρ → Except Error ρ} (hnext : Gives (nextName first text) (some name) behind)
    (hcolon : Leaves (readColon behind) place) (hfind : r.fields.find? (·.answersTo name) = some f)
    (hmet : f.name ∉ met) (hread : Yields (f.read place) change after)
    (htail : ∀ record,
      Yields (r.readMembers false (f.name :: met) record after) (outcome record) rest) :
    Yields (r.readMembers first met record text) (change.bind fun c => outcome (c record)) rest := by
  obtain ⟨_, hnext⟩ := hnext
  obtain ⟨_, hcolon⟩ := hcolon
  have hnew : met.contains f.name = false := by simpa using hmet
  rw [readMembers, hnext]
  simp only [bind, Except.bind, hfind, hnew, Bool.false_eq_true, if_false, hcolon]
  obtain ⟨c, rfl, _, hread⟩ | ⟨e, rfl, hread⟩ := hread.ok_or_error
  · simp only [hread]
    obtain ⟨result, houtcome, _, htail⟩ | ⟨e, houtcome, htail⟩ := (htail (c record)).ok_or_error
    · rw [houtcome, htail]
      exact ⟨_, rfl⟩
    · rw [houtcome, htail]
      rfl
  · rw [hread]
    rfl

/-- The members of an object have their effects in the order in which they stand. -/
theorem yields_readMembers (h : members first all text rest)
    (htakes : List.Forall₂ r.Takes all effects) (hfields : (Effect.fields effects).Nodup)
    (hmet : ∀ name ∈ Effect.fields effects, name ∉ met)
    (hrequired : ∀ f ∈ r.fields, f.absence = .refused →
      f.name ∈ met ∨ f.name ∈ Effect.fields effects) :
    Yields (r.readMembers first met record text) (Effect.run effects record) rest := by
  -- The names that were met and those that still come are kept apart, so no field is met twice.
  induction htakes generalizing first met record text with
  | nil =>
      obtain ⟨_, hend⟩ := gives_nextName_none first h
      have hmissing : r.missing? met = none := missing?_eq_none (by simpa using hrequired)
      rw [readMembers, hend]
      simp only [bind, Except.bind, hmissing]
      exact ⟨_, rfl⟩
  | cons htake _ ih =>
      obtain ⟨_, hseparator, _, hname, after, hvalue, _, hmore, rfl⟩ := h
      obtain ⟨behind, place, hnext, hcolon, hplace⟩ :=
        gives_nextName ⟨_, hseparator, _, hname, rfl⟩
      have hends : EndsNumber after := endsNumber_of_members hmore
      cases htake with
      | further hfind =>
          exact yields_readMembers_further hnext hcolon hfind (leaves_skipValue hvalue hends hplace)
            (ih hmore hfields hmet hrequired)
      | field hfind hread =>
          obtain ⟨hnew, hfields⟩ := List.nodup_cons.mp hfields
          obtain ⟨hmet, hrest⟩ := List.forall_mem_cons.mp hmet
          have hread := hread hplace hvalue hends
          refine yields_readMembers_field hnext hcolon hfind hmet hread fun record => ?_
          refine ih hmore hfields (fun name hname hmem => ?_) fun f hf hrefused => ?_
          · obtain rfl | hmem := List.mem_cons.mp hmem
            · exact hnew hname
            · exact hrest name hname hmem
          · obtain hmem | hmem := hrequired f hf hrefused
            · exact .inl (List.mem_cons_of_mem _ hmem)
            · obtain heq | hmem := List.mem_cons.mp hmem
              · exact .inl (heq ▸ List.mem_cons_self)
              · exact .inr hmem

end Members

/-- In whatever order the members stand, and whatever further members stand between them, they name
the same fields and do the same to a record. -/
theorem takes_perm {further : List String}
    (hperm : all.Perm (wanted ++ further.map fun s => (s, anyValue)))
    (hfurther : ∀ s ∈ further, r.fields.find? (·.answersTo s) = none)
    (htakes : List.Forall₂ r.Takes wanted effects) (hcommute : effects.Pairwise Effect.Commute) :
    ∃ ordered, List.Forall₂ r.Takes all ordered ∧
      (Effect.fields ordered).Perm (Effect.fields effects) ∧
      ∀ record, Effect.run ordered record = Effect.run effects record := by
  have htakes : List.Forall₂ r.Takes (wanted ++ further.map fun s => (s, anyValue))
      (effects ++ further.map fun _ => .nothing) := by
    refine List.rel_append htakes ?_
    rw [List.forall₂_map_left_iff, List.forall₂_map_right_iff, List.forall₂_same]
    exact fun s hs => .further (hfurther s hs)
  obtain ⟨ordered, htakes, hordered⟩ := List.perm_comp_forall₂ hperm htakes
  refine ⟨ordered, htakes, ?_, fun record => ?_⟩
  · exact (hordered.filterMap _).trans (.of_eq (Effect.fields_further further))
  · have hrun := Effect.run_perm hordered.symm (Effect.pairwise_further hcommute further) record
    exact hrun.symm.trans (Effect.run_further further record)

/-- A record is read from an object with its members in any order, and with further members under any
names that no field has. -/
theorem reads_reader (hknown : ∀ f ∈ r.fields, ∀ s, f.answersTo s = true → s ∈ known)
    (htakes : List.Forall₂ r.Takes wanted effects) (hfields : (Effect.fields effects).Nodup)
    (hrequired : ∀ f ∈ r.fields, f.absence = .refused → f.name ∈ Effect.fields effects)
    (hcommute : effects.Pairwise Effect.Commute) :
    Reads r.reader (Spelling.record known wanted) (Effect.run effects r.blank) := by
  rintro start text _ hstart ⟨further, all, hfurther, hperm, inner, rfl, rest, hmembers, rfl⟩ -
  have hnone : ∀ s ∈ further, r.fields.find? (·.answersTo s) = none := fun s hs =>
    List.find?_eq_none.mpr fun f hf hanswers => hfurther s hs (hknown f hf s hanswers)
  obtain ⟨ordered, hordered, hsame, hrun⟩ := takes_perm hperm hnone htakes hcommute
  have hread : Yields (r.readMembers true [] r.blank inner) (Effect.run ordered r.blank) rest := by
    refine yields_readMembers hmembers hordered (hsame.nodup_iff.mpr hfields) (by simp) ?_
    exact fun f hf hrefused => .inr (hsame.mem_iff.mpr (hrequired f hf hrefused))
  rw [hrun] at hread
  refine yields_valueReader (skipBlanks_eq hstart (by decide)) ⟨_, rfl, ?_⟩
  obtain ⟨record, houtcome, _, hread⟩ | ⟨e, houtcome, hread⟩ := hread.ok_or_error
  · rw [houtcome, hread]
    exact ⟨_, rfl⟩
  · rw [houtcome, hread]
    rfl

/-- Where nothing more may be opened, an object is refused. -/
theorem reads_tooDeep (name : String) :
    Reads (tooDeep (ρ := ρ) name) (Spelling.record known wanted) (.error .nestedTooDeep) := by
  rintro start text rest hstart ⟨_, _, -, -, _, rfl, -⟩ -
  exact yields_valueReader (skipBlanks_eq hstart (by decide)) ⟨_, rfl, rfl⟩

end Record

end ConditionChart.Json
