import ConditionChart.Proofs.Presentation
import ConditionChart.Proofs.References

/-!
# The class of the markup

The class never reaches the graph. It reaches the references of the markup only where it ends in the
name of the id attribute and an equals sign. Behind all other classes the references are the same.
-/

namespace ConditionChart

open Markup

namespace Setting

variable (wording : Wording) (results : Results) (markupClass markupClass' : String) (e : Expr)

/-- The graph of an expression is the same for all classes. -/
theorem graph_withMarkupClass :
    (Setting.lowerExpr ⟨wording.withMarkupClass markupClass, results⟩ e).chart.graph =
      (Setting.lowerExpr ⟨wording.withMarkupClass markupClass', results⟩ e).chart.graph := by
  have hlabels : (wording.withMarkupClass markupClass).SameSeen (fun label => label)
      (wording.withMarkupClass markupClass') := ⟨rfl, rfl, fun _ => rfl⟩
  simpa only [Graph.seen_self] using seen_graph results hlabels (rfl : e.unmarked = _)

variable {s s' : Setting} {name name' : Spot → String} {g : Graph} in
/-- A graph that mirrors an expression determines the names. -/
theorem Mirrors.name_eq (h : s.Mirrors e name g) (h' : s'.Mirrors e name' g) :
    ∀ x ∈ e.items, name x.1 = name' x.1 := by
  have hconditions : ∀ x ∈ e.conditions, name x.1 = name' x.1 :=
    List.map_inj_left.mp (h.map_id_conditions.symm.trans h'.map_id_conditions)
  have hnegated : ∀ x ∈ e.negated, name x.1 = name' x.1 :=
    List.map_inj_left.mp (h.map_id_groups.symm.trans h'.map_id_groups)
  exact Expr.forall_items (fun p => name p = name' p) hconditions hnegated

/-- The references that are read from the markup of an expression with the given class. -/
def referencesBehind : List (String × String) :=
  references (Setting.lower ⟨wording.withMarkupClass markupClass, results⟩ (some e)).chart.markup

/-- The same names serve for all classes, and the references are those of the items. -/
theorem exists_references : ∃ name : Spot → String, (∀ p, Plain (name p)) ∧ ∀ markupClass,
    referencesBehind wording results markupClass e =
      e.items.map fun x => referenceOf markupClass (name x.1) x.2 := by
  obtain ⟨name, hnamed⟩ :=
    (draws_whole ⟨wording.withMarkupClass wording.markupClass, results⟩ e).exists_names
  refine ⟨name, hnamed.plain, fun markupClass => ?_⟩
  obtain ⟨name', hnamed'⟩ :=
    (draws_whole ⟨wording.withMarkupClass markupClass, results⟩ e).exists_names
  have hmirrors := mirrors_of_named hnamed
  rw [graph_withMarkupClass wording results wording.markupClass markupClass e] at hmirrors
  have hname := hmirrors.name_eq e (mirrors_of_named hnamed')
  change references (Setting.whole _ e).markup = _
  rw [hnamed'.markup, references_ofExpr _ e hnamed'.plain]
  apply List.map_congr_left
  intro x hx
  rw [hname x hx]
  rfl

/-- The references behind two classes are the same just where both classes end in the name of the id
attribute and an equals sign, or neither does, or there is nothing to refer to. -/
theorem referencesBehind_eq_iff : referencesBehind wording results markupClass e =
    referencesBehind wording results markupClass' e ↔
      (Misleading markupClass ↔ Misleading markupClass') ∨ e.items = [] := by
  obtain ⟨name, hplain, hreferences⟩ := exists_references wording results e
  have hone : ∀ x ∈ e.items, referenceOf markupClass (name x.1) x.2 =
      referenceOf markupClass' (name x.1) x.2 ↔ (Misleading markupClass ↔ Misleading markupClass') :=
    fun x _ => referenceOf_eq_iff (hplain x.1) x.2
  rw [hreferences, hreferences, List.map_inj_left]
  cases hitems : e.items with
  | nil => simp
  | cons x rest =>
      simp only [hitems, List.mem_cons, forall_eq_or_imp] at hone ⊢
      constructor
      · rintro ⟨hx, -⟩
        exact .inl (hone.1.mp hx)
      · rintro (h | h)
        · exact ⟨hone.1.mpr h, fun y hy => (hone.2 y hy).mpr h⟩
        · cases h

/-- Behind the name of the id attribute, what stands between the class and the id is read as the
id. -/
theorem referencesBehind_id_attribute :
    referencesBehind {} [] "x" (.condition 1) = [("1_0", "node")] ∧
      referencesBehind {} [] "data-item-id=" (.condition 1) = [(" data-item-id=", "node")] := by
  decide +kernel

end Setting

end ConditionChart
