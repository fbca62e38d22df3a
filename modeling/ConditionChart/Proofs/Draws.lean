import ConditionChart.Chart.Fragment
import ConditionChart.Proofs.Numbering

/-!
# Rules of drawing

Drawing an expression is restated as a relation with one rule for each form of expression, so that
what holds of every fragment is proved by going through the rules. The relation holds of one
fragment only, the one that the drawing function gives.
-/

namespace ConditionChart

open IdSource

namespace Setting

variable {s : Setting} {e : Expr} {frontier : List Origin} {group : Option String}
  {ids : IdSource} {f : Fragment}

/-- `s.Draws e frontier group ids f`: behind the frontier and inside the group, the expression is
drawn as `f`. -/
inductive Draws (s : Setting) :
    Expr → List Origin → Option String → IdSource → Fragment → Prop
  | condition (seq : SeqNo) (frontier : List Origin) (group : Option String) (ids : IdSource) :
      Draws s (.condition seq) frontier group ids (s.conditionFragment seq frontier group ids)
  | either {left right : Expr} {frontier : List Origin} {group : Option String} {ids : IdSource}
      {l r : Fragment} (parenthesized : Bool) (hl : Draws s left frontier group ids l)
      (hr : Draws s right frontier group l.ids r) :
      Draws s (.logical .or left right parenthesized) frontier group ids
        (l.either r parenthesized)
  | andThen {left right : Expr} {frontier : List Origin} {group : Option String} {ids : IdSource}
      {l r : Fragment} (parenthesized : Bool) (hl : Draws s left frontier group ids l)
      (hr : Draws s right l.openEnds group l.ids r) :
      Draws s (.logical .and left right parenthesized) frontier group ids
        (l.andThen r parenthesized)
  | framed {operand : Expr} {frontier : List Origin} {enclosing : String} {ids : IdSource}
      {inner : Fragment} (h : Draws s operand frontier (some ids.group) ids.advance inner) :
      Draws s (.not operand) frontier (some enclosing) ids
        (inner.framed ⟨ids.group, some enclosing⟩ s.wording.markupClass)
  | enclosed {operand : Expr} {frontier : List Origin} {ids : IdSource} {inner : Fragment}
      (h : Draws s operand [⟨ids.advance.boundaryInput ids.group, frontierLive frontier⟩]
        (some ids.group) ids.advance.advance inner) :
      Draws s (.not operand) frontier none ids
        (inner.enclosed frontier (ids.advance.boundaryInput ids.group)
          (inner.ids.boundaryOutput ids.group) ⟨ids.group, none⟩ s.wording.markupClass)
  | unsupported (frontier : List Origin) (group : Option String) (ids : IdSource) :
      Draws s .unsupported frontier group ids { events := [.emptyFragment], ids := ids }

theorem draws_fragment (s : Setting) (e : Expr) (frontier : List Origin) (group : Option String)
    (ids : IdSource) : s.Draws e frontier group ids (s.fragment e frontier group ids) := by
  induction e generalizing frontier group ids with
  | condition seq => exact .condition seq frontier group ids
  | logical op left right parenthesized ihl ihr =>
      cases op with
      | and => exact .andThen parenthesized (ihl _ _ _) (ihr _ _ _)
      | or => exact .either parenthesized (ihl _ _ _) (ihr _ _ _)
  | not operand ih =>
      cases group with
      | none => exact .enclosed (ih _ _ _)
      | some enclosing => exact .framed (ih _ _ _)
  | unsupported => exact .unsupported frontier group ids

/-- The rules draw one fragment, the one that the function gives. -/
theorem draws_iff : s.Draws e frontier group ids f ↔ f = s.fragment e frontier group ids := by
  constructor
  · intro h
    induction h with
    | condition => rfl
    | either parenthesized hl hr ihl ihr => subst ihl; subst ihr; rfl
    | andThen parenthesized hl hr ihl ihr => subst ihl; subst ihr; rfl
    | framed h ih => subst ih; rfl
    | enclosed h ih => subst ih; rfl
    | unsupported => rfl
  · rintro rfl
    exact s.draws_fragment e frontier group ids

theorem Draws.result (h : s.Draws e frontier group ids f) :
    f.result = e.value s.results.truth := by
  rw [draws_iff.mp h]
  exact s.result_fragment e frontier group ids

end Setting

end ConditionChart
