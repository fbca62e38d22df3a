import ConditionChart.Proofs.Finish
import ConditionChart.Proofs.Value

/-!
# Association

A chain of one connective is drawn in the same way however it is grouped, wherever it stands in a
larger expression. For conjunction the part in the middle must be understood: it takes up all open
ends of the part before it, so that the last part goes on from the middle one alone.
-/

namespace ConditionChart

/-- An expression with one part left out. -/
inductive Context
  | hole
  | inLeft (op : Connective) (inner : Context) (right : Expr) (parenthesized : Bool)
  | inRight (op : Connective) (left : Expr) (inner : Context) (parenthesized : Bool)
  | inNot (inner : Context)

namespace Context

/-- The expression with the missing part put in. -/
def fill : Context → Expr → Expr
  | hole, e => e
  | inLeft op inner right parenthesized, e => .logical op (inner.fill e) right parenthesized
  | inRight op left inner parenthesized, e => .logical op left (inner.fill e) parenthesized
  | inNot inner, e => .not (inner.fill e)

end Context

namespace Markup

/-- Without parentheses between them, three operands are written one after another. -/
theorem logical_assoc (op : Connective) (a b c : String) (parenthesized : Bool) :
    logical op (logical op a b false) c parenthesized =
      logical op a (logical op b c false) parenthesized := by
  simp [logical, String.append_assoc]

end Markup

namespace Fragment

variable (a b c : Fragment) (parenthesized : Bool)

theorem either_assoc :
    (a.either b false).either c parenthesized = a.either (b.either c false) parenthesized := by
  simp [either, Bool.or_assoc, Markup.logical_assoc]

/-- What the middle part closes stays closed, if the middle part can be entered. -/
theorem andThen_assoc (hb : b.entries ≠ []) :
    (a.andThen b false).andThen c parenthesized = a.andThen (b.andThen c false) parenthesized := by
  have hclosed : (a.nodes.map (Node.closeWith b.entries)).map (Node.closeWith c.entries) =
      a.nodes.map (Node.closeWith b.entries) := by
    rw [List.map_map, Node.closeWith_comp_closeWith, if_neg (by simpa using hb)]
  simp only [andThen, List.map_append, hclosed, List.append_assoc, Bool.and_assoc,
    Markup.logical_assoc]

end Fragment

namespace Setting

variable {s : Setting}

/-- Both expressions are drawn as the same fragment, wherever they are reached from. -/
def DrawnAlike (s : Setting) (x y : Expr) : Prop :=
  ∀ frontier group ids, s.fragment x frontier group ids = s.fragment y frontier group ids

/-- What is drawn alike may be put for one another in any expression. -/
theorem DrawnAlike.fill {x y : Expr} (h : s.DrawnAlike x y) (around : Context) :
    s.DrawnAlike (around.fill x) (around.fill y) := by
  induction around with
  | hole => exact h
  | inLeft op inner right parenthesized ih =>
      intro frontier group ids
      cases op <;> simp only [Context.fill, fragment, ih frontier group ids]
  | inRight op left inner parenthesized ih =>
      intro frontier group ids
      cases op with
      | and => simp only [Context.fill, fragment, ih _ group _]
      | or => simp only [Context.fill, fragment, ih frontier group _]
  | inNot inner ih =>
      intro frontier group ids
      cases group with
      | none => simp only [Context.fill, fragment, ih _ _ _]
      | some enclosing => simp only [Context.fill, fragment, ih frontier _ _]

/-- The chart and the report depend on an expression only through what is drawn for it. -/
theorem DrawnAlike.lower_eq {x y : Expr} (h : s.DrawnAlike x y) :
    s.lower (some x) = s.lower (some y) := by
  simp only [lower, lowerExpr, Draft.fragment, h _ none _]

variable (s) (a b c : Expr) (parenthesized : Bool)

theorem drawnAlike_or : s.DrawnAlike (.logical .or (.or a b) c parenthesized)
    (.logical .or a (.or b c) parenthesized) := by
  intro frontier group ids
  exact Fragment.either_assoc _ _ _ parenthesized

/-- The third part is reached from the open ends of the second one, on either side. -/
theorem drawnAlike_and (hb : b.Supported) : s.DrawnAlike (.logical .and (.and a b) c parenthesized)
    (.logical .and a (.and b c) parenthesized) := by
  intro frontier group ids
  have hentries := (s.draws_fragment b (s.fragment a frontier group ids).openEnds group
    (s.fragment a frontier group ids).ids).entries_ne_nil hb
  simp only [Expr.and, fragment, Fragment.openEnds_andThen_of_ne_nil _ _ hentries]
  exact Fragment.andThen_assoc _ _ _ parenthesized hentries

/-- Wherever a chain of one connective stands, regrouping it changes neither the chart nor the report
of its drawing. A chain of conjunctions needs a part in the middle that is understood. -/
theorem lower_regrouped (around : Context) :
    s.lower (some (around.fill (.logical .or (.or a b) c parenthesized))) =
        s.lower (some (around.fill (.logical .or a (.or b c) parenthesized))) ∧
      (b.Supported →
        s.lower (some (around.fill (.logical .and (.and a b) c parenthesized))) =
          s.lower (some (around.fill (.logical .and a (.and b c) parenthesized)))) := by
  constructor
  · exact ((s.drawnAlike_or a b c parenthesized).fill around).lower_eq
  · intro hb
    exact ((s.drawnAlike_and a b c parenthesized hb).fill around).lower_eq

/-- A chain under a negation, with a negation in its middle. -/
theorem lower_regrouped_negated :
    (Expr.not (.condition 2)).Supported ∧
      Setting.lower ⟨{}, []⟩ (some (.not
          (.logical .and (.and (.condition 1) (.not (.condition 2))) .unsupported true))) =
        Setting.lower ⟨{}, []⟩ (some (.not
          (.logical .and (.condition 1) (.and (.not (.condition 2)) .unsupported) true))) := by
  have hb : (Expr.not (.condition 2)).Supported := by decide
  exact ⟨hb, (lower_regrouped ⟨{}, []⟩ (.condition 1) (.not (.condition 2)) .unsupported true
    (.inNot .hole)).2 hb⟩

/-- Behind a middle part that draws nothing, grouping decides whether the last part is reached. -/
example :
    (Setting.lower ⟨{}, []⟩ (some (.and (.and (.condition 1) .unsupported) (.condition 2)))).chart ≠
      (Setting.lower ⟨{}, []⟩
        (some (.and (.condition 1) (.and .unsupported (.condition 2))))).chart := by
  decide +kernel

end Setting

end ConditionChart
