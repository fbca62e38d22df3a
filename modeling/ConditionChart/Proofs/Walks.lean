import ConditionChart.Chart.Graph

/-!
# Walks along edges

A walk follows edges from one id to another. It is live if every edge of it continues.
-/

namespace ConditionChart

/-- `Walk edges a b path`: the edges of `path` lead one after another from `a` to `b`. -/
inductive Walk (edges : List Edge) : String → String → List Edge → Prop
  | stay (id : String) : Walk edges id id []
  | along {x : Edge} {id : String} {path : List Edge} (hx : x ∈ edges)
      (rest : Walk edges x.target id path) : Walk edges x.source id (x :: path)

/-- A walk all of whose edges continue. -/
def LiveWalk (edges : List Edge) (a b : String) : Prop :=
  ∃ path, Walk edges a b path ∧ ∀ x ∈ path, x.continues = true

namespace Walk

variable {edges edges' : List Edge} {a b c : String} {path path' : List Edge}

theorem single {x : Edge} (hx : x ∈ edges) : Walk edges x.source x.target [x] :=
  .along hx (.stay _)

theorem append (first : Walk edges a b path) (last : Walk edges b c path') :
    Walk edges a c (path ++ path') := by
  induction first with
  | stay _ => exact last
  | along hx _ ih => exact .along hx (ih last)

theorem mono (h : edges ⊆ edges') (walk : Walk edges a b path) : Walk edges' a b path := by
  induction walk with
  | stay id => exact .stay id
  | along hx _ ih => exact .along (h hx) ih

theorem subset (walk : Walk edges a b path) : path ⊆ edges := by
  induction walk with
  | stay _ => exact List.nil_subset _
  | along hx _ ih => exact List.cons_subset.mpr ⟨hx, ih⟩

/-- Changing edges apart from their ends keeps every walk. -/
theorem map {change : Edge → Edge} (hsource : ∀ x, (change x).source = x.source)
    (htarget : ∀ x, (change x).target = x.target) (walk : Walk edges a b path) :
    Walk (edges.map change) a b (path.map change) := by
  induction walk with
  | stay id => exact .stay id
  | @along x id path hx _ ih =>
      rw [← htarget x] at ih
      rw [← hsource x]
      exact .along (List.mem_map_of_mem hx) ih

/-- A walk that leaves its beginning arrives by an edge. -/
theorem exists_last (walk : Walk edges a b path) (hne : a ≠ b) :
    ∃ x ∈ path, x ∈ edges ∧ x.target = b := by
  induction walk with
  | stay _ => exact absurd rfl hne
  | @along x id path hx rest ih =>
      by_cases heq : x.target = id
      · exact ⟨x, List.mem_cons_self, hx, heq⟩
      · obtain ⟨y, hy, hyedges, hytarget⟩ := ih heq
        exact ⟨y, List.mem_cons_of_mem _ hy, hyedges, hytarget⟩

/-- A walk that begins outside stays outside or has a first edge that leads inside. -/
theorem outside_or_exists_first (walk : Walk edges a b path) (inside : String → Prop)
    (ha : ¬ inside a) :
    (∀ x ∈ path, ¬ inside x.source ∧ ¬ inside x.target) ∨
      ∃ before x after, path = before ++ x :: after ∧ x ∈ edges ∧
        Walk edges a x.source before ∧ Walk edges x.target b after ∧
        ¬ inside x.source ∧ inside x.target ∧
        ∀ y ∈ before, ¬ inside y.source ∧ ¬ inside y.target := by
  induction walk with
  | stay _ => exact .inl (by simp)
  | @along x id path hx rest ih =>
      by_cases htarget : inside x.target
      · exact .inr ⟨[], x, path, rfl, hx, .stay _, rest, ha, htarget, by simp⟩
      rcases ih htarget with hout | ⟨before, y, after, rfl, hy, first, last, hsource, hin, hbefore⟩
      · exact .inl (List.forall_mem_cons.mpr ⟨⟨ha, htarget⟩, hout⟩)
      · exact .inr ⟨x :: before, y, after, rfl, hy, .along hx first, last, hsource, hin,
          List.forall_mem_cons.mpr ⟨⟨ha, htarget⟩, hbefore⟩⟩

end Walk

namespace LiveWalk

variable {edges edges' : List Edge} {a b c : String}

theorem stay (edges : List Edge) (a : String) : LiveWalk edges a a := ⟨[], .stay a, by simp⟩

theorem single {x : Edge} (hx : x ∈ edges) (hlive : x.continues = true) :
    LiveWalk edges x.source x.target :=
  ⟨[x], .single hx, by simpa using hlive⟩

theorem append (first : LiveWalk edges a b) (last : LiveWalk edges b c) : LiveWalk edges a c := by
  obtain ⟨path, walk, hlive⟩ := first
  obtain ⟨path', walk', hlive'⟩ := last
  exact ⟨path ++ path', walk.append walk', List.forall_mem_append.mpr ⟨hlive, hlive'⟩⟩

theorem mono (h : edges ⊆ edges') (walk : LiveWalk edges a b) : LiveWalk edges' a b := by
  obtain ⟨path, walk, hlive⟩ := walk
  exact ⟨path, walk.mono h, hlive⟩

end LiveWalk

end ConditionChart
