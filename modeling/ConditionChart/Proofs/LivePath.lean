import ConditionChart.Proofs.Finish
import ConditionChart.Proofs.Liveness
import ConditionChart.Proofs.Value
import ConditionChart.Proofs.Walks

/-!
# Live paths

From every entry of a fragment an open end can be reached. Outside every group, a true expression
behind a live frontier has an entry from which a live open end is reached by a live walk; inside an
outermost negation all edges are as live as its exit. The whole expression is therefore true where a
live walk leads from the start to the end, and only there if every part of it is understood.
-/

namespace ConditionChart

namespace Fragment

theorem openEnds_recolour (live : Bool) (f : Fragment) :
    (f.recolour live).openEnds = f.openEnds.map fun o => { o with live := live } := by
  have hopen : (Node.isOpen ∘ fun n : Node => { n with live := live }) = Node.isOpen := rfl
  simp only [openEnds, recolour, List.filter_map, hopen, List.map_map]
  rfl

section Enclosed

variable {f : Fragment} {frontier : List Origin} {input output : String} {g : Group}
  {markupClass : String} {x : Edge}

/-- The edges of an outermost negation come from the frontier, from its operand, or from the open
ends of the operand. -/
theorem mem_edges_enclosed : x ∈ (f.enclosed frontier input output g markupClass).edges ↔
    (∃ o ∈ frontier, o.edgeTo input = x) ∨
      (∃ y ∈ f.edges, { y with continues := frontierLive frontier && !f.result } = x) ∨
        ∃ o ∈ f.openEnds, ⟨o.id, output, frontierLive frontier && !f.result⟩ = x := by
  have hinside : (f.recolour (frontierLive frontier && !f.result)).edges =
      f.edges.map fun y => { y with continues := frontierLive frontier && !f.result } := rfl
  simp only [enclosed, hinside, openEnds_recolour, List.mem_append, List.mem_map,
    exists_exists_and_eq_and]
  rfl

end Enclosed

/-- A walk through the operand of an outermost negation, in the colours it has there. -/
theorem walk_member (f : Fragment) {a b : String} {path : List Edge}
    (walk : Walk f.edges a b path) (frontier : List Origin) (input output : String) (g : Group)
    (markupClass : String) :
    Walk (f.enclosed frontier input output g markupClass).edges a b
      (path.map fun x => { x with continues := frontierLive frontier && !f.result }) := by
  apply Walk.mono (List.subset_append_right _ _)
  apply Walk.mono (List.subset_append_left _ _)
  exact walk.map (fun _ => rfl) (fun _ => rfl)

/-- A walk from the entry of an outermost negation through its operand leads on to its exit, and
all of its edges are as live as the exit. -/
theorem walk_enclosed {f : Fragment} {input : String} {o : Origin} {path : List Edge}
    (walk : Walk f.edges input o.id path) (ho : o ∈ f.openEnds) (frontier : List Origin)
    (output : String) (g : Group) (markupClass : String) :
    ∃ path', Walk (f.enclosed frontier input output g markupClass).edges input output path' ∧
      ∀ x ∈ path', x.continues = (frontierLive frontier && !f.result) := by
  have hinside := f.walk_member walk frontier input output g markupClass
  have hexit : ⟨o.id, output, frontierLive frontier && !f.result⟩ ∈
      (f.enclosed frontier input output g markupClass).edges :=
    mem_edges_enclosed.mpr (.inr (.inr ⟨o, ho, rfl⟩))
  refine ⟨_, hinside.append (.single hexit), ?_⟩
  intro x hx
  rcases List.mem_append.mp hx with hx | hx
  · obtain ⟨y, _, rfl⟩ := List.mem_map.mp hx
    rfl
  · rw [List.mem_singleton.mp hx]

end Fragment

namespace Setting.Draws

variable {s : Setting} {e : Expr} {frontier : List Origin} {group : Option String}
  {ids : IdSource} {f : Fragment}

/-- An outermost negation can be crossed by edges as live as its exit, given that its operand can
be crossed. Where nothing is drawn inside, the entry itself is an open end. -/
theorem exists_walk_enclosed {input : String} {live : Bool}
    (h : s.Draws e [⟨input, live⟩] group ids f)
    (through : ∀ id ∈ f.entries, ∃ o ∈ f.openEnds, ∃ path, Walk f.edges id o.id path)
    (frontier : List Origin) (output : String) (g : Group) (markupClass : String) :
    ∃ o ∈ (f.enclosed frontier input output g markupClass).openEnds,
      ((frontierLive frontier && !f.result) = true → o.live = true) ∧
      ∃ path, Walk (f.enclosed frontier input output g markupClass).edges input o.id path ∧
        ∀ x ∈ path, x.continues = (frontierLive frontier && !f.result) := by
  rw [Fragment.openEnds_enclosed]
  cases hentries : f.entries with
  | nil =>
      refine ⟨⟨input, frontierLive frontier⟩, by simp, ?_, [], .stay input, by simp⟩
      intro hlive
      exact (Bool.and_eq_true_iff.mp hlive).1
  | cons id rest =>
      have hid : id ∈ f.entries := by simp [hentries]
      obtain ⟨o, ho, path, walk⟩ := through id hid
      have hedge := h.edgeTo_mem (List.mem_singleton_self _) hid
      exact ⟨⟨output, frontierLive frontier && !f.result⟩, by simp, fun hlive => hlive,
        Fragment.walk_enclosed (.along hedge walk) ho frontier output g markupClass⟩

/-- From every entry some open end can be reached. -/
theorem exists_walk (h : s.Draws e frontier group ids f) :
    ∀ id ∈ f.entries, ∃ o ∈ f.openEnds, ∃ path, Walk f.edges id o.id path := by
  induction h with
  | condition seq frontier group ids =>
      intro id hid
      rw [List.mem_singleton.mp hid, openEnds_conditionFragment]
      exact ⟨_, List.mem_singleton_self _, [], .stay _⟩
  | either parenthesized _ _ ihl ihr =>
      intro id hid
      rw [Fragment.openEnds_either]
      rcases List.mem_append.mp hid with hid | hid
      · obtain ⟨o, ho, path, walk⟩ := ihl id hid
        exact ⟨o, List.mem_append_left _ ho, path, walk.mono (List.subset_append_left _ _)⟩
      · obtain ⟨o, ho, path, walk⟩ := ihr id hid
        exact ⟨o, List.mem_append_right _ ho, path, walk.mono (List.subset_append_right _ _)⟩
  | @andThen _ _ _ _ _ l r parenthesized _ hr ihl ihr =>
      intro id hid
      obtain ⟨o, ho, path, walk⟩ := ihl id hid
      have hwalk := walk.mono (List.subset_append_left l.edges r.edges)
      cases hentries : r.entries with
      | nil =>
          rw [Fragment.openEnds_andThen_of_eq_nil l parenthesized hentries]
          exact ⟨o, List.mem_append_left _ ho, path, hwalk⟩
      | cons next rest =>
          have hnext : next ∈ r.entries := by simp [hentries]
          obtain ⟨o', ho', path', walk'⟩ := ihr next hnext
          have hstep : Walk r.edges o.id o'.id (o.edgeTo next :: path') :=
            .along (hr.edgeTo_mem ho hnext) walk'
          exact ⟨o', Fragment.openEnds_subset_andThen l r parenthesized ho', _,
            hwalk.append (hstep.mono (List.subset_append_right _ _))⟩
  | framed _ ih => exact ih
  | @enclosed operand frontier ids inner h ih =>
      intro id hid
      obtain ⟨o, ho, _, path, walk, _⟩ := h.exists_walk_enclosed ih frontier
        (inner.ids.boundaryOutput ids.group) ⟨ids.group, none⟩ s.wording.markupClass
      rw [List.mem_singleton.mp hid]
      exact ⟨o, ho, path, walk⟩
  | unsupported => simp

/-- Outside every group, a true expression behind a live frontier has an entry from which a live
walk reaches a live open end. -/
theorem exists_liveWalk (h : s.Draws e frontier group ids f) (hgroup : group = none)
    (hlive : frontierLive frontier = true) (hvalue : e.value s.results.truth = true) :
    ∃ id ∈ f.entries, ∃ o ∈ f.openEnds, o.live = true ∧ LiveWalk f.edges id o.id := by
  induction h with
  | condition seq frontier group ids =>
      have htruth : s.results.truth seq = true := hvalue
      rw [openEnds_conditionFragment]
      exact ⟨_, List.mem_singleton_self _, _, List.mem_singleton_self _, by simp [hlive, htruth],
        .stay _ _⟩
  | either parenthesized _ _ ihl ihr =>
      rw [Fragment.openEnds_either]
      simp only [Expr.value, Connective.apply, Bool.or_eq_true] at hvalue
      rcases hvalue with hvalue | hvalue
      · obtain ⟨id, hid, o, ho, hol, walk⟩ := ihl hgroup hlive hvalue
        exact ⟨id, List.mem_append_left _ hid, o, List.mem_append_left _ ho, hol,
          walk.mono (List.subset_append_left _ _)⟩
      · obtain ⟨id, hid, o, ho, hol, walk⟩ := ihr hgroup hlive hvalue
        exact ⟨id, List.mem_append_right _ hid, o, List.mem_append_right _ ho, hol,
          walk.mono (List.subset_append_right _ _)⟩
  | @andThen _ _ _ _ _ l r parenthesized hl hr ihl ihr =>
      simp only [Expr.value, Connective.apply, Bool.and_eq_true] at hvalue
      obtain ⟨id, hid, o, ho, hol, walk⟩ := ihl hgroup hlive hvalue.1
      have hmiddle := hl.live_openEnds hgroup hlive hvalue.1
      obtain ⟨next, hnext, o', ho', hol', walk'⟩ := ihr hgroup hmiddle hvalue.2
      have hstep : LiveWalk r.edges o.id next := .single (hr.edgeTo_mem ho hnext) hol
      exact ⟨id, hid, o', Fragment.openEnds_subset_andThen l r parenthesized ho', hol',
        (walk.mono (List.subset_append_left _ _)).append
          ((hstep.append walk').mono (List.subset_append_right _ _))⟩
  | framed _ _ => cases hgroup
  | @enclosed operand frontier ids inner h _ =>
      obtain ⟨o, ho, hol, path, walk, hpath⟩ := h.exists_walk_enclosed h.exists_walk frontier
        (inner.ids.boundaryOutput ids.group) ⟨ids.group, none⟩ s.wording.markupClass
      have hexit : (frontierLive frontier && !inner.result) = true := by
        rw [h.result, hlive]
        simpa [Expr.value] using hvalue
      rw [hexit] at hpath
      exact ⟨_, List.mem_singleton_self _, o, ho, hol hexit, path, walk, hpath⟩
  | unsupported => cases hvalue

end Setting.Draws

namespace Setting

variable (s : Setting) (e : Expr)

/-- A true expression has a live walk from the start to the end. -/
theorem liveWalk_of_result (hvalue : e.value s.results.truth = true) :
    LiveWalk (s.lowerExpr e).chart.graph.edges startId endId := by
  obtain ⟨id, hid, o, ho, hol, walk⟩ := (s.draws_whole e).exists_liveWalk rfl rfl hvalue
  have hfirst : LiveWalk (s.whole e).edges startId id :=
    .single ((s.draws_whole e).edgeTo_mem (List.mem_singleton_self _) hid) rfl
  have hlast : LiveWalk ((s.whole e).openEnds.map (Origin.edgeTo endId)) o.id endId :=
    .single (List.mem_map_of_mem ho) hol
  rw [s.edges_lowerExpr]
  exact ((hfirst.append walk).mono (List.subset_append_left _ _)).append
    (hlast.mono (List.subset_append_right _ _))

/-- The edges into the end come from the open ends of the whole fragment. -/
theorem mem_openEnds_of_target_end {x : Edge} (hx : x ∈ (s.lowerExpr e).chart.graph.edges)
    (htarget : x.target = endId) : ∃ o ∈ (s.whole e).openEnds, o.edgeTo endId = x := by
  rw [s.edges_lowerExpr] at hx
  rcases List.mem_append.mp hx with hx | hx
  · have hmem := (s.draws_whole e).target_mem x hx
    rw [htarget] at hmem
    exact absurd rfl ((s.draws_whole e).fresh.issued _ (List.mem_append_left _ hmem)).ne_end
  · exact List.mem_map.mp hx

/-- Where every part is understood, an edge that continues into the end makes the expression
true. -/
theorem value_of_continues (he : e.Supported) {x : Edge}
    (hx : x ∈ (s.lowerExpr e).chart.graph.edges) (htarget : x.target = endId)
    (hlive : x.continues = true) : e.value s.results.truth = true := by
  obtain ⟨o, ho, rfl⟩ := s.mem_openEnds_of_target_end e hx htarget
  have hends : frontierLive (s.whole e).openEnds = true := frontierLive_iff.mpr ⟨o, ho, hlive⟩
  rw [(s.draws_whole e).frontierLive_openEnds rfl he] at hends
  exact (Bool.and_eq_true_iff.mp hends).2

/-- A true chart has a live walk from the start to the end. If every part of the expression is
understood, a chart with such a walk is true, and so is one with any edge that continues into the
end. -/
theorem result_and_live_walk (s : Setting) (e : Expr) :
    let chart := (s.lower (some e)).chart
    (chart.result = true → LiveWalk chart.graph.edges startId endId) ∧
      (e.Supported →
        (LiveWalk chart.graph.edges startId endId → chart.result = true) ∧
          ∀ x ∈ chart.graph.incoming endId, x.continues = true → chart.result = true) := by
  intro chart
  have hresult : chart.result = e.value s.results.truth := s.result_lowerExpr e
  rw [hresult]
  constructor
  · exact s.liveWalk_of_result e
  · intro he
    constructor
    · rintro ⟨path, walk, hlive⟩
      obtain ⟨x, hx, hedge, htarget⟩ := walk.exists_last (by decide)
      exact s.value_of_continues e he hedge htarget (hlive x hx)
    · intro x hx hlive
      obtain ⟨hedge, htarget⟩ := List.mem_filter.mp hx
      exact s.value_of_continues e he hedge (by simpa using htarget) hlive

/-- With condition 1 alone true, `1 && !2` is true and has a live walk. -/
theorem live_walk_through_negation :
    (Expr.and (.condition 1) (.not (.condition 2))).value
        (Results.truth [{ seq := 1, result := true }]) = true ∧
      LiveWalk (({ results := [{ seq := 1, result := true }] } : Setting).lower
        (some (Expr.and (.condition 1) (.not (.condition 2))))).chart.graph.edges startId endId :=
  ⟨by decide, (result_and_live_walk _ _).1 (by decide)⟩

end Setting

end ConditionChart
