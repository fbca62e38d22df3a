import ConditionChart.Proofs.Wiring

/-!
# Liveness of fragments

Nothing behind a dead frontier is live. Outside every group, a live frontier and a true expression
leave a live open end, and where every part of the expression is understood the converse holds: the
open ends are live exactly when the frontier is live and the expression is true.
-/

namespace ConditionChart

@[simp] theorem frontierLive_append (first last : List Origin) :
    frontierLive (first ++ last) = (frontierLive first || frontierLive last) :=
  List.any_append

@[simp] theorem frontierLive_singleton (o : Origin) : frontierLive [o] = o.live := by
  simp [frontierLive]

theorem frontierLive_iff {frontier : List Origin} :
    frontierLive frontier = true ↔ ∃ o ∈ frontier, o.live = true :=
  List.any_eq_true

theorem frontierLive_mono {first last : List Origin} (h : first ⊆ last)
    (hlive : frontierLive first = true) : frontierLive last = true := by
  obtain ⟨o, ho, hol⟩ := frontierLive_iff.mp hlive
  exact frontierLive_iff.mpr ⟨o, h ho, hol⟩

theorem Fragment.frontierLive_openEnds_of_dead {f : Fragment}
    (h : ∀ n ∈ f.nodes, n.live = false) : frontierLive f.openEnds = false := by
  rw [frontierLive, List.any_eq_false]
  intro o ho
  obtain ⟨n, hn, rfl⟩ := List.mem_map.mp ho
  simp [Node.origin, h n (List.mem_of_mem_filter hn)]

theorem Setting.openEnds_conditionFragment (s : Setting) (seq : SeqNo) (frontier : List Origin)
    (group : Option String) (ids : IdSource) :
    (s.conditionFragment seq frontier group ids).openEnds =
      [⟨ids.condition seq, frontierLive frontier && s.results.truth seq⟩] := rfl

namespace Setting.Draws

variable {s : Setting} {e : Expr} {frontier : List Origin} {group : Option String}
  {ids : IdSource} {f : Fragment}

/-- Nothing that is drawn behind a dead frontier is live. -/
theorem dead (h : s.Draws e frontier group ids f) (hdead : frontierLive frontier = false) :
    ∀ n ∈ f.nodes, n.live = false := by
  induction h with
  | condition seq frontier group ids =>
      intro n hn
      rw [List.mem_singleton.mp hn]
      simp [hdead]
  | either parenthesized _ _ ihl ihr =>
      intro n hn
      rcases List.mem_append.mp hn with hn | hn
      · exact ihl hdead n hn
      · exact ihr hdead n hn
  | andThen parenthesized _ _ ihl ihr =>
      intro n hn
      rcases Fragment.mem_nodes_andThen.mp hn with ⟨m, hm, rfl⟩ | hn
      · rw [Node.live_closeWith]
        exact ihl hdead m hm
      · exact ihr (Fragment.frontierLive_openEnds_of_dead (ihl hdead)) n hn
  | framed _ ih => exact ih hdead
  | enclosed _ _ =>
      intro n hn
      rcases Fragment.mem_nodes_enclosed.mp hn with rfl | ⟨m, _, rfl⟩ | rfl
      · exact hdead
      · simp [hdead]
      · simp [Fragment.boundary, hdead]
  | unsupported => simp

/-- Outside every group, a true expression behind a live frontier leaves a live open end, whatever
else in it is not understood. -/
theorem live_openEnds (h : s.Draws e frontier group ids f) (hgroup : group = none)
    (hlive : frontierLive frontier = true) (hvalue : e.value s.results.truth = true) :
    frontierLive f.openEnds = true := by
  induction h with
  | condition seq frontier group ids =>
      have htruth : s.results.truth seq = true := hvalue
      simp [openEnds_conditionFragment, hlive, htruth]
  | either parenthesized _ _ ihl ihr =>
      rw [Fragment.openEnds_either, frontierLive_append, Bool.or_eq_true]
      simp only [Expr.value, Connective.apply, Bool.or_eq_true] at hvalue
      exact hvalue.imp (ihl hgroup hlive) (ihr hgroup hlive)
  | andThen parenthesized _ _ ihl ihr =>
      simp only [Expr.value, Connective.apply, Bool.and_eq_true] at hvalue
      have hleft := ihl hgroup hlive hvalue.1
      exact frontierLive_mono (Fragment.openEnds_subset_andThen _ _ _)
        (ihr hgroup hleft hvalue.2)
  | framed _ _ => cases hgroup
  | enclosed h _ =>
      simp only [Expr.value] at hvalue
      rw [Fragment.openEnds_enclosed, frontierLive_append, h.result, frontierLive_singleton, hlive,
        hvalue, Bool.and_self, Bool.or_true]
  | unsupported => cases hvalue

/-- Outside every group, the open ends of an expression that is understood in every part are live
exactly when the frontier is and the expression is true. -/
theorem frontierLive_openEnds (h : s.Draws e frontier group ids f) (hgroup : group = none)
    (he : e.Supported) :
    frontierLive f.openEnds = (frontierLive frontier && e.value s.results.truth) := by
  induction h with
  | condition seq frontier group ids =>
      rw [openEnds_conditionFragment, frontierLive_singleton, Expr.value]
  | either parenthesized _ _ ihl ihr =>
      obtain ⟨hl, hr⟩ := Expr.supported_logical.mp he
      rw [Fragment.openEnds_either, frontierLive_append, ihl hgroup hl, ihr hgroup hr,
        Expr.value, Connective.apply, Bool.and_or_distrib_left]
  | andThen parenthesized _ hr ihl ihr =>
      obtain ⟨hls, hrs⟩ := Expr.supported_logical.mp he
      rw [Fragment.openEnds_andThen_of_ne_nil _ _ (hr.entries_ne_nil hrs), ihr hgroup hrs,
        ihl hgroup hls, Expr.value, Connective.apply, Bool.and_assoc]
  | framed _ _ => cases hgroup
  | enclosed h _ =>
      have hentries := h.entries_ne_nil (Expr.supported_not.mp he)
      rw [Fragment.openEnds_enclosed, h.result, Expr.value, if_neg (by simpa using hentries),
        List.nil_append, frontierLive_singleton]
  | unsupported => exact absurd he Expr.not_supported_unsupported

end Setting.Draws

end ConditionChart
