import ConditionChart.Proofs.Wiring

/-!
# Nesting of groups

Going outward from a node means to step from its group to the parent of that group, and so on. In a
fragment this leads to the group in which the fragment was drawn, by groups of the fragment only.
-/

namespace ConditionChart

open IdSource

/-- `Outward groups a b`: stepping from a group to its parent leads from `a` to `b`, where none is
outside all groups. -/
inductive Outward (groups : List Group) : Option String → Option String → Prop
  | stay (place : Option String) : Outward groups place place
  | leave {g : Group} {place : Option String} (hg : g ∈ groups)
      (rest : Outward groups g.parent place) : Outward groups (some g.id) place

namespace Outward

variable {groups groups' : List Group} {a b c : Option String}

theorem mono (hsub : groups ⊆ groups') (h : Outward groups a b) : Outward groups' a b := by
  induction h with
  | stay place => exact .stay place
  | leave hg _ ih => exact .leave (hsub hg) ih

theorem trans (first : Outward groups a b) (last : Outward groups b c) : Outward groups a c := by
  induction first with
  | stay _ => exact last
  | leave hg _ ih => exact .leave hg (ih last)

/-- One step outward. -/
theorem single {g : Group} (hg : g ∈ groups) : Outward groups (some g.id) g.parent :=
  .leave hg (.stay _)

/-- A way outward that leads to a group goes on through it. -/
theorem through {g : Group} (h : Outward groups a (some g.id)) :
    Outward (g :: groups) a g.parent :=
  (h.mono (List.subset_cons_self _ _)).trans (.single List.mem_cons_self)

/-- Nothing is further out than outside. -/
theorem eq_none_of_none (h : Outward groups none b) : b = none := by
  cases h with
  | stay _ => rfl

/-- The way outward from a group ends at once or goes on from the parent. -/
theorem some_cases {id : String} (h : Outward groups (some id) b) :
    b = some id ∨ ∃ g ∈ groups, g.id = id ∧ Outward groups g.parent b := by
  cases h with
  | stay _ => exact .inl rfl
  | leave hg rest => exact .inr ⟨_, hg, rfl, rest⟩

/-- What the way outward leaves is one of the groups. -/
theorem mem_of_ne {id : String} (h : Outward groups (some id) b) (hne : b ≠ some id) :
    id ∈ groups.map Group.id := by
  rcases h.some_cases with heq | ⟨g, hg, rfl, _⟩
  · exact absurd heq hne
  · exact List.mem_map_of_mem hg

section Distinct

variable (hnodup : (groups.map Group.id).Nodup)
include hnodup

/-- There is one way outward. -/
theorem linear (first : Outward groups a b) (last : Outward groups a c) :
    Outward groups b c ∨ Outward groups c b := by
  induction first with
  | stay _ => exact .inl last
  | @leave g place hg rest ih =>
      rcases last.some_cases with rfl | ⟨g', hg', hid, hlast⟩
      · exact .inr (.leave hg rest)
      · obtain rfl := List.inj_on_of_nodup_map hnodup hg' hg hid
        exact ih hlast

/-- From a group without parent, no other group is reached. -/
theorem eq_of_root {root : Group} {id : String} (hroot : root ∈ groups)
    (hparent : root.parent = none) (h : Outward groups (some root.id) (some id)) : id = root.id := by
  rcases h.some_cases with heq | ⟨g, hg, hid, rest⟩
  · exact Option.some.inj heq
  · obtain rfl := List.inj_on_of_nodup_map hnodup hg hroot hid
    rw [hparent] at rest
    exact absurd rest.eq_none_of_none (by simp)

/-- There is at most one outermost group. -/
theorem root_unique {root root' : Group} (hroot : root ∈ groups) (hroot' : root' ∈ groups)
    (hparent : root.parent = none) (hparent' : root'.parent = none)
    (h : Outward groups a (some root.id)) (h' : Outward groups a (some root'.id)) :
    root = root' := by
  refine List.inj_on_of_nodup_map hnodup hroot hroot' ?_
  rcases linear hnodup h h' with hway | hway
  · exact (eq_of_root hnodup hroot hparent hway).symm
  · exact eq_of_root hnodup hroot' hparent' hway

end Distinct

end Outward

namespace Setting.Draws

variable {s : Setting} {e : Expr} {frontier : List Origin} {group : Option String}
  {ids : IdSource} {f : Fragment}

/-- From every node of a fragment the way outward leads to the group that the fragment is drawn
in. -/
theorem outward_node (h : s.Draws e frontier group ids f) :
    ∀ n ∈ f.nodes, Outward f.groups n.group group := by
  induction h with
  | condition seq frontier group ids =>
      intro n hn
      rw [List.mem_singleton.mp hn]
      exact .stay group
  | either parenthesized _ _ ihl ihr =>
      intro n hn
      rcases List.mem_append.mp hn with hn | hn
      · exact (ihl n hn).mono (List.subset_append_left _ _)
      · exact (ihr n hn).mono (List.subset_append_right _ _)
  | andThen parenthesized _ _ ihl ihr =>
      intro n hn
      rcases Fragment.mem_nodes_andThen.mp hn with ⟨m, hm, rfl⟩ | hn
      · rw [Node.group_closeWith]
        exact (ihl m hm).mono (List.subset_append_left _ _)
      · exact (ihr n hn).mono (List.subset_append_right _ _)
  | framed _ ih =>
      intro n hn
      exact (ih n hn).through
  | enclosed _ ih =>
      intro n hn
      rcases Fragment.mem_nodes_enclosed.mp hn with rfl | ⟨m, hm, rfl⟩ | rfl
      · exact .stay none
      · rw [Node.group_closeWith]
        exact (ih m hm).through
      · exact .stay none
  | unsupported => simp

/-- From the parent of every group of a fragment the way outward leads to the group that the
fragment is drawn in. -/
theorem outward_parent (h : s.Draws e frontier group ids f) :
    ∀ g ∈ f.groups, Outward f.groups g.parent group := by
  induction h with
  | condition => simp [Setting.conditionFragment]
  | either parenthesized _ _ ihl ihr =>
      intro g hg
      rcases List.mem_append.mp hg with hg | hg
      · exact (ihl g hg).mono (List.subset_append_left _ _)
      · exact (ihr g hg).mono (List.subset_append_right _ _)
  | andThen parenthesized _ _ ihl ihr =>
      intro g hg
      rcases List.mem_append.mp hg with hg | hg
      · exact (ihl g hg).mono (List.subset_append_left _ _)
      · exact (ihr g hg).mono (List.subset_append_right _ _)
  | framed _ ih =>
      intro g hg
      rcases List.mem_cons.mp hg with rfl | hg
      · exact .stay _
      · exact (ih g hg).through
  | enclosed _ ih =>
      intro g hg
      rcases List.mem_cons.mp hg with rfl | hg
      · exact .stay none
      · exact (ih g hg).through
  | unsupported => simp

/-- Every group without parent has an entry. -/
theorem exists_entry (h : s.Draws e frontier group ids f) (hgroup : group = none) :
    ∀ g ∈ f.groups, g.parent = none →
      ∃ n ∈ f.nodes, n.kind = .groupInput ∧
        ∃ source : IdSource, n.id = source.boundaryInput g.id := by
  induction h with
  | condition => simp [Setting.conditionFragment]
  | either parenthesized _ _ ihl ihr =>
      intro g hg hparent
      rcases List.mem_append.mp hg with hg | hg
      · obtain ⟨n, hn, hentry⟩ := ihl hgroup g hg hparent
        exact ⟨n, List.mem_append_left _ hn, hentry⟩
      · obtain ⟨n, hn, hentry⟩ := ihr hgroup g hg hparent
        exact ⟨n, List.mem_append_right _ hn, hentry⟩
  | andThen parenthesized _ _ ihl ihr =>
      intro g hg hparent
      rcases List.mem_append.mp hg with hg | hg
      · obtain ⟨n, hn, hentry⟩ := ihl hgroup g hg hparent
        refine ⟨_, Fragment.mem_nodes_andThen.mpr (.inl ⟨n, hn, rfl⟩), ?_⟩
        rwa [Node.kind_closeWith, Node.id_closeWith]
      · obtain ⟨n, hn, hentry⟩ := ihr hgroup g hg hparent
        exact ⟨n, List.mem_append_right _ hn, hentry⟩
  | framed _ _ => cases hgroup
  | enclosed h _ =>
      intro g hg hparent
      rcases List.mem_cons.mp hg with rfl | hg
      · exact ⟨_, List.mem_cons_self, rfl, _, rfl⟩
      · have hway := h.outward_parent g hg
        rw [hparent] at hway
        exact absurd hway.eq_none_of_none (by simp)
  | unsupported => simp

end Setting.Draws

end ConditionChart
