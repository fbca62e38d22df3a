import ConditionChart.Chart.Ids
import ConditionChart.Proofs.Wiring
import Mathlib.Data.List.Nodup

/-!
# Paths to the end

All paths from a node to the end are listed depth first, in the order of each node's targets. In a
graph whose names are distinct and whose wiring goes onward, no path is longer than the list of
nodes. There the list holds every path to the end and no path twice.
-/

namespace ConditionChart

namespace Onward

theorem of_append {first last : List Node} (h : Onward (first ++ last)) : Onward last := by
  induction first with
  | nil => exact h
  | cons n rest ih => exact ih h.2

/-- All targets of a node stand in the list. -/
theorem next_subset {nodes : List Node} (h : Onward nodes) :
    ∀ n ∈ nodes, n.next ⊆ nodes.map Node.id := by
  intro n hn
  obtain ⟨before, after, rfl⟩ := List.append_of_mem hn
  rw [List.map_append, List.map_cons]
  intro target ht
  exact List.mem_append_right _ (List.mem_cons_of_mem _ (h.of_append.1.subset ht))

theorem next_nodup {nodes : List Node} (h : Onward nodes) (hnodup : (nodes.map Node.id).Nodup) :
    ∀ n ∈ nodes, n.next.Nodup := by
  induction nodes with
  | nil => simp
  | cons m rest ih =>
      rw [List.map_cons, List.nodup_cons] at hnodup
      intro n hn
      rcases List.mem_cons.mp hn with rfl | hn
      · exact hnodup.2.sublist h.1
      · exact ih h.2 hnodup.2 n hn

end Onward

namespace Graph

variable {g : Graph} {id : String} {path : List Node}

/-- The paths from a node to the end that have at most `depth` nodes, depth first in the order of
targets. -/
def pathsToEnd (g : Graph) : Nat → String → List (List Node)
  | 0, _ => []
  | depth + 1, id =>
      match g.node? id with
      | none => []
      | some n =>
          if id = endId then [[n]] else (n.next.flatMap (g.pathsToEnd depth)).map (n :: ·)

/-- The paths from the start to the end, depth first. No path of a graph that goes onward has more
nodes than the graph. -/
def paths (g : Graph) : List (List Node) := g.pathsToEnd g.nodes.length startId

/-- `g.IsPath id path`: the nodes of `path` lead one to the next, from the node of the id to the
end. -/
inductive IsPath (g : Graph) : String → List Node → Prop
  | arrive {n : Node} (hn : g.node? endId = some n) : IsPath g endId [n]
  | step {id next : String} {n : Node} {path : List Node} (hid : id ≠ endId)
      (hn : g.node? id = some n) (hnext : next ∈ n.next) (rest : IsPath g next path) :
      IsPath g id (n :: path)

theorem id_of_node? {n : Node} (h : g.node? id = some n) : n.id = id := by
  simpa using List.find?_some h

theorem mem_of_node? {n : Node} (h : g.node? id = some n) : n ∈ g.nodes :=
  List.mem_of_find?_eq_some h

/-- The id of a node leads back to the node where no two nodes share an id. -/
theorem node?_of_mem (hg : (g.nodes.map Node.id).Nodup) {n : Node}
    (hn : n ∈ g.nodes) : g.node? n.id = some n := by
  obtain ⟨before, after, hsplit⟩ := List.append_of_mem hn
  have hbefore : ∀ m ∈ before, m.id ≠ n.id := by
    intro m hm heq
    rw [hsplit, List.map_append, List.map_cons] at hg
    exact (List.nodup_append.mp hg).2.2 m.id (List.mem_map_of_mem hm) n.id List.mem_cons_self heq
  have hnone : before.find? (·.id == n.id) = none := by
    simpa [List.find?_eq_none] using hbefore
  simp [node?, hsplit, List.find?_append, hnone]

theorem IsPath.head_id (h : g.IsPath id path) : path.head?.map Node.id = some id := by
  cases h with
  | arrive hn => simp [id_of_node? hn]
  | step _ hn _ _ => simp [id_of_node? hn]

theorem IsPath.mem_ids (h : g.IsPath id path) : id ∈ g.nodes.map Node.id := by
  cases h with
  | arrive hn => exact List.mem_map.mpr ⟨_, mem_of_node? hn, id_of_node? hn⟩
  | step _ hn _ _ => exact List.mem_map.mpr ⟨_, mem_of_node? hn, id_of_node? hn⟩

/-- The list holds just the paths that are short enough. -/
theorem mem_pathsToEnd_iff {depth : Nat} :
    path ∈ g.pathsToEnd depth id ↔ g.IsPath id path ∧ path.length ≤ depth := by
  induction depth generalizing id path with
  | zero =>
      constructor
      · simp [pathsToEnd]
      · rintro ⟨h, hlength⟩
        cases h <;> simp at hlength
  | succ depth ih =>
      simp only [pathsToEnd]
      constructor
      · intro h
        split at h
        · simp at h
        · next n hn =>
            split at h
            · next hid =>
                subst hid
                rw [List.mem_singleton.mp h]
                exact ⟨.arrive hn, by simp⟩
            · next hid =>
                obtain ⟨rest, hrest, rfl⟩ := List.mem_map.mp h
                obtain ⟨next, hnext, hrest⟩ := List.mem_flatMap.mp hrest
                obtain ⟨hrest, hlength⟩ := ih.mp hrest
                exact ⟨.step hid hn hnext hrest, by simpa using hlength⟩
      · rintro ⟨h, hlength⟩
        cases h with
        | arrive hn => simp [hn]
        | @step _ next n rest hid hn hnext hrest =>
            simp only [hn, if_neg hid]
            refine List.mem_map_of_mem (List.mem_flatMap.mpr ⟨next, hnext, ih.mpr ⟨hrest, ?_⟩⟩)
            simpa using hlength

/-- No path is listed twice where no node leads twice to the same node. -/
theorem nodup_pathsToEnd (hnext : ∀ n ∈ g.nodes, n.next.Nodup) (depth : Nat) (id : String) :
    (g.pathsToEnd depth id).Nodup := by
  induction depth generalizing id with
  | zero => exact List.nodup_nil
  | succ depth ih =>
      simp only [pathsToEnd]
      split
      · exact List.nodup_nil
      · next n hn =>
          split
          · exact List.nodup_singleton _
          · refine List.Nodup.map (List.cons_injective) ?_
            rw [List.nodup_flatMap]
            refine ⟨fun next _ => ih next, (hnext n (mem_of_node? hn)).imp ?_⟩
            intro a b hab
            rw [Function.onFun_apply, List.disjoint_left]
            intro path ha hb
            have hida := (mem_pathsToEnd_iff.mp ha).1.head_id
            have hidb := (mem_pathsToEnd_iff.mp hb).1.head_id
            exact hab (Option.some.inj (hida.symm.trans hidb))

section OnwardGraph

variable (hnodup : (g.nodes.map Node.id).Nodup) (honward : Onward g.nodes)
include hnodup honward

/-- A node that is looked up in the last part of the list stands there, before all its targets. -/
theorem exists_split_of_node? {n : Node} {first last : List Node} (hn : g.node? id = some n)
    (hsplit : g.nodes = first ++ last) (hid : id ∈ last.map Node.id) :
    ∃ before after, last = before ++ n :: after ∧ n.next ⊆ after.map Node.id := by
  obtain ⟨m, hm, rfl⟩ := List.mem_map.mp hid
  have hmem : m ∈ g.nodes := hsplit ▸ List.mem_append_right first hm
  obtain rfl : m = n := Option.some.inj ((node?_of_mem hnodup hmem).symm.trans hn)
  obtain ⟨before, after, rfl⟩ := List.append_of_mem hm
  rw [hsplit, ← List.append_assoc] at honward
  exact ⟨before, after, rfl, honward.of_append.1.subset⟩

/-- A path from a node has no more nodes than there are from that node on. -/
theorem IsPath.length_le (h : g.IsPath id path) (first : List Node) {last : List Node}
    (hsplit : g.nodes = first ++ last) (hid : id ∈ last.map Node.id) :
    path.length ≤ last.length := by
  induction h generalizing first last with
  | arrive _ =>
      obtain ⟨m, hm, _⟩ := List.mem_map.mp hid
      exact List.length_pos_of_mem hm
  | @step id next n path _ hn hnext _ ih =>
      obtain ⟨before, after, rfl, htargets⟩ :=
        exists_split_of_node? hnodup honward hn hsplit hid
      have hrest : path.length ≤ after.length :=
        ih (first ++ before ++ [n]) (by simp [hsplit]) (htargets hnext)
      simp only [List.length_cons, List.length_append]
      omega

/-- Looking deeper than the list of nodes is long finds nothing more. -/
theorem pathsToEnd_eq_of_le {depth depth' : Nat} (first : List Node) {last : List Node}
    (hsplit : g.nodes = first ++ last) (hid : id ∈ last.map Node.id)
    (hdepth : last.length ≤ depth) (hdepth' : last.length ≤ depth') :
    g.pathsToEnd depth id = g.pathsToEnd depth' id := by
  induction depth generalizing depth' id first last with
  | zero =>
      rw [List.length_eq_zero_iff.mp (Nat.le_zero.mp hdepth)] at hid
      exact absurd hid List.not_mem_nil
  | succ depth ih =>
      cases depth' with
      | zero =>
          rw [List.length_eq_zero_iff.mp (Nat.le_zero.mp hdepth')] at hid
          exact absurd hid List.not_mem_nil
      | succ depth' =>
          simp only [pathsToEnd]
          split
          · rfl
          · next n hn =>
              obtain ⟨before, after, rfl, htargets⟩ :=
                exists_split_of_node? hnodup honward hn hsplit hid
              simp only [List.length_append, List.length_cons] at hdepth hdepth'
              have hsame : ∀ t ∈ n.next, g.pathsToEnd depth t = g.pathsToEnd depth' t :=
                fun t ht => ih (first ++ before ++ [n]) (by simp [hsplit]) (htargets ht)
                  (by omega) (by omega)
              rw [List.flatMap_congr hsame]

/-- The paths from a node are those from its targets, one target after the other. -/
theorem pathsToEnd_step {n : Node} (hn : n ∈ g.nodes) (hend : n.id ≠ endId) :
    g.pathsToEnd g.nodes.length n.id =
      (n.next.flatMap (g.pathsToEnd g.nodes.length)).map (n :: ·) := by
  obtain ⟨first, last, hsplit⟩ := List.append_of_mem hn
  have hlength : g.nodes.length = first.length + last.length + 1 := by simp [hsplit]; omega
  have htargets : n.next ⊆ last.map Node.id := by
    rw [hsplit] at honward
    exact honward.of_append.1.subset
  have hsame : ∀ t ∈ n.next, g.pathsToEnd (first.length + last.length) t =
      g.pathsToEnd (first.length + last.length + 1) t :=
    fun t ht => pathsToEnd_eq_of_le hnodup honward (first ++ [n]) (by simp [hsplit])
      (htargets ht) (by omega) (by omega)
  rw [hlength, pathsToEnd, node?_of_mem hnodup hn]
  simp only [if_neg hend]
  rw [List.flatMap_congr hsame]

omit honward in
/-- From the end itself there is nothing to follow. -/
theorem pathsToEnd_end {n : Node} (hn : n ∈ g.nodes) (hend : n.id = endId) :
    g.pathsToEnd g.nodes.length endId = [[n]] := by
  obtain ⟨depth, hdepth⟩ : ∃ depth, g.nodes.length = depth + 1 :=
    Nat.exists_eq_succ_of_ne_zero (List.length_pos_of_mem hn).ne'
  have hlook : g.node? endId = some n := hend ▸ node?_of_mem hnodup hn
  rw [hdepth, pathsToEnd, hlook]
  simp

/-- The paths of the graph are all paths from its start to its end. -/
theorem mem_paths_iff : path ∈ g.paths ↔ g.IsPath startId path := by
  rw [paths, mem_pathsToEnd_iff, and_iff_left_iff_imp]
  intro h
  exact h.length_le hnodup honward [] rfl h.mem_ids

theorem nodup_paths : g.paths.Nodup :=
  nodup_pathsToEnd (honward.next_nodup hnodup) _ _

end OnwardGraph

end Graph

end ConditionChart
