import ConditionChart.Chart.InPlace
import ConditionChart.Proofs.Adjacency

/-!
# Appending fragments

What a draft looks like after a fragment was appended to it, by positions. Fragments that are
appended one after the other are appended as one, whether the later one is reached from the frontier
of the earlier one or from its open ends. To give the stretch of an appended fragment another colour
is to append it in that colour.
-/

namespace ConditionChart

namespace Node

/-- The node at a position, led on to further targets if the position is one of the given ones. -/
def ledOn (positions : List Nat) (targets : List String) (i : Nat) (n : Node) : Node :=
  if i ∈ positions then { n with next := n.next ++ targets } else n

variable {positions : List Nat} {targets more : List String} {i : Nat} {n : Node}

theorem ledOn_of_mem (h : i ∈ positions) :
    n.ledOn positions targets i = { n with next := n.next ++ targets } :=
  if_pos h

theorem ledOn_of_not_mem (h : i ∉ positions) : n.ledOn positions targets i = n :=
  if_neg h

@[simp] theorem origin_ledOn : (n.ledOn positions targets i).origin = n.origin := by
  unfold ledOn
  split <;> rfl

theorem ledOn_nil : n.ledOn positions [] i = n := by
  unfold ledOn
  split
  · rw [List.append_nil]
  · rfl

theorem ledOn_ledOn :
    (n.ledOn positions targets i).ledOn positions more i =
      n.ledOn positions (targets ++ more) i := by
  by_cases h : i ∈ positions
  · simp only [ledOn_of_mem h, List.append_assoc]
  · simp only [ledOn_of_not_mem h]

theorem ledOn_eq (positions : List Nat) (targets : List String) (i : Nat) (n : Node) :
    n.ledOn positions targets i =
      { n with next := n.next ++ if i ∈ positions then targets else [] } := by
  by_cases h : i ∈ positions
  · rw [ledOn_of_mem h, if_pos h]
  · rw [ledOn_of_not_mem h, if_neg h, List.append_nil]

/-- Nodes at none of the positions stay as they are. -/
theorem mapIdx_ledOn_of_not_mem {nodes : List Node} {k : Nat}
    (h : ∀ i < nodes.length, i + k ∉ positions) :
    nodes.mapIdx (fun i n => n.ledOn positions targets (i + k)) = nodes := by
  apply List.ext_getElem
  · exact List.length_mapIdx
  · intro i _ hi
    rw [List.getElem_mapIdx, ledOn_of_not_mem (h i hi)]

end Node

namespace Stretch

theorem mem_positions {p : Stretch} {i : Nat} : i ∈ p.positions ↔ p.first ≤ i ∧ i < p.last := by
  rw [positions, List.mem_range'_1]
  omega

theorem nodup_positions (p : Stretch) : p.positions.Nodup :=
  List.nodup_range' 1

/-- To change what stands in a last stretch of a list is to change its last part. -/
theorem mapIdx_holds {α : Type} (earlier later : List α) (paint : α → α) :
    (earlier ++ later).mapIdx (fun i x =>
        if (Stretch.mk earlier.length (earlier ++ later).length).holds i then paint x else x) =
      earlier ++ later.map paint := by
  rw [List.mapIdx_append]
  congr 1
  · apply List.ext_getElem
    · exact List.length_mapIdx
    · intro i _ hi
      rw [List.getElem_mapIdx, if_neg]
      simp [holds, hi.not_ge]
  · apply List.ext_getElem
    · rw [List.length_mapIdx, List.length_map]
    · intro i hi _
      rw [List.length_mapIdx] at hi
      rw [List.getElem_mapIdx, List.getElem_map, if_pos]
      simp [holds, Nat.add_comm i, hi]

end Stretch

attribute [ext] Draft

namespace Draft

variable {d : Draft} {frontier behind : List Nat} {targets : List String} {f l r : Fragment}
  {n : Node} {i : Nat}

section Extend

theorem extend_eq (d : Draft) (frontier : List Nat) (targets : List String) :
    d.extend frontier targets = d.nodes.mapIdx fun i n => n.ledOn frontier targets i :=
  rfl

@[simp] theorem length_extend (d : Draft) (frontier : List Nat) (targets : List String) :
    (d.extend frontier targets).length = d.nodes.length :=
  List.length_mapIdx

@[simp] theorem extend_nil (d : Draft) (frontier : List Nat) : d.extend frontier [] = d.nodes := by
  apply List.ext_getElem
  · exact length_extend ..
  · intro i _ _
    simp only [extend_eq, List.getElem_mapIdx, Node.ledOn_nil]

theorem length_append (d : Draft) (frontier : List Nat) (f : Fragment) :
    (d.append frontier f).nodes.length = d.nodes.length + f.nodes.length := by
  rw [append, List.length_append, length_extend]

/-- An earlier node after a fragment was appended. -/
theorem getElem?_append_left (hi : i < d.nodes.length) :
    (d.append frontier f).nodes[i]? = d.nodes[i]?.map fun n => n.ledOn frontier f.entries i := by
  rw [append, List.getElem?_append_left (by rwa [length_extend]), extend_eq, List.getElem?_mapIdx]

/-- A node of a fragment after the fragment was appended. -/
theorem getElem?_append_right (d : Draft) (frontier : List Nat) (f : Fragment) (i : Nat) :
    (d.append frontier f).nodes[d.nodes.length + i]? = f.nodes[i]? := by
  rw [append, List.getElem?_append_right (by rw [length_extend]; omega), length_extend,
    Nat.add_sub_cancel_left]

/-- The nodes at earlier positions are the same origins after a fragment was appended. -/
theorem origins_append (hrange : ∀ i ∈ behind, i < d.nodes.length) :
    (d.append frontier f).origins behind = d.origins behind := by
  apply List.filterMap_congr
  intro i hi
  rw [getElem?_append_left (hrange i hi), Option.map_map]
  congr 1
  exact funext fun n => Node.origin_ledOn

theorem any_liveAt (d : Draft) (frontier : List Nat) :
    frontier.any d.liveAt = frontierLive (d.origins frontier) := by
  rw [frontierLive, origins, List.any_filterMap]
  apply List.any_congr rfl
  intro i
  rw [liveAt]
  cases d.nodes[i]? with
  | none => rfl
  | some n => rfl

end Extend

section Append

/-- Two fragments that are reached from one frontier are appended as one. -/
theorem append_either (hrange : ∀ i ∈ frontier, i < d.nodes.length) (parenthesized : Bool) :
    (d.append frontier l).append frontier r = d.append frontier (l.either r parenthesized) := by
  have hnew : ∀ i < l.nodes.length, i + d.nodes.length ∉ frontier := by
    intro i _ hmem
    have := hrange _ hmem
    omega
  have hold : d.nodes.mapIdx (fun i n => (n.ledOn frontier l.entries i).ledOn frontier r.entries i) =
      d.extend frontier (l.entries ++ r.entries) := by
    simp only [Node.ledOn_ledOn, extend_eq]
  apply Draft.ext
  · simp only [append, Fragment.either, extend_eq, List.mapIdx_append, List.mapIdx_mapIdx,
      List.length_mapIdx, Function.comp_def, Node.mapIdx_ledOn_of_not_mem hnew, List.append_assoc]
    rw [hold, extend_eq]
  · exact List.append_assoc ..
  · exact List.append_assoc ..
  · rfl

theorem mem_openIn {p : Stretch} :
    i ∈ d.openIn p ↔ (p.first ≤ i ∧ i < p.last) ∧ d.openAt i = true := by
  rw [openIn, List.mem_filter, Stretch.mem_positions]

theorem nodup_openIn (d : Draft) (p : Stretch) : (d.openIn p).Nodup :=
  p.nodup_positions.filter _

/-- The positions of the open nodes of a fragment that was appended. -/
def opened (d : Draft) (frontier : List Nat) (f : Fragment) : List Nat :=
  (d.append frontier f).openIn ⟨d.nodes.length, (d.append frontier f).nodes.length⟩

theorem mem_opened :
    i ∈ d.opened frontier f ↔
      d.nodes.length ≤ i ∧ f.nodes[i - d.nodes.length]?.any Node.isOpen = true := by
  rw [opened, mem_openIn, openAt, and_assoc]
  apply and_congr_right
  intro hle
  obtain ⟨k, rfl⟩ := Nat.exists_eq_add_of_le hle
  rw [getElem?_append_right, length_append, Nat.add_sub_cancel_left, and_iff_right_iff_imp]
  intro hopen
  by_contra hk
  rw [List.getElem?_eq_none (by simpa using hk)] at hopen
  cases hopen

theorem lt_of_mem_opened (h : i ∈ d.opened frontier f) : i < (d.append frontier f).nodes.length :=
  (mem_openIn.mp h).1.2

theorem nodup_opened (d : Draft) (frontier : List Nat) (f : Fragment) :
    (d.opened frontier f).Nodup :=
  nodup_openIn _ _

/-- The open nodes among the last ones of a list, as places to go on from. -/
theorem filterMap_origin_positions (earlier nodes : List Node) :
    ((List.range' earlier.length nodes.length).filter
        fun i => (earlier ++ nodes)[i]?.any Node.isOpen).filterMap
      (fun i => (earlier ++ nodes)[i]?.map Node.origin) =
        (nodes.filter Node.isOpen).map Node.origin := by
  -- Each step hands the first of the last nodes over to the earlier ones.
  induction nodes generalizing earlier with
  | nil => rfl
  | cons n rest ih =>
      have hrest := ih (earlier ++ [n])
      rw [List.length_append, List.append_assoc] at hrest
      have hfirst : (earlier ++ n :: rest)[earlier.length]? = some n := by simp
      rw [List.length_cons, List.range'_succ, List.filter_cons, List.filter_cons, hfirst,
        Option.any_some]
      cases n.isOpen with
      | false => exact hrest
      | true =>
          rw [if_pos rfl, if_pos rfl, List.map_cons, ← hrest]
          exact List.filterMap_cons_some (by rw [hfirst, Option.map_some])

/-- The open nodes of an appended fragment are its open ends. -/
theorem origins_opened (d : Draft) (frontier : List Nat) (f : Fragment) :
    (d.append frontier f).origins (d.opened frontier f) = f.openEnds := by
  have h := filterMap_origin_positions (d.extend frontier f.entries) f.nodes
  rw [length_extend] at h
  rw [opened, openIn, Stretch.positions, length_append, Nat.add_sub_cancel_left]
  exact h

/-- A fragment that is reached from the open ends of another one is appended together with it. -/
theorem append_andThen (d : Draft) (frontier : List Nat) (l r : Fragment) (parenthesized : Bool) :
    (d.append frontier l).append (d.opened frontier l) r =
      d.append frontier (l.andThen r parenthesized) := by
  have hold : (d.extend frontier l.entries).mapIdx
      (fun i n => n.ledOn (d.opened frontier l) r.entries i) = d.extend frontier l.entries := by
    apply Node.mapIdx_ledOn_of_not_mem (k := 0)
    intro i hi hmem
    rw [length_extend] at hi
    exact absurd hi (mem_opened.mp hmem).1.not_gt
  have hnew : l.nodes.mapIdx
      (fun i n => n.ledOn (d.opened frontier l) r.entries (i + d.nodes.length)) =
      l.nodes.map (Node.closeWith r.entries) := by
    apply List.ext_getElem
    · rw [List.length_mapIdx, List.length_map]
    · intro i hi _
      rw [List.length_mapIdx] at hi
      have hmem : i + d.nodes.length ∈ d.opened frontier l ↔ l.nodes[i].isOpen = true := by
        rw [mem_opened, Nat.add_sub_cancel, List.getElem?_eq_getElem hi, Option.any_some]
        exact and_iff_right (Nat.le_add_left _ _)
      rw [List.getElem_mapIdx, List.getElem_map, Node.ledOn, Node.closeWith, if_congr hmem rfl rfl]
      split
      · next hopen => rw [List.isEmpty_iff.mp hopen, List.nil_append]
      · rfl
  apply Draft.ext
  · calc ((d.append frontier l).append (d.opened frontier l) r).nodes
        = (d.extend frontier l.entries ++ l.nodes).mapIdx
            (fun i n => n.ledOn (d.opened frontier l) r.entries i) ++ r.nodes := rfl
      _ = d.extend frontier l.entries ++ l.nodes.map (Node.closeWith r.entries) ++ r.nodes := by
          rw [List.mapIdx_append, length_extend, hnew, hold]
      _ = (d.append frontier (l.andThen r parenthesized)).nodes := List.append_assoc ..
  · exact List.append_assoc ..
  · exact List.append_assoc ..
  · rfl

/-- Giving an appended fragment another liveness is appending it in that liveness. -/
theorem recolour_append (d : Draft) (frontier : List Nat) (f : Fragment) (live : Bool) :
    (d.append frontier f).recolour ⟨d.nodes.length, (d.append frontier f).nodes.length⟩
        ⟨d.edges.length, (d.append frontier f).edges.length⟩ live =
      d.append frontier (f.recolour live) := by
  have hnodes : (d.extend frontier f.entries).length = d.nodes.length := length_extend ..
  apply Draft.ext
  · exact hnodes ▸ Stretch.mapIdx_holds (d.extend frontier f.entries) f.nodes _
  · exact Stretch.mapIdx_holds d.edges f.edges _
  · rfl
  · rfl

end Append

end Draft

end ConditionChart
