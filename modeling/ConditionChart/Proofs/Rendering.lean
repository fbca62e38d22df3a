import ConditionChart.Drawing
import ConditionChart.Proofs.DocumentText
import ConditionChart.Proofs.Finish

/-!
# What a drawing keeps

The text of a drawn chart keeps the whole chart. Colours tell the truth of conditions and which edges
continue, as long as the palette has two of each. The way a node is drawn does not tell a start from
an end nor an entry from an exit, but the ids that are given to them do.
-/

namespace ConditionChart

open Json (Document Shown)
open Json.Document

/-! ### Ids tell kinds -/

/-- Ids that nodes of a kind are given. A condition may have any. -/
def NodeKind.Names : NodeKind → String → Prop
  | start, id => id = startId
  | finish, id => id = endId
  | condition _, _ => True
  | groupInput, id => ∃ (ids : IdSource) (groupId : String), id = ids.boundaryInput groupId
  | groupOutput, id => ∃ (ids : IdSource) (groupId : String), id = ids.boundaryOutput groupId

/-- No id is that of an entry and of an exit. -/
theorem IdSource.boundaryInput_ne_boundaryOutput (a b : IdSource) (groupId groupId' : String) :
    a.boundaryInput groupId ≠ b.boundaryOutput groupId' := by
  intro h
  have hstem := (stamp_inj h).2
  simp [← String.toList_inj] at hstem

namespace NodeKind

theorem isSentinel_iff {kind : NodeKind} :
    kind.isSentinel = true ↔ kind = start ∨ kind = finish := by
  cases kind <;> simp [isSentinel]

theorem isBoundary_iff {kind : NodeKind} :
    kind.isBoundary = true ↔ kind = groupInput ∨ kind = groupOutput := by
  cases kind <;> simp [isBoundary]

variable {kind kind' : NodeKind} {id : String} (h : kind.Names id) (h' : kind'.Names id)
include h h'

/-- The id tells the start from the end. -/
theorem Names.eq_of_isSentinel (hkind : kind.isSentinel = true) (hkind' : kind'.isSentinel = true) :
    kind = kind' := by
  have hne : startId ≠ endId := by decide
  rcases isSentinel_iff.mp hkind with rfl | rfl <;> rcases isSentinel_iff.mp hkind' with rfl | rfl
  · rfl
  · exact absurd (h.symm.trans h') hne
  · exact absurd (h'.symm.trans h) hne
  · rfl

/-- The id tells an entry from an exit. -/
theorem Names.eq_of_isBoundary (hkind : kind.isBoundary = true) (hkind' : kind'.isBoundary = true) :
    kind = kind' := by
  rcases isBoundary_iff.mp hkind with rfl | rfl <;> rcases isBoundary_iff.mp hkind' with rfl | rfl
  · rfl
  · obtain ⟨a, groupId, hinput⟩ := h
    obtain ⟨b, groupId', houtput⟩ := h'
    exact absurd (hinput.symm.trans houtput) (a.boundaryInput_ne_boundaryOutput b _ _)
  · obtain ⟨a, groupId, houtput⟩ := h
    obtain ⟨b, groupId', hinput⟩ := h'
    exact absurd (hinput.symm.trans houtput) (b.boundaryInput_ne_boundaryOutput a _ _)
  · rfl

end NodeKind

namespace Setting

variable {s : Setting} {frontier : List Origin} {group : Option String} {ids : IdSource}
  {f : Fragment}

/-- In every fragment the ids of nodes tell their kinds. -/
theorem Draws.names {e : Expr} (h : s.Draws e frontier group ids f) :
    ∀ n ∈ f.nodes, n.kind.Names n.id := by
  induction h with
  | condition seq frontier group ids =>
      intro n hn
      rw [List.mem_singleton.mp hn]
      trivial
  | either parenthesized _ _ ihl ihr => exact List.forall_mem_append.mpr ⟨ihl, ihr⟩
  | andThen parenthesized _ _ ihl ihr =>
      intro n hn
      rcases Fragment.mem_nodes_andThen.mp hn with ⟨m, hm, rfl⟩ | hn
      · rw [Node.kind_closeWith, Node.id_closeWith]
        exact ihl m hm
      · exact ihr n hn
  | framed _ ih => exact ih
  | enclosed _ ih =>
      intro n hn
      rcases Fragment.mem_nodes_enclosed.mp hn with rfl | ⟨m, hm, rfl⟩ | rfl
      · exact ⟨_, _, rfl⟩
      · rw [Node.kind_closeWith, Node.id_closeWith]
        exact ih m hm
      · exact ⟨_, _, rfl⟩
  | unsupported => simp

/-- In every chart the ids of nodes tell their kinds. -/
theorem names_lower (s : Setting) (e : Option Expr) :
    ∀ n ∈ (s.lower e).chart.graph.nodes, n.kind.Names n.id := by
  cases e with
  | none => simp [lower]
  | some e =>
      intro n hn
      rw [lower, s.nodes_lowerExpr, List.mem_cons, List.mem_append, List.mem_map,
        List.mem_singleton] at hn
      rcases hn with rfl | ⟨m, hm, rfl⟩ | rfl
      · exact rfl
      · rw [Node.kind_closeWith, Node.id_closeWith]
        exact (s.draws_whole e).names m hm
      · exact rfl

end Setting

/-! ### Parts of a drawing -/

namespace Palette

variable {p : Palette}

theorem edgeColour_injective (h : p.continueEdge ≠ p.breakEdge) : p.edgeColour.Injective := by
  intro b b' heq
  cases b <;> cases b' <;> simp_all [edgeColour, eq_comm]

theorem labelColour_injective (h : p.trueLabel ≠ p.falseLabel) : p.labelColour.Injective := by
  intro b b' heq
  cases b <;> cases b' <;> simp_all [labelColour, eq_comm]

end Palette

namespace Node

variable {p : Palette} {n n' : Node}

theorem metaDocument_inj (h : n.metaDocument.shown = n'.metaDocument.shown) :
    n.next = n'.next ∧ n.live = n'.live ∧ n.seq = n'.seq := by
  rw [metaDocument, metaDocument, shown_object_inj, List.map_append, List.map_append] at h
  simp only [List.map_cons, List.map_nil, List.cons_append, List.nil_append, List.cons.injEq,
    shownMember_inj, shown_list_inj, shown_string_inj, true_and] at h
  obtain ⟨hnext, hchain, hseq⟩ := h
  refine ⟨eq_of_map_shown_eq (by simp) hnext, ?_, ?_⟩
  · cases hlive : n.live <;> cases hlive' : n'.live <;> simp_all
  · exact optional_inj (by simp [UInt32.toNat_inj]) hseq

/-- With the id, the way a node is drawn tells its kind. -/
theorem kind_eq (hlabel : p.trueLabel ≠ p.falseLabel) (hid : n.id = n'.id)
    (hn : n.kind.Names n.id) (hn' : n'.kind.Names n'.id)
    (h : (n.styleMembers p).map shownMember = (n'.styleMembers p).map shownMember) :
    n.kind = n'.kind := by
  rw [← hid] at hn'
  rw [styleMembers, styleMembers] at h
  cases hkind : n.kind with
  | condition truth =>
      cases hkind' : n'.kind with
      | condition truth' =>
          simp only [hkind, hkind', List.map_cons, List.map_nil, List.cons.injEq, shownMember_inj,
            shown_object_inj, shown_string_inj, true_and, and_true] at h
          rw [p.labelColour_injective hlabel h]
      | _ => simp [hkind, hkind', shownMember] at h
  | start | finish =>
      rw [hkind] at hn h
      cases hkind' : n'.kind with
      | start | finish => exact hn.eq_of_isSentinel (hkind' ▸ hn') rfl rfl
      | _ => simp [hkind', shownMember] at h
  | groupInput | groupOutput =>
      rw [hkind] at hn h
      cases hkind' : n'.kind with
      | groupInput | groupOutput => exact hn.eq_of_isBoundary (hkind' ▸ hn') rfl rfl
      | _ => simp [hkind', shownMember] at h

/-- What says how a node is drawn names no group. -/
theorem comboId_not_mem (p : Palette) (n : Node) (d : Document) :
    "comboId" ∉ ((n.styleMembers p).map shownMember ++ [shownMember ("meta", d)]).map Prod.fst := by
  rw [styleMembers]
  split <;> simp [shownMember]

/-- A drawn node keeps the node. -/
theorem document_inj (hlabel : p.trueLabel ≠ p.falseLabel) (hn : n.kind.Names n.id)
    (hn' : n'.kind.Names n'.id) (h : (n.document p).shown = (n'.document p).shown) : n = n' := by
  simp only [document, shown_object_inj, List.map_append, List.map_cons, List.map_nil,
    List.append_assoc, List.cons_append, List.nil_append, List.cons.injEq, shownMember_inj,
    shown_string_inj, true_and] at h
  obtain ⟨hid, htext, hmore⟩ := h
  obtain ⟨hgroup, hmore⟩ :=
    optional_append_inj (by simp) (n.comboId_not_mem p _) (n'.comboId_not_mem p _) hmore
  obtain ⟨hstyle, hmeta⟩ := List.append_inj' hmore rfl
  have hkind := kind_eq hlabel hid hn hn' hstyle
  obtain ⟨hnext, hlive, hseq⟩ := metaDocument_inj (by simpa using hmeta)
  cases n
  cases n'
  simp_all

end Node

/-- A drawn edge keeps the edge. -/
theorem Edge.document_inj {p : Palette} (hedge : p.continueEdge ≠ p.breakEdge) {x x' : Edge}
    (h : (x.document p).shown = (x'.document p).shown) : x = x' := by
  simp only [document, shown_object_inj, List.map_cons, List.cons.injEq, shownMember_inj,
    shown_string_inj, true_and] at h
  obtain ⟨hsource, htarget, ⟨hcolour, -⟩, -⟩ := h
  have hcontinues := p.edgeColour_injective hedge hcolour
  cases x
  cases x'
  simp_all

/-- A drawn group keeps the group. -/
theorem Group.document_inj {p : Palette} {g g' : Group}
    (h : (g.document p).shown = (g'.document p).shown) : g = g' := by
  simp only [document, shown_object_inj, List.map_append, List.map_cons, List.map_nil,
    List.cons_append, List.nil_append, List.cons.injEq, shownMember_inj, shown_string_inj,
    true_and, List.append_cancel_right_eq] at h
  obtain ⟨hid, hparent⟩ := h
  have hsame := optional_inj (by simp) hparent
  cases g
  cases g'
  simp_all

/-- A drawn chart keeps the chart, where the ids of its nodes tell their kinds. -/
theorem Chart.eq_of_shown_eq {p : Palette} (hlabel : p.trueLabel ≠ p.falseLabel)
    (hedge : p.continueEdge ≠ p.breakEdge) {c c' : Chart}
    (hc : ∀ n ∈ c.graph.nodes, n.kind.Names n.id) (hc' : ∀ n ∈ c'.graph.nodes, n.kind.Names n.id)
    (h : (c.document p).shown = (c'.document p).shown) : c = c' := by
  simp only [document, shown_object_inj, List.map_cons, List.cons.injEq, shownMember_inj,
    shown_list_inj, shown_flag_inj, shown_string_inj, true_and] at h
  obtain ⟨hnodes, hedges, hgroups, hresult, hmarkup, -⟩ := h
  obtain ⟨⟨nodes, edges, groups⟩, result, markup⟩ := c
  obtain ⟨⟨nodes', edges', groups'⟩, result', markup'⟩ := c'
  obtain rfl : nodes = nodes' :=
    eq_of_map_shown_eq (fun n hn n' hn' => Node.document_inj hlabel (hc n hn) (hc' n' hn')) hnodes
  obtain rfl : edges = edges' :=
    eq_of_map_shown_eq (fun _ _ _ _ => Edge.document_inj hedge) hedges
  obtain rfl : groups = groups' := eq_of_map_shown_eq (fun _ _ _ _ => Group.document_inj) hgroups
  obtain rfl : result = result' := hresult
  obtain rfl : markup = markup' := hmarkup
  rfl

namespace Setting

/-- The text of a drawn chart determines the chart, under every palette that has two colours for
conditions and two for edges. -/
theorem render_determines {p : Palette} (hlabel : p.trueLabel ≠ p.falseLabel)
    (hedge : p.continueEdge ≠ p.breakEdge) {s s' : Setting} {e e' : Option Expr}
    (h : (s.lower e).chart.render p = (s'.lower e').chart.render p) :
    (s.lower e).chart = (s'.lower e').chart :=
  Chart.eq_of_shown_eq hlabel hedge (s.names_lower e) (s'.names_lower e')
    (Document.shown_eq_of_text_eq h)

/-- A condition without a result is drawn as a false one. -/
theorem render_determines_unknown :
    let p : Palette := {}
    let c := (lower ⟨{}, [⟨2, true, none⟩]⟩
      (some (.or (.not (.condition 1)) (.condition 2)))).chart
    let c' := (lower ⟨{}, [⟨1, false, none⟩, ⟨2, true, some "yes"⟩]⟩
      (some (.or (.not (.condition 1)) (.condition 2)))).chart
    p.trueLabel ≠ p.falseLabel ∧ p.continueEdge ≠ p.breakEdge ∧ c.render p = c'.render p ∧
      c = c' := by
  intro p c c'
  have hlabel : p.trueLabel ≠ p.falseLabel := by decide
  have hedge : p.continueEdge ≠ p.breakEdge := by decide
  have h : c.render p = c'.render p := by rfl
  exact ⟨hlabel, hedge, h, render_determines hlabel hedge h⟩

end Setting

end ConditionChart
