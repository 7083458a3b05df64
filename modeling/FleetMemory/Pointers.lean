/-
This file is a small library of pointer structures: each node points at one node or at
none. It says exactly when turning some nodes towards one hub, and the hub somewhere else,
keeps the pointers free of cycles, and that pointers without cycles leave every finite set.
-/

import Mathlib.Data.Fintype.Card
import Mathlib.Data.Set.Finite.Basic
import Mathlib.Logic.Relation
import Mathlib.Order.WellFounded

namespace Pointers

open Relation

variable {Node : Type}

/-- A node points at another. -/
def Points (next : Node → Option Node) (source target : Node) : Prop :=
  next source = some target

/-- No node is reached from itself. -/
def Acyclic (next : Node → Option Node) : Prop :=
  ∀ node, ¬TransGen (Points next) node node

/-- Some nodes are turned towards a hub, the hub may point elsewhere, and the other nodes point
where they did. -/
structure Turned (before after : Node → Option Node) (hub : Node) (sources : Set Node) : Prop where
  turned : ∀ node ∈ sources, after node = some hub
  kept : ∀ node, node ≠ hub → node ∉ sources → after node = before node

section

variable {before after : Node → Option Node} {hub first last : Node} {sources : Set Node}

/-- A way to the hub goes along the old pointers until it meets the hub or a turned node. -/
theorem Turned.reflTransGen_before (turned : Turned before after hub sources)
    (way : ReflTransGen (Points after) first hub) :
    ∃ last, ReflTransGen (Points before) first last ∧ (last = hub ∨ last ∈ sources) := by
  induction way using ReflTransGen.head_induction_on with
  | refl => exact ⟨hub, .refl, Or.inl rfl⟩
  | @head node second points _ inductionHypothesis =>
    by_cases ends : node = hub ∨ node ∈ sources
    · exact ⟨node, .refl, ends⟩
    · rw [not_or] at ends
      obtain ⟨last, rest, met⟩ := inductionHypothesis
      rw [Points, turned.kept node ends.1 ends.2] at points
      exact ⟨last, .head points rest, met⟩

/-- An old way to the hub or to a turned node is a way to the hub. -/
theorem Turned.reflTransGen_after (turned : Turned before after hub sources)
    (way : ReflTransGen (Points before) first last) (met : last = hub ∨ last ∈ sources) :
    ReflTransGen (Points after) first hub := by
  have ends : ∀ {node}, node = hub ∨ node ∈ sources → ReflTransGen (Points after) node hub := by
    rintro node (rfl | source)
    · exact .refl
    · exact .single (turned.turned node source)
  induction way using ReflTransGen.head_induction_on with
  | refl => exact ends met
  | @head node second points _ inductionHypothesis =>
    by_cases here : node = hub ∨ node ∈ sources
    · exact ends here
    · rw [not_or] at here
      refine .head ?_ inductionHypothesis
      rw [Points, turned.kept node here.1 here.2]
      exact points

/-- A way along the new pointers is an old one, or it passes the hub. -/
theorem Turned.transGen (turned : Turned before after hub sources)
    (way : TransGen (Points after) first last) :
    TransGen (Points before) first last ∨
      ReflTransGen (Points after) first hub ∧ ReflTransGen (Points after) hub last := by
  have edge : ∀ {source target}, Points after source target → Points before source target ∨
      ReflTransGen (Points after) source hub ∧ ReflTransGen (Points after) hub target := by
    intro source target points
    by_cases itself : source = hub
    · exact Or.inr ⟨itself ▸ .refl, itself ▸ .single points⟩
    · by_cases member : source ∈ sources
      · have target_eq : target = hub :=
          Option.some.inj (points.symm.trans (turned.turned source member))
        exact Or.inr ⟨target_eq ▸ .single points, target_eq ▸ .refl⟩
      · rw [Points, turned.kept source itself member] at points
        exact Or.inl points
  induction way with
  | single points => exact (edge points).imp_left .single
  | @tail middle target before_ points inductionHypothesis =>
    rcases inductionHypothesis with old | ⟨toHub, fromHub⟩
    · rcases edge points with kept | ⟨toHub, fromHub⟩
      · exact Or.inl (old.tail kept)
      · exact Or.inr ⟨before_.to_reflTransGen.trans toHub, fromHub⟩
    · exact Or.inr ⟨toHub, fromHub.tail points⟩

/-- Turning nodes towards a hub keeps the pointers free of cycles exactly when the hub is not one
of them and the way from where it points now meets neither the hub nor a turned node. -/
theorem Turned.acyclic_iff (turned : Turned before after hub sources) (acyclic : Acyclic before) :
    Acyclic after ↔ hub ∉ sources ∧ ∀ target, after hub = some target →
      ∀ last, ReflTransGen (Points before) target last → last ≠ hub ∧ last ∉ sources := by
  constructor
  · intro free
    refine ⟨fun member => free hub (.single (turned.turned hub member)), ?_⟩
    intro target points last way
    rw [← not_or]
    intro met
    exact free hub (TransGen.head' points (turned.reflTransGen_after way met))
  · rintro ⟨apart, leaves⟩ node cycle
    rcases turned.transGen cycle with old | ⟨toHub, fromHub⟩
    · exact acyclic node old
    · have around : TransGen (Points after) hub hub :=
        (TransGen.trans_right fromHub cycle).trans_left toHub
      obtain ⟨target, points, back⟩ := TransGen.head'_iff.mp around
      obtain ⟨last, way, met⟩ := turned.reflTransGen_before back
      rcases met with itself | source
      · exact (leaves target points last way).1 itself
      · exact (leaves target points last way).2 source

end

/-- Pointers without cycles lead out of every finite set. -/
theorem exists_last {next : Node → Option Node} (acyclic : Acyclic next) {nodes : Set Node}
    (finite : nodes.Finite) (nonempty : nodes.Nonempty) :
    ∃ node ∈ nodes, ∀ target, next node = some target → target ∉ nodes := by
  have finiteNodes : Finite nodes := finite
  obtain ⟨start, member⟩ := nonempty
  let reached (later earlier : nodes) : Prop := TransGen (Points next) earlier.1 later.1
  have transitive : IsTrans nodes reached := ⟨fun _ _ _ first second => second.trans first⟩
  have irreflexive : Std.Irrefl reached := ⟨fun node => acyclic node.1⟩
  obtain ⟨last, _, ends⟩ := (Finite.wellFounded_of_trans_of_irrefl reached).has_min Set.univ
    ⟨⟨start, member⟩, trivial⟩
  refine ⟨last.1, last.2, fun target points within => ?_⟩
  exact ends ⟨target, within⟩ trivial (.single points)

end Pointers
