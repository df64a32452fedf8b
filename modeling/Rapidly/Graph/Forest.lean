import Mathlib.Data.Nat.Notation
import Mathlib.Logic.Relation

/-!
# Forests under changes of a parent

A parent relation is a forest when no node is its own ancestor. The changes considered here give
one node a new parent and leave the other nodes as they are: the node may be a new one, or one
that had another parent before, or none. `acyclic_of_reparent` is the one fact about them: the
relation stays a forest if the new parent is not the node itself or a descendant of it.
-/

namespace Graph

open Relation

universe u

variable {α : Type u} {parent parent' : α → α → Prop} {node new : α}

/-- No node is its own ancestor. -/
def Acyclic (parent : α → α → Prop) : Prop := ∀ a, ¬TransGen parent a a

theorem Acyclic.mono (h : Acyclic parent) (hsub : ∀ a b, parent' a b → parent a b) :
    Acyclic parent' := by
  intro a ha
  exact h a (TransGen.mono hsub a a ha)

theorem acyclic_of_lt (number : α → ℕ) (h : ∀ a b, parent a b → number b < number a) :
    Acyclic parent := by
  have hlt : ∀ {a b}, TransGen parent a b → number b < number a := by
    intro a b hpath
    induction hpath with
    | single hab => exact h _ _ hab
    | tail _ hbc ih => exact Nat.lt_trans (h _ _ hbc) ih
  exact fun a ha => Nat.lt_irrefl _ (hlt ha)

/-- Ancestors after a node has got a new parent: those from before, and those beyond the new
edge. -/
theorem transGen_reparent (hedge : ∀ a b, parent' a b → parent a b ∨ a = node ∧ b = new)
    (hnew : ¬ReflTransGen parent new node) {a b : α} (h : TransGen parent' a b) :
    TransGen parent a b ∨ ReflTransGen parent a node ∧ ReflTransGen parent new b := by
  induction h with
  | single hab =>
    rcases hedge _ _ hab with hold | ⟨rfl, rfl⟩
    · exact .inl (.single hold)
    · exact .inr ⟨.refl, .refl⟩
  | tail _ hbc ih =>
    rcases hedge _ _ hbc with hold | ⟨rfl, rfl⟩
    · rcases ih with hab | ⟨han, hnb⟩
      · exact .inl (hab.tail hold)
      · exact .inr ⟨han, hnb.tail hold⟩
    · rcases ih with hab | ⟨-, hnb⟩
      · exact .inr ⟨hab.to_reflTransGen, .refl⟩
      · exact absurd hnb hnew

/-- **Changing a parent.** A forest stays one when a node gets a parent that is neither the node
itself nor a descendant of it. -/
theorem acyclic_of_reparent (h : Acyclic parent)
    (hedge : ∀ a b, parent' a b → parent a b ∨ a = node ∧ b = new)
    (hnew : ¬ReflTransGen parent new node) : Acyclic parent' := by
  intro a ha
  rcases transGen_reparent hedge hnew ha with hold | ⟨han, hna⟩
  · exact h a hold
  · exact hnew (hna.trans han)

/-- A node that is nobody's parent can be given any parent but itself. -/
theorem acyclic_of_leaf (h : Acyclic parent)
    (hedge : ∀ a b, parent' a b → parent a b ∨ a = node ∧ b = new) (hne : new ≠ node)
    (hleaf : ∀ a, ¬parent a node) : Acyclic parent' := by
  refine acyclic_of_reparent h hedge fun hpath => ?_
  rcases ReflTransGen.cases_tail hpath with heq | ⟨a, -, ha⟩
  · exact hne heq.symm
  · exact hleaf a ha

theorem not_acyclic_of_two {a b : α} (hab : parent a b) (hba : parent b a) : ¬Acyclic parent :=
  fun h => h a ((TransGen.single hab).tail hba)

end Graph
