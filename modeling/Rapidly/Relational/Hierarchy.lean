import Rapidly.Graph.Forest
import Rapidly.Relational.Table

/-!
# Rows with parents

The rows of a table may name a parent, by its key, and belong to a group each. The table is
`Hierarchical` when no row is its own ancestor and every parent belongs to the group of its
child. Two kinds of writes are considered: rows are rewritten, where at most one of them gets a
new parent (`Hierarchical.rewrite`), and rows are added (`Hierarchical.add`).
-/

namespace Relational.Table

open Graph Relation

universe u v w

variable {Row : Type u} {Key : Type v} {Group : Type w} {key : Row → Key}

/-- The row with the first key names the second one as its parent. -/
def ParentIn (t : Table key) (parent : Row → Option Key) (a b : Key) : Prop :=
  ∃ r ∈ t, key r = a ∧ parent r = some b

instance [DecidableEq Key] (t : Table key) (parent : Row → Option Key) (a b : Key) :
    Decidable (t.ParentIn parent a b) :=
  inferInstanceAs (Decidable (∃ r ∈ t.rows, key r = a ∧ parent r = some b))

/-- No row is its own ancestor, and every parent belongs to the group of its child. -/
structure Hierarchical (t : Table key) (parent : Row → Option Key) (group : Row → Group) :
    Prop where
  acyclic : Acyclic (t.ParentIn parent)
  group : ∀ r ∈ t, ∀ r' ∈ t, parent r = some (key r') → group r = group r'

variable {t t' : Table key} {parent : Row → Option Key} {group : Row → Group} {node new : Key}

theorem hierarchical_empty :
    (empty : Table key).Hierarchical parent group where
  acyclic a ha := by
    obtain ⟨_, ⟨r, hr, -⟩, -⟩ := TransGen.head'_iff.mp ha
    exact absurd hr List.not_mem_nil
  group _ hr := absurd hr List.not_mem_nil

/-- Rows are rewritten: each keeps its key, its group and its parent, except that one row may get
a new parent, which is of the same group and neither the row itself nor below it. -/
theorem Hierarchical.rewrite (h : t.Hierarchical parent group)
    (hrows : ∀ r' ∈ t', ∃ r ∈ t, key r' = key r ∧ group r' = group r ∧
      (parent r' = parent r ∨ parent r' = none ∨ key r = node ∧ parent r' = some new))
    (hnew : ¬ReflTransGen (t.ParentIn parent) new node)
    (hgroup : ∀ r ∈ t, ∀ r' ∈ t, key r = node → key r' = new → group r = group r') :
    t'.Hierarchical parent group where
  acyclic := by
    refine acyclic_of_reparent h.acyclic ?_ hnew
    rintro a b ⟨r', hr', rfl, hparent⟩
    obtain ⟨r, hr, hkey, -, hkept | hnone | ⟨hnode, hset⟩⟩ := hrows r' hr'
    · exact .inl ⟨r, hr, hkey.symm, hkept.symm.trans hparent⟩
    · rw [hnone] at hparent
      cases hparent
    · exact .inr ⟨hkey.trans hnode, Option.some.inj (hparent.symm.trans hset)⟩
  group a ha b hb hparent := by
    obtain ⟨r, hr, hkey, hgr, hcase⟩ := hrows a ha
    obtain ⟨r', hr', hkey', hgr', -⟩ := hrows b hb
    rw [hgr, hgr']
    rcases hcase with hkept | hnone | ⟨hnode, hset⟩
    · refine h.group r hr r' hr' ?_
      rw [← hkept, hparent, hkey']
    · rw [hnone] at hparent
      cases hparent
    · refine hgroup r hr r' hr' hnode ?_
      rw [← hkey']
      exact Option.some.inj (hparent.symm.trans hset)

theorem Hierarchical.rewrite_of_kept (h : t.Hierarchical parent group)
    (hrows : ∀ r' ∈ t', ∃ r ∈ t, key r' = key r ∧ group r' = group r ∧
      (parent r' = parent r ∨ parent r' = none)) : t'.Hierarchical parent group where
  acyclic := by
    refine h.acyclic.mono ?_
    rintro a b ⟨r', hr', rfl, hparent⟩
    obtain ⟨r, hr, hkey, -, hkept | hnone⟩ := hrows r' hr'
    · exact ⟨r, hr, hkey.symm, hkept.symm.trans hparent⟩
    · rw [hnone] at hparent
      cases hparent
  group a ha b hb hparent := by
    obtain ⟨r, hr, hkey, hgr, hkept | hnone⟩ := hrows a ha
    · obtain ⟨r', hr', hkey', hgr', -⟩ := hrows b hb
      rw [hgr, hgr']
      refine h.group r hr r' hr' ?_
      rw [← hkept, hparent, hkey']
    · rw [hnone] at hparent
      cases hparent

/-- One row is updated: it keeps its parent (`none`), loses it (`some none`), or gets a new one. -/
theorem Hierarchical.modify [DecidableEq Key] (h : t.Hierarchical parent group) {f : Row → Row}
    (hf : ∀ r, key (f r) = key r) (hgroup : ∀ r, group (f r) = group r)
    (change : Option (Option Key)) (hparent : ∀ r, parent (f r) = change.getD (parent r))
    (hnew : ∀ p ∈ change.join, ¬ReflTransGen (t.ParentIn parent) p node ∧
      ∀ r ∈ t, ∀ r' ∈ t, key r = node → key r' = p → group r = group r') :
    (t.modify (fun r => key r = node) f hf).Hierarchical parent group := by
  have hrow {r' : Row} (hr' : r' ∈ t.modify (fun r => key r = node) f hf) :
      ∃ r ∈ t, key r' = key r ∧ group r' = group r ∧
        (parent r' = parent r ∨ key r = node ∧ parent r' = change.getD (parent r)) := by
    obtain ⟨r, hr, rfl⟩ := (mem_modify hf).mp hr'
    refine ⟨r, hr, ?_⟩
    split
    next hnode => exact ⟨hf r, hgroup r, .inr ⟨hnode, hparent r⟩⟩
    next => exact ⟨rfl, rfl, .inl rfl⟩
  rcases change with _ | (_ | p)
  · refine h.rewrite_of_kept fun r' hr' => ?_
    obtain ⟨r, hr, hkey, hgr, hkept | ⟨-, hkept⟩⟩ := hrow hr'
    · exact ⟨r, hr, hkey, hgr, .inl hkept⟩
    · exact ⟨r, hr, hkey, hgr, .inl hkept⟩
  · refine h.rewrite_of_kept fun r' hr' => ?_
    obtain ⟨r, hr, hkey, hgr, hkept | ⟨-, hnone⟩⟩ := hrow hr'
    · exact ⟨r, hr, hkey, hgr, .inl hkept⟩
    · exact ⟨r, hr, hkey, hgr, .inr hnone⟩
  · obtain ⟨hpath, hsame⟩ := hnew p rfl
    refine h.rewrite (fun r' hr' => ?_) hpath hsame
    obtain ⟨r, hr, hkey, hgr, hkept | ⟨hnode, hset⟩⟩ := hrow hr'
    · exact ⟨r, hr, hkey, hgr, .inl hkept⟩
    · exact ⟨r, hr, hkey, hgr, .inr (.inr ⟨hnode, hset⟩)⟩

/-- A row is added under a new key; its parent, if it has one, is there already and of the same
group. -/
theorem Hierarchical.add (h : t.Hierarchical parent group)
    (hparents : t.ReferencesNullable parent t) {row : Row}
    (hrows : ∀ r', r' ∈ t' → r' = row ∨ r' ∈ t) (hkey : ∀ r ∈ t, key row ≠ key r)
    (hrow : ∀ p ∈ parent row, ∃ r ∈ t, key r = p ∧ group row = group r) :
    t'.Hierarchical parent group := by
  -- The new row is nobody's parent.
  have hleaf : ∀ a, ¬t.ParentIn parent a (key row) := by
    rintro a ⟨r, hr, -, hparent⟩
    obtain ⟨r', hr', hkey'⟩ := hparents r hr (key row) hparent
    exact hkey r' hr' hkey'.symm
  have hrow' : parent row ≠ some (key row) := by
    intro hself
    obtain ⟨r, hr, hkey', -⟩ := hrow _ hself
    exact hkey r hr hkey'.symm
  refine ⟨?_, fun a ha b hb hparent => ?_⟩
  · rcases hp : parent row with _ | p
    · refine h.acyclic.mono ?_
      rintro a b ⟨r', hr', rfl, hparent⟩
      rcases hrows r' hr' with rfl | hr'
      · rw [hp] at hparent
        cases hparent
      · exact ⟨r', hr', rfl, hparent⟩
    · have hedge : ∀ a b, t'.ParentIn parent a b →
          t.ParentIn parent a b ∨ a = key row ∧ b = p := by
        rintro a b ⟨r', hr', rfl, hparent⟩
        rcases hrows r' hr' with rfl | hr'
        · exact .inr ⟨rfl, Option.some.inj (hparent.symm.trans hp)⟩
        · exact .inl ⟨r', hr', rfl, hparent⟩
      refine acyclic_of_leaf h.acyclic hedge ?_ hleaf
      rintro rfl
      exact hrow' hp
  · rcases hrows a ha with rfl | ha
    · obtain ⟨r, hr, hkey', hgroup⟩ := hrow _ hparent
      rcases hrows b hb with rfl | hb
      · exact absurd hkey'.symm (hkey r hr)
      · rw [hgroup, t.eq_of_key_eq hr hb hkey']
    · rcases hrows b hb with rfl | hb
      · exact absurd ⟨a, ha, rfl, hparent⟩ (hleaf (key a))
      · exact h.group a ha b hb hparent

end Relational.Table
