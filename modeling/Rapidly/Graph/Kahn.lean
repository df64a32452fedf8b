import Mathlib.Data.Fintype.EquivFin
import Mathlib.Data.List.Nodup
import Mathlib.Data.List.Perm.Subperm
import Mathlib.Data.Set.Insert
import Rapidly.Graph.Forest

/-!
# Kahn's algorithm in a graph of parents

Every node has at most one parent. `ParentsFirst` says that in a list every node comes after its
parent, and `kahn` computes such a list of the nodes below a bound: it keeps the in-degrees of
the nodes, and a queue of the nodes whose parent has been sorted.

* `kahn_eq_some`: what it returns is such a list.
* `exists_kahn_eq_some`: it returns one if there is one.
* `kahn_eq_none_iff`: there is none exactly if some node is its own ancestor.
-/

namespace Graph

universe u

/-! ### Lists with parents first -/

section Order

variable {α : Type u} {parent : α → Option α} {done done' : Set α} {l l' : List α}

/-- In the list every node comes after its parent, unless the parent is done already. -/
def ParentsFirst (parent : α → Option α) : Set α → List α → Prop
  | _, [] => True
  | done, c :: rest => (∀ p ∈ parent c, p ∈ done) ∧ ParentsFirst parent (insert c done) rest

theorem parentsFirst_append : ParentsFirst parent done (l ++ l') ↔
    ParentsFirst parent done l ∧ ParentsFirst parent (done ∪ {c | c ∈ l}) l' := by
  induction l generalizing done with
  | nil => simp [ParentsFirst]
  | cons c l ih =>
    have hset : insert c done ∪ {d | d ∈ l} = done ∪ {d | d ∈ c :: l} := by
      ext d
      simp [or_assoc, or_left_comm]
    rw [List.cons_append, ParentsFirst, ParentsFirst, ih, and_assoc, hset]

theorem parentsFirst_of_forall (h : ∀ c ∈ l, ∀ p ∈ parent c, p ∈ done) :
    ParentsFirst parent done l := by
  induction l generalizing done with
  | nil => trivial
  | cons c l ih =>
    refine ⟨h c (List.mem_cons_self ..), ih fun d hd p hp => ?_⟩
    exact Set.mem_insert_of_mem c (h d (List.mem_cons_of_mem c hd) p hp)

theorem ParentsFirst.idxOf_lt [DecidableEq α] (h : ParentsFirst parent done l) {c p : α}
    (hc : c ∈ l) (hp : parent c = some p) (hdone : p ∉ done) : l.idxOf p < l.idxOf c := by
  induction l generalizing done with
  | nil => exact absurd hc List.not_mem_nil
  | cons d l ih =>
    have hne : c ≠ d := by
      rintro rfl
      exact hdone (h.1 p hp)
    rw [List.idxOf_cons_ne _ (Ne.symm hne)]
    by_cases hd : d = p
    · rw [hd, List.idxOf_cons_self]
      exact Nat.succ_pos _
    · rw [List.idxOf_cons_ne _ hd]
      refine Nat.succ_lt_succ (ih h.2 ((List.mem_cons.mp hc).resolve_left hne) fun hmem => ?_)
      exact (Set.mem_insert_iff.mp hmem).elim (fun heq => hd heq.symm) hdone

/-- In an ascending list the smaller number stands in front. -/
theorem idxOf_lt_idxOf_iff {l : List ℕ} {a b : ℕ} (h : l.Pairwise (· < ·)) (ha : a ∈ l)
    (hb : b ∈ l) : l.idxOf a < l.idxOf b ↔ a < b := by
  have hlt {c d : ℕ} (hc : c ∈ l) (hd : d ∈ l) (hcd : l.idxOf c < l.idxOf d) : c < d := by
    have hget := List.pairwise_iff_getElem.mp h (l.idxOf c) (l.idxOf d)
      (List.idxOf_lt_length_of_mem hc) (List.idxOf_lt_length_of_mem hd) hcd
    rwa [List.getElem_idxOf, List.getElem_idxOf] at hget
  refine ⟨hlt ha hb, fun hab => ?_⟩
  rcases Nat.lt_trichotomy (l.idxOf a) (l.idxOf b) with hless | heq | hmore
  · exact hless
  · exact absurd ((List.idxOf_inj ha).mp heq) hab.ne
  · exact absurd (hlt hb ha hmore) hab.asymm

end Order

/-! ### The algorithm -/

/-- The state of the algorithm. -/
structure Kahn where
  queue : List ℕ
  sorted : List ℕ
  inDegree : ℕ → ℤ

section Algorithm

-- the number of nodes, and their parents
variable (n : ℕ) (parent : ℕ → Option ℕ)

/-- The nodes below a node, in ascending order. -/
def children (p : ℕ) : List ℕ := (List.range n).filter fun c => parent c = some p

/-- The in-degree of a node. -/
def degree (c : ℕ) : ℤ := if (parent c).isSome then 1 else 0

/-- One incoming edge of a node is taken away; without any, it is queued. -/
def Kahn.release (s : Kahn) (c : ℕ) : Kahn :=
  { s with
    inDegree := fun d => if d = c then s.inDegree c - 1 else s.inDegree d
    queue := if s.inDegree c - 1 = 0 then s.queue ++ [c] else s.queue }

/-- The first node of the queue is sorted. -/
def Kahn.visit (s : Kahn) : Kahn :=
  match s.queue with
  | [] => s
  | current :: rest =>
    (children n parent current).foldl Kahn.release
      { s with queue := rest, sorted := s.sorted ++ [current] }

/-- The queue is worked off. -/
def Kahn.loop : ℕ → Kahn → Kahn
  | 0, s => s
  | fuel + 1, s => Kahn.loop fuel (s.visit n parent)

/-- All nodes without a parent are queued. -/
def Kahn.start : Kahn where
  queue := (List.range n).filter fun c => degree parent c = 0
  sorted := []
  inDegree := degree parent

/-- Kahn's algorithm: the nodes below `n`, parents first; `none` if there is a cycle. A node is
queued at most once, so that `n` visits are enough (`queue_loop`). -/
def kahn : Option (List ℕ) :=
  let sorted := (Kahn.loop n parent n (Kahn.start n parent)).sorted
  if sorted.length = n then some sorted else none

end Algorithm

/-! ### The invariant -/

section Invariant

variable {n : ℕ} {parent : ℕ → Option ℕ} {s : Kahn} {c p : ℕ}

theorem mem_children : c ∈ children n parent p ↔ c < n ∧ parent c = some p := by
  rw [children, List.mem_filter, List.mem_range, decide_eq_true_iff]

/-- Nodes whose only incoming edge is taken away are queued. -/
theorem foldl_release {cs : List ℕ} (hcs : cs.Nodup) (h : ∀ c ∈ cs, s.inDegree c = 1) :
    cs.foldl Kahn.release s =
      { s with
        queue := s.queue ++ cs
        inDegree := fun c => if c ∈ cs then 0 else s.inDegree c } := by
  induction cs generalizing s with
  | nil => simp
  | cons c cs ih =>
    obtain ⟨hc, hcs⟩ := List.nodup_cons.mp hcs
    have hone : s.inDegree c = 1 := h c (List.mem_cons_self ..)
    have hrest : ∀ d ∈ cs, (s.release c).inDegree d = 1 := by
      intro d hd
      have hne : d ≠ c := fun heq => hc (heq ▸ hd)
      rw [Kahn.release]
      dsimp only
      rw [if_neg hne]
      exact h d (List.mem_cons_of_mem c hd)
    rw [List.foldl_cons, ih hcs hrest]
    simp only [Kahn.release, hone, Int.sub_self, if_true, Kahn.mk.injEq, true_and]
    refine ⟨by rw [List.append_assoc]; rfl, funext fun d => ?_⟩
    by_cases hd : d ∈ cs
    · simp [hd]
    · by_cases heq : d = c <;> simp [hd, heq]

/-- The queue holds the nodes that are not sorted and whose parent is. -/
structure Kahn.Inv (n : ℕ) (parent : ℕ → Option ℕ) (s : Kahn) : Prop where
  nodup : (s.sorted ++ s.queue).Nodup
  order : ParentsFirst parent ∅ (s.sorted ++ s.queue)
  mem : ∀ c, c ∈ s.sorted ++ s.queue ↔ c < n ∧ ∀ p ∈ parent c, p ∈ s.sorted
  degree : ∀ c < n, s.inDegree c = if c ∈ s.sorted ++ s.queue then 0 else 1

theorem Kahn.Inv.start (n : ℕ) (parent : ℕ → Option ℕ) : (Kahn.start n parent).Inv n parent := by
  have hmem : ∀ c, c ∈ (Kahn.start n parent).queue ↔ c < n ∧ parent c = none := by
    intro c
    rcases hc : parent c <;> simp [Kahn.start, Graph.degree, hc]
  refine ⟨List.Nodup.filter _ List.nodup_range, ?_, fun c => ?_, fun c hc => ?_⟩
  · refine parentsFirst_of_forall fun c hc p hp => ?_
    rw [((hmem c).mp hc).2] at hp
    cases hp
  · rcases hparent : parent c <;> simp [Kahn.start, Graph.degree, hparent]
  · rcases hparent : parent c <;> simp [Kahn.start, Graph.degree, hparent, hc]

theorem Kahn.Inv.visit (h : s.Inv n parent) : (s.visit n parent).Inv n parent := by
  rw [Kahn.visit]
  split
  · exact h
  next current rest hqueue =>
    obtain ⟨hnodup, horder, hmem, hdegree⟩ := h
    rw [hqueue] at hnodup horder hmem hdegree
    have hcurrent : current ∉ s.sorted := fun hc =>
      List.disjoint_of_nodup_append hnodup hc (List.mem_cons_self ..)
    -- a child of the current node has not been reached
    have hnew : ∀ c ∈ children n parent current, c ∉ s.sorted ++ current :: rest := by
      intro c hc hold
      exact hcurrent (((hmem c).mp hold).2 current (mem_children.mp hc).2)
    have hchildren : (children n parent current).Nodup := List.Nodup.filter _ List.nodup_range
    rw [foldl_release hchildren fun c hc => by
      rw [hdegree c (mem_children.mp hc).1, if_neg (hnew c hc)]]
    have hlist : s.sorted ++ [current] ++ (rest ++ children n parent current) =
        s.sorted ++ current :: rest ++ children n parent current := by simp
    refine ⟨?_, ?_, fun c => ?_, fun c hc => ?_⟩
    · dsimp only
      rw [hlist]
      exact List.nodup_append'.mpr ⟨hnodup, hchildren, fun c hc hc' => hnew c hc' hc⟩
    · dsimp only
      rw [hlist, parentsFirst_append]
      refine ⟨horder, parentsFirst_of_forall fun c hc p hp => .inr ?_⟩
      obtain rfl : current = p := Option.some_inj.mp ((mem_children.mp hc).2.symm.trans hp)
      exact List.mem_append_right _ (List.mem_cons_self ..)
    · dsimp only
      rw [hlist, List.mem_append, hmem, mem_children]
      rcases parent c with _ | p
      · simp
      · by_cases hp : p = current
        · simpa [hp] using fun hc _ => hc
        · simp [hp]
    · dsimp only
      rw [hlist, hdegree c hc]
      by_cases hchild : c ∈ children n parent current
      · rw [if_pos hchild, if_pos (List.mem_append_right _ hchild)]
      · rw [if_neg hchild]
        simp only [List.mem_append, hchild, or_false]

theorem Kahn.Inv.loop (h : s.Inv n parent) (fuel : ℕ) : (s.loop n parent fuel).Inv n parent := by
  induction fuel generalizing s with
  | zero => exact h
  | succ fuel ih => exact ih h.visit

theorem Kahn.Inv.length_le (h : s.Inv n parent) : s.sorted.length + s.queue.length ≤ n := by
  have hsub : (s.sorted ++ s.queue) ⊆ List.range n := fun c hc =>
    List.mem_range.mpr ((h.mem c).mp hc).1
  have hle := (h.nodup.subperm hsub).length_le
  rwa [List.length_append, List.length_range] at hle

/-- Every visit sorts a node, as long as there are any in the queue. -/
theorem length_loop (s : Kahn) (fuel : ℕ) : (s.loop n parent fuel).queue = [] ∨
    (s.loop n parent fuel).sorted.length = s.sorted.length + fuel := by
  induction fuel generalizing s with
  | zero => exact .inr rfl
  | succ fuel ih =>
    rw [Kahn.loop]
    have hsorted : ∀ (cs : List ℕ) (s : Kahn), (cs.foldl Kahn.release s).sorted = s.sorted := by
      intro cs
      induction cs with
      | nil => exact fun s => rfl
      | cons c cs ih => exact fun s => ih (s.release c)
    rcases hqueue : s.queue with _ | ⟨current, rest⟩
    · have hvisit : s.visit n parent = s := by rw [Kahn.visit, hqueue]
      have hstay : ∀ fuel, s.loop n parent fuel = s := by
        intro fuel
        induction fuel with
        | zero => rfl
        | succ fuel ih => rw [Kahn.loop, hvisit, ih]
      rw [hvisit, hstay]
      exact .inl hqueue
    · have hvisit : (s.visit n parent).sorted = s.sorted ++ [current] := by
        rw [Kahn.visit, hqueue]
        exact hsorted _ _
      refine (ih (s.visit n parent)).imp_right fun hlength => ?_
      rw [hlength, hvisit, List.length_append, List.length_singleton]
      omega

theorem queue_loop (n : ℕ) (parent : ℕ → Option ℕ) :
    (Kahn.loop n parent n (Kahn.start n parent)).queue = [] := by
  refine (length_loop (Kahn.start n parent) n).elim id fun hlength => ?_
  have hle := ((Kahn.Inv.start n parent).loop n).length_le
  exact List.length_eq_zero_iff.mp (by omega)

/-- What the algorithm has sorted: each node whose parent is sorted, parents first. -/
theorem sorted_loop (n : ℕ) (parent : ℕ → Option ℕ) :
    let sorted := (Kahn.loop n parent n (Kahn.start n parent)).sorted
    sorted.Nodup ∧ ParentsFirst parent ∅ sorted ∧
      ∀ c, c ∈ sorted ↔ c < n ∧ ∀ p ∈ parent c, p ∈ sorted := by
  obtain ⟨hnodup, horder, hmem, -⟩ := (Kahn.Inv.start n parent).loop n
  rw [queue_loop, List.append_nil] at hnodup horder hmem
  exact ⟨hnodup, horder, hmem⟩

theorem kahn_eq_some {l : List ℕ} (h : kahn n parent = some l) :
    l.Perm (List.range n) ∧ ParentsFirst parent ∅ l := by
  rw [kahn] at h
  obtain ⟨hnodup, horder, hmem⟩ := sorted_loop n parent
  split at h
  next hlength =>
    obtain rfl := Option.some_inj.mp h
    have hsub := hnodup.subperm fun c hc => List.mem_range.mpr ((hmem c).mp hc).1
    exact ⟨hsub.perm_of_length_le (by rw [List.length_range, hlength]), horder⟩
  next => cases h

/-- The nodes that are queued at the start are sorted first, in the order of the queue. -/
theorem prefix_loop (s : Kahn) (fuel : ℕ) :
    (s.sorted ++ s.queue) <+: (s.loop n parent fuel).sorted ++ (s.loop n parent fuel).queue := by
  have hrelease : ∀ (cs : List ℕ) (s : Kahn), (cs.foldl Kahn.release s).sorted = s.sorted ∧
      s.queue <+: (cs.foldl Kahn.release s).queue := by
    intro cs
    induction cs with
    | nil => exact fun s => ⟨rfl, List.prefix_refl _⟩
    | cons c cs ih =>
      intro s
      refine ⟨(ih (s.release c)).1, List.IsPrefix.trans ?_ (ih (s.release c)).2⟩
      rw [Kahn.release]
      split
      · exact List.prefix_append _ _
      · exact List.prefix_refl _
  induction fuel generalizing s with
  | zero => exact List.prefix_refl _
  | succ fuel ih =>
    refine List.IsPrefix.trans ?_ (ih (s.visit n parent))
    rw [Kahn.visit]
    split
    · exact List.prefix_refl _
    next current rest hqueue =>
      obtain ⟨hsorted, hfront⟩ := hrelease (children n parent current)
        { s with queue := rest, sorted := s.sorted ++ [current] }
      rw [hsorted, hqueue, List.append_assoc]
      refine (List.prefix_append_right_inj _).mpr ?_
      exact (List.prefix_append_right_inj [current]).mpr hfront

end Invariant

/-! ### Cycles -/

section Cycles

variable {n : ℕ} {parent : ℕ → Option ℕ} {l : List ℕ}

/-- The nodes without a parent come first in the result, in ascending order. -/
theorem prefix_of_kahn_eq_some (h : kahn n parent = some l) :
    ((List.range n).filter fun c => parent c = none) <+: l := by
  have hroots : (Kahn.start n parent).queue = (List.range n).filter fun c => parent c = none := by
    refine List.filter_congr fun c _ => ?_
    rcases hc : parent c <;> simp [degree, hc]
  rw [kahn] at h
  split at h
  next =>
    obtain rfl := Option.some_inj.mp h
    have hfront := @prefix_loop n parent (Kahn.start n parent) n
    rw [queue_loop, List.append_nil] at hfront
    rw [← hroots]
    exact hfront
  next => cases h

/-- Nodes in an order with parents first are not their own ancestors. -/
theorem acyclic_of_parentsFirst (hparent : ∀ c p, parent c = some p → c ∈ l)
    (h : ParentsFirst parent ∅ l) : Acyclic fun c p => parent c = some p := by
  refine acyclic_of_lt l.idxOf fun c p hp => ?_
  exact h.idxOf_lt (hparent c p hp) hp (Set.notMem_empty p)

theorem exists_kahn_of_acyclic (hparent : ∀ c p, parent c = some p → p < n)
    (h : Acyclic fun c p => parent c = some p) : ∃ l, kahn n parent = some l := by
  obtain ⟨hnodup, -, hmem⟩ := sorted_loop n parent
  -- on the nodes below the bound there is no infinite line of ancestors
  have hwf : WellFounded fun p c : Fin n =>
      Relation.TransGen (fun c p => parent c = some p) c.val p.val :=
    @Finite.wellFounded_of_trans_of_irrefl _ _ _
      ⟨fun _ _ _ hab hbc => hbc.trans hab⟩ ⟨fun c => h c.val⟩
  have hall : ∀ c : Fin n, c.val ∈ (Kahn.loop n parent n (Kahn.start n parent)).sorted := by
    intro c
    induction c using hwf.induction with
    | _ c ih =>
      exact (hmem c.val).mpr ⟨c.isLt, fun p hp => ih ⟨p, hparent _ _ hp⟩ (.single hp)⟩
  have hsub : List.range n ⊆ (Kahn.loop n parent n (Kahn.start n parent)).sorted := fun c hc =>
    hall ⟨c, List.mem_range.mp hc⟩
  have hperm : (Kahn.loop n parent n (Kahn.start n parent)).sorted.Perm (List.range n) :=
    (List.perm_ext_iff_of_nodup hnodup List.nodup_range).mpr fun c =>
      ⟨fun hc => List.mem_range.mpr ((hmem c).mp hc).1, fun hc => hsub hc⟩
  exact ⟨_, if_pos (by rw [hperm.length_eq, List.length_range])⟩

theorem kahn_eq_none_iff (hparent : ∀ c p, parent c = some p → c < n ∧ p < n) :
    kahn n parent = none ↔ ¬Acyclic fun c p => parent c = some p := by
  constructor
  · intro hnone hacyclic
    obtain ⟨l, hl⟩ := exists_kahn_of_acyclic (fun c p hp => (hparent c p hp).2) hacyclic
    exact absurd (hl.symm.trans hnone) (Option.some_ne_none l)
  · intro hcycle
    refine Option.eq_none_iff_forall_ne_some.mpr fun l hl => hcycle ?_
    obtain ⟨hperm, horder⟩ := kahn_eq_some hl
    refine acyclic_of_parentsFirst (fun c p hp => hperm.mem_iff.mpr ?_) horder
    exact List.mem_range.mpr (hparent c p hp).1

end Cycles

end Graph
