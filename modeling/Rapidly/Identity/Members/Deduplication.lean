import Mathlib.Data.List.Induction
import Rapidly.Identity.Members.Actions
import Rapidly.Relational.Ordering

/-!
# Merging members whose emails differ in case

`auto_dedupe_case_insensitive_email_duplicates` of `identity/member/actions.py`, with its two
queries. The finder groups the active members by customer and email in lower case; of each group
with several members all but the first one, in the order of the second query, are soft-deleted. The
session writes pending changes before it queries again.

The groups have no rows in common, so a group is found as it was in the beginning whenever its turn
comes (`listDuplicatesForDedupe_of_deletes`).

* `deduped_autoDedupe`: which rows are deleted, whatever the database does with ties, and that
  nothing is left to do for a second run.
-/

namespace Rapidly.Identity.Members.Deduplication

open Relational

/-- A member with the columns of `AuditableModel`. -/
structure AuditedMember extends toUnaudited : Member where
  createdAt : Time
  modifiedAt : Option Time := none
deriving DecidableEq

abbrev MemberTable := Table fun m : AuditedMember => m.id

/-- A customer, and an email in lower case. -/
abbrev Group := Uuid × String

/-- `role_priority` -/
def rolePriority : MemberRole → ℕ
  | .owner => 0
  | .billingManager => 1
  | .member => 2

/-- `ORDER BY role_priority, created_at` -/
def ComesBefore : AuditedMember → AuditedMember → Prop :=
  Lexicographic (fun m => rolePriority m.role) fun m => m.createdAt

/-- `ORDER BY member_count DESC, customer_id` -/
def Larger : Group × ℕ → Group × ℕ → Prop :=
  Lexicographic (fun row => OrderDual.toDual row.2) fun row => row.1.1

/-- What is up to the database: `lower`, and the order of rows that compare equal. -/
structure Postgres where
  lower : String → String
  byRole : Sorting ComesBefore
  bySize : Sorting Larger

/-- The times that are read for a deletion: by `soft_delete`, and by the `onupdate` of
`modified_at`. -/
structure Stamp where
  deletedAt : Time
  modifiedAt : Time

def AuditedMember.softDeleted (m : AuditedMember) (stamp : Stamp) : AuditedMember :=
  { m with deletedAt := some stamp.deletedAt, modifiedAt := some stamp.modifiedAt }

namespace Postgres

variable (pg : Postgres)

def groupOf (m : AuditedMember) : Group := (m.customerId, pg.lower m.email)

/-- `list_duplicates_for_dedupe` -/
def listDuplicatesForDedupe (db : MemberTable) (g : Group) : List AuditedMember :=
  pg.byRole.sort (db.select fun m => m.deletedAt = none ∧ pg.groupOf m = g)

/-- `find_case_insensitive_email_duplicates` -/
def findCaseInsensitiveEmailDuplicates (db : MemberTable) : List (Group × ℕ) :=
  let groups := (db.select fun m => m.deletedAt = none).map pg.groupOf
  pg.bySize.sort ((groups.dedup.map fun g => (g, groups.count g)).filter fun row => row.2 > 1)

end Postgres

/-- `soft_delete`, and the count of the deletions. -/
def softDelete (stamps : ℕ → Stamp) (s : MemberTable × ℕ) (loser : AuditedMember) :
    MemberTable × ℕ :=
  (s.1.modify (fun m => m.id = loser.id) (·.softDeleted (stamps s.2)) fun _ => rfl, s.2 + 1)

/-- The body of the loop over the groups. -/
def dedupeGroup (pg : Postgres) (stamps : ℕ → Stamp) (s : MemberTable × ℕ) (g : Group) :
    MemberTable × ℕ :=
  let members := pg.listDuplicatesForDedupe s.1 g
  if members.length < 2 then s else members.tail.foldl (softDelete stamps) s

/-- `auto_dedupe_case_insensitive_email_duplicates` -/
def autoDedupe (pg : Postgres) (stamps : ℕ → Stamp) (db : MemberTable) : MemberTable × ℕ :=
  (pg.findCaseInsensitiveEmailDuplicates db).foldl (fun s row => dedupeGroup pg stamps s row.1)
    (db, 0)

/-! ### What should come of it -/

/-- The member keeps its place in a group: it has the highest role, and was created first among
those. -/
structure Survives (pg : Postgres) (db : MemberTable) (g : Group) (m : AuditedMember) : Prop where
  mem : m ∈ db
  active : m.deletedAt = none
  groupOf_eq : pg.groupOf m = g
  first : ∀ m' ∈ db, m'.deletedAt = none → pg.groupOf m' = g → ComesBefore m m'

/-- A run is as its documentation has it. -/
structure Deduped (pg : Postgres) (db : MemberTable) (after : MemberTable × ℕ) : Prop where
  /-- The rows that are deleted are the active ones that do not survive. -/
  losers : ∃ survivor : Group → Option AuditedMember,
    (∀ m ∈ db, m.deletedAt = none →
      ∃ s ∈ survivor (pg.groupOf m), Survives pg db (pg.groupOf m) s) ∧
    (∃ stamp : Uuid → Stamp, after.1.rows = db.rows.map fun m =>
      if m.deletedAt = none ∧ some m ≠ survivor (pg.groupOf m) then m.softDeleted (stamp m.id)
      else m) ∧
    after.2 = (db.select fun m =>
      m.deletedAt = none ∧ some m ≠ survivor (pg.groupOf m)).length
  noneLeft : pg.findCaseInsensitiveEmailDuplicates after.1 = []
  again : ∀ stamps, autoDedupe pg stamps after.1 = (after.1, 0)
  owners : ∀ m ∈ db, m.deletedAt = none → m.role = .owner →
    ∃ m' ∈ after.1, m'.customerId = m.customerId ∧ m'.deletedAt = none ∧ m'.role = .owner

/-! ### Deletions -/

section Deletions

variable {pg : Postgres} {stamps : ℕ → Stamp} {db db' db'' : MemberTable} {ids ids' : List Uuid}
  {m : AuditedMember} {g : Group} {losers : List AuditedMember}

/-- The rows with these identifiers are deleted, and nothing else is changed. -/
def Deletes (ids : List Uuid) (db db' : MemberTable) : Prop :=
  ∃ stamp : Uuid → Stamp, db'.rows = db.rows.map fun m =>
    if m.id ∈ ids then m.softDeleted (stamp m.id) else m

theorem Deletes.refl (db : MemberTable) : Deletes [] db db := by
  refine ⟨fun _ => ⟨0, 0⟩, ?_⟩
  simp

theorem Deletes.trans (h : Deletes ids db db') (h' : Deletes ids' db' db'')
    (hdisjoint : ids.Disjoint ids') : Deletes (ids ++ ids') db db'' := by
  obtain ⟨stamp, hrows⟩ := h
  obtain ⟨stamp', hrows'⟩ := h'
  refine ⟨fun id => if id ∈ ids then stamp id else stamp' id, ?_⟩
  rw [hrows', hrows, List.map_map]
  refine List.map_congr_left fun m _ => ?_
  rw [Function.comp_apply]
  by_cases hm : m.id ∈ ids
  · have hnot : m.id ∉ ids' := fun hm' => hdisjoint hm hm'
    rw [if_pos hm, if_pos (List.mem_append_left _ hm)]
    dsimp only
    rw [if_pos hm]
    exact if_neg hnot
  · rw [if_neg hm]
    dsimp only
    rw [if_neg hm]
    by_cases hm' : m.id ∈ ids'
    · rw [if_pos hm', if_pos (List.mem_append_right _ hm')]
    · rw [if_neg hm', if_neg fun hmem => (List.mem_append.mp hmem).elim hm hm']

theorem deletes_softDelete (stamps : ℕ → Stamp) (s : MemberTable × ℕ) (loser : AuditedMember) :
    Deletes [loser.id] s.1 (softDelete stamps s loser).1 := by
  refine ⟨fun _ => stamps s.2, ?_⟩
  refine List.map_congr_left fun m _ => ?_
  simp only [List.mem_singleton]

theorem deletes_foldl_softDelete (stamps : ℕ → Stamp) (s : MemberTable × ℕ)
    (hlosers : (losers.map fun m => m.id).Nodup) :
    Deletes (losers.map fun m => m.id) s.1 (losers.foldl (softDelete stamps) s).1 ∧
      (losers.foldl (softDelete stamps) s).2 = s.2 + losers.length := by
  induction losers generalizing s with
  | nil => exact ⟨Deletes.refl s.1, rfl⟩
  | cons loser losers ih =>
    rw [List.map_cons, List.nodup_cons] at hlosers
    obtain ⟨hdeletes, hcount⟩ := ih (softDelete stamps s loser) hlosers.2
    rw [List.foldl_cons, List.map_cons]
    refine ⟨(deletes_softDelete stamps s loser).trans hdeletes ?_, ?_⟩
    · exact List.singleton_disjoint.mpr hlosers.1
    · rw [hcount, softDelete, List.length_cons]
      omega

theorem listDuplicatesForDedupe_of_deletes (h : Deletes ids db db')
    (hids : ∀ m ∈ db, m.id ∈ ids → pg.groupOf m ≠ g) :
    pg.listDuplicatesForDedupe db' g = pg.listDuplicatesForDedupe db g := by
  obtain ⟨stamp, hrows⟩ := h
  rw [Postgres.listDuplicatesForDedupe, Postgres.listDuplicatesForDedupe]
  congr 1
  rw [Table.select, Table.select, hrows]
  have hrow (rows : List AuditedMember) (hrows : ∀ m ∈ rows, m ∈ db) :
      (rows.map fun m => if m.id ∈ ids then m.softDeleted (stamp m.id) else m).filter
          (fun m => m.deletedAt = none ∧ pg.groupOf m = g) =
        rows.filter fun m => m.deletedAt = none ∧ pg.groupOf m = g := by
    induction rows with
    | nil => rfl
    | cons m rows ih =>
      obtain ⟨hm, hrest⟩ := List.forall_mem_cons.mp hrows
      rw [List.map_cons, List.filter_cons, List.filter_cons, ih hrest]
      by_cases hid : m.id ∈ ids
      · -- neither the row nor what becomes of it is in the group
        have hgroup := hids m hm hid
        rw [if_pos hid, if_neg fun htrue => hgroup (of_decide_eq_true htrue).2,
          if_neg fun htrue => hgroup (of_decide_eq_true htrue).2]
      · rw [if_neg hid]
  exact hrow db.rows fun m hm => hm

end Deletions

/-! ### The loop over the groups -/

section Loop

variable {pg : Postgres} {stamps : ℕ → Stamp} {db db' : MemberTable} {m : AuditedMember}
  {g : Group} {gs : List Group}

/-- The members of a group that do not survive. -/
def losersOf (pg : Postgres) (db : MemberTable) (g : Group) : List AuditedMember :=
  (pg.listDuplicatesForDedupe db g).tail

/-- The rows that are deleted for some groups. -/
def lost (pg : Postgres) (db : MemberTable) (gs : List Group) : List Uuid :=
  gs.flatMap fun g => (losersOf pg db g).map fun m => m.id

theorem mem_listDuplicatesForDedupe : m ∈ pg.listDuplicatesForDedupe db g ↔
    m ∈ db ∧ m.deletedAt = none ∧ pg.groupOf m = g := by
  rw [Postgres.listDuplicatesForDedupe, Sorting.mem_sort, Table.mem_select]

theorem nodup_listDuplicatesForDedupe (pg : Postgres) (db : MemberTable) (g : Group) :
    (pg.listDuplicatesForDedupe db g).Nodup :=
  pg.byRole.nodup_sort (db.nodup_rows.filter _)

theorem of_mem_losersOf (hm : m ∈ losersOf pg db g) :
    m ∈ db ∧ m.deletedAt = none ∧ pg.groupOf m = g :=
  mem_listDuplicatesForDedupe.mp (List.mem_of_mem_tail hm)

theorem nodup_map_losersOf (pg : Postgres) (db : MemberTable) (g : Group) :
    ((losersOf pg db g).map fun m => m.id).Nodup := by
  refine List.Nodup.map_on (fun m hm m' hm' hid => ?_)
    ((nodup_listDuplicatesForDedupe pg db g).sublist (List.tail_sublist _))
  exact Table.eq_of_key_eq (of_mem_losersOf hm).1 (of_mem_losersOf hm').1 hid

theorem dedupeGroup_eq (s : MemberTable × ℕ) :
    dedupeGroup pg stamps s g = (losersOf pg s.1 g).foldl (softDelete stamps) s := by
  rw [dedupeGroup, losersOf]
  split
  next hshort =>
    match hmembers : pg.listDuplicatesForDedupe s.1 g with
    | [] => rfl
    | [_] => rfl
    | _ :: _ :: rest =>
      rw [hmembers, List.length_cons, List.length_cons] at hshort
      omega
  · rfl

theorem groupOf_mem_of_lost (hm : m ∈ db) (hlost : m.id ∈ lost pg db gs) :
    pg.groupOf m ∈ gs ∧ m ∈ losersOf pg db (pg.groupOf m) := by
  obtain ⟨g, hg, hid⟩ := List.mem_flatMap.mp hlost
  obtain ⟨m', hm', hsame⟩ := List.mem_map.mp hid
  obtain ⟨hmem, -, rfl⟩ := of_mem_losersOf hm'
  obtain rfl := Table.eq_of_key_eq hmem hm hsame
  exact ⟨hg, hm'⟩

theorem lost_concat (pg : Postgres) (db : MemberTable) (gs : List Group) (g : Group) :
    lost pg db (gs ++ [g]) = lost pg db gs ++ (losersOf pg db g).map fun m => m.id := by
  rw [lost, List.flatMap_append, List.flatMap_singleton]
  rfl

theorem disjoint_lost (hg : g ∉ gs) :
    (lost pg db gs).Disjoint ((losersOf pg db g).map fun m => m.id) := by
  intro id hlost hid
  obtain ⟨m, hm, rfl⟩ := List.mem_map.mp hid
  obtain ⟨hmem, -, rfl⟩ := of_mem_losersOf hm
  exact hg (groupOf_mem_of_lost hmem hlost).1

/-- **The loop** deletes the losers of each group. -/
theorem deletes_foldl_dedupeGroup (hgs : gs.Nodup) :
    Deletes (lost pg db gs) db (gs.foldl (dedupeGroup pg stamps) (db, 0)).1 ∧
      (gs.foldl (dedupeGroup pg stamps) (db, 0)).2 = (lost pg db gs).length := by
  induction gs using List.reverseRecOn with
  | nil => exact ⟨Deletes.refl db, rfl⟩
  | append_singleton gs g ih =>
    rw [← List.concat_eq_append, List.nodup_concat] at hgs
    obtain ⟨hg, hgs⟩ := hgs
    obtain ⟨hdeletes, hcount⟩ := ih hgs
    rw [List.foldl_append, List.foldl_cons, List.foldl_nil, dedupeGroup_eq, lost_concat]
    -- the group is as it was in the beginning
    have hsame : losersOf pg (gs.foldl (dedupeGroup pg stamps) (db, 0)).1 g = losersOf pg db g := by
      rw [losersOf, losersOf, listDuplicatesForDedupe_of_deletes hdeletes]
      rintro m hm hlost rfl
      exact hg (groupOf_mem_of_lost hm hlost).1
    obtain ⟨hmore, hlength⟩ := deletes_foldl_softDelete stamps
      (gs.foldl (dedupeGroup pg stamps) (db, 0)) (nodup_map_losersOf pg db g)
    rw [hsame]
    refine ⟨hdeletes.trans hmore (disjoint_lost hg), ?_⟩
    rw [hlength, hcount, List.length_append, List.length_map]

theorem nodup_lost (hgs : gs.Nodup) : (lost pg db gs).Nodup := by
  induction gs using List.reverseRecOn with
  | nil => exact List.nodup_nil
  | append_singleton gs g ih =>
    rw [← List.concat_eq_append, List.nodup_concat] at hgs
    rw [lost_concat]
    exact (ih hgs.2).append (nodup_map_losersOf pg db g) (disjoint_lost hgs.1)

end Loop

/-! ### The groups -/

section Groups

variable {pg : Postgres} {db : MemberTable} {m : AuditedMember} {g : Group}

/-- The groups with several members. -/
def duplicateGroups (pg : Postgres) (db : MemberTable) : List Group :=
  (pg.findCaseInsensitiveEmailDuplicates db).map Prod.fst

theorem autoDedupe_eq (pg : Postgres) (stamps : ℕ → Stamp) (db : MemberTable) :
    autoDedupe pg stamps db = (duplicateGroups pg db).foldl (dedupeGroup pg stamps) (db, 0) := by
  rw [autoDedupe, duplicateGroups, List.foldl_map]

theorem nodup_duplicateGroups (pg : Postgres) (db : MemberTable) :
    (duplicateGroups pg db).Nodup := by
  rw [duplicateGroups, Postgres.findCaseInsensitiveEmailDuplicates]
  refine ((pg.bySize.perm _).map Prod.fst).nodup_iff.mpr ?_
  refine List.Nodup.sublist (List.filter_sublist.map _) ?_
  rw [List.map_map]
  exact (List.map_id _).symm ▸ List.nodup_dedup _

theorem length_listDuplicatesForDedupe (pg : Postgres) (db : MemberTable) (g : Group) :
    (pg.listDuplicatesForDedupe db g).length =
      ((db.select fun m => m.deletedAt = none).map pg.groupOf).count g := by
  rw [Postgres.listDuplicatesForDedupe, Sorting.length_sort, Table.select, Table.select,
    List.count_eq_countP, List.countP_map, List.countP_filter, ← List.countP_eq_length_filter]
  refine List.countP_congr fun m _ => ?_
  simp [and_comm]

theorem mem_findCaseInsensitiveEmailDuplicates {row : Group × ℕ} :
    row ∈ pg.findCaseInsensitiveEmailDuplicates db ↔
      row.2 = (pg.listDuplicatesForDedupe db row.1).length ∧ 2 ≤ row.2 := by
  obtain ⟨g, n⟩ := row
  rw [Postgres.findCaseInsensitiveEmailDuplicates, Sorting.mem_sort, List.mem_filter,
    List.mem_map, length_listDuplicatesForDedupe]
  constructor
  · rintro ⟨⟨g', -, hrow⟩, hn⟩
    obtain ⟨rfl, rfl⟩ := Prod.mk.inj hrow
    exact ⟨rfl, of_decide_eq_true hn⟩
  · rintro ⟨hcount, hn⟩
    refine ⟨⟨g, List.mem_dedup.mpr ?_, Prod.ext rfl hcount.symm⟩, decide_eq_true hn⟩
    exact List.count_pos_iff.mp (Nat.lt_of_lt_of_le Nat.zero_lt_two (hcount ▸ hn))

theorem mem_duplicateGroups :
    g ∈ duplicateGroups pg db ↔ 2 ≤ (pg.listDuplicatesForDedupe db g).length := by
  rw [duplicateGroups, List.mem_map]
  constructor
  · rintro ⟨row, hrow, rfl⟩
    obtain ⟨hcount, htwo⟩ := mem_findCaseInsensitiveEmailDuplicates.mp hrow
    exact hcount ▸ htwo
  · exact fun h => ⟨(g, _), mem_findCaseInsensitiveEmailDuplicates.mpr ⟨rfl, h⟩, rfl⟩

theorem id_mem_lost_iff (hm : m ∈ db) :
    m.id ∈ lost pg db (duplicateGroups pg db) ↔ m ∈ losersOf pg db (pg.groupOf m) := by
  constructor
  · exact fun h => (groupOf_mem_of_lost hm h).2
  · intro h
    refine List.mem_flatMap.mpr ⟨pg.groupOf m, mem_duplicateGroups.mpr ?_,
      List.mem_map_of_mem h⟩
    have hpos := List.length_pos_of_mem h
    rw [losersOf, List.length_tail] at hpos
    omega

/-- The first row of a group. -/
def survivor (pg : Postgres) (db : MemberTable) (g : Group) : Option AuditedMember :=
  (pg.listDuplicatesForDedupe db g).head?

theorem exists_survivor (hm : m ∈ db) (hactive : m.deletedAt = none) :
    ∃ s ∈ survivor pg db (pg.groupOf m), Survives pg db (pg.groupOf m) s := by
  have hmem : m ∈ pg.listDuplicatesForDedupe db (pg.groupOf m) :=
    mem_listDuplicatesForDedupe.mpr ⟨hm, hactive, rfl⟩
  rw [survivor]
  cases hmembers : pg.listDuplicatesForDedupe db (pg.groupOf m) with
  | nil => exact absurd (hmembers ▸ hmem) List.not_mem_nil
  | cons s rest =>
    have hs : s ∈ pg.listDuplicatesForDedupe db (pg.groupOf m) := hmembers ▸ List.mem_cons_self
    obtain ⟨hsmem, hsactive, hsgroup⟩ := mem_listDuplicatesForDedupe.mp hs
    refine ⟨s, rfl, hsmem, hsactive, hsgroup, fun m' hm' hactive' hgroup' => ?_⟩
    refine pg.byRole.le_of_sort_eq_cons (Lexicographic.refl s) hmembers ?_
    exact Table.mem_select.mpr ⟨hm', hactive', hgroup'⟩

theorem mem_losersOf_iff (hm : m ∈ db) : m ∈ losersOf pg db (pg.groupOf m) ↔
    m.deletedAt = none ∧ some m ≠ survivor pg db (pg.groupOf m) := by
  have hnodup := nodup_listDuplicatesForDedupe pg db (pg.groupOf m)
  have hmem : m ∈ pg.listDuplicatesForDedupe db (pg.groupOf m) ↔ m.deletedAt = none := by
    rw [mem_listDuplicatesForDedupe]
    simp [hm]
  rw [← hmem, losersOf, survivor]
  cases hmembers : pg.listDuplicatesForDedupe db (pg.groupOf m) with
  | nil => simp
  | cons s rest =>
    rw [hmembers, List.nodup_cons] at hnodup
    rw [List.tail_cons, List.head?_cons, List.mem_cons, Ne, Option.some_inj]
    constructor
    · exact fun hrest => ⟨.inr hrest, fun hs => hnodup.1 (hs ▸ hrest)⟩
    · exact fun ⟨h, hne⟩ => h.resolve_left hne

end Groups

/-! ### The outcome -/

section Outcome

variable {pg : Postgres} {stamps : ℕ → Stamp} {db db' : MemberTable} {m : AuditedMember}
  {g : Group}

theorem deletes_autoDedupe (pg : Postgres) (stamps : ℕ → Stamp) (db : MemberTable) :
    Deletes (lost pg db (duplicateGroups pg db)) db (autoDedupe pg stamps db).1 ∧
      (autoDedupe pg stamps db).2 = (lost pg db (duplicateGroups pg db)).length := by
  rw [autoDedupe_eq]
  exact deletes_foldl_dedupeGroup (nodup_duplicateGroups pg db)

theorem exists_rows_autoDedupe (pg : Postgres) (stamps : ℕ → Stamp) (db : MemberTable) :
    ∃ stamp : Uuid → Stamp, (autoDedupe pg stamps db).1.rows = db.rows.map fun m =>
      if m.deletedAt = none ∧ some m ≠ survivor pg db (pg.groupOf m) then
        m.softDeleted (stamp m.id)
      else m := by
  obtain ⟨stamp, hrows⟩ := (deletes_autoDedupe pg stamps db).1
  refine ⟨stamp, hrows.trans (List.map_congr_left fun m hm => ?_)⟩
  simp only [id_mem_lost_iff (Table.mem_def.mpr hm), mem_losersOf_iff (Table.mem_def.mpr hm)]

theorem snd_autoDedupe (pg : Postgres) (stamps : ℕ → Stamp) (db : MemberTable) :
    (autoDedupe pg stamps db).2 = (db.select fun m =>
      m.deletedAt = none ∧ some m ≠ survivor pg db (pg.groupOf m)).length := by
  rw [(deletes_autoDedupe pg stamps db).2]
  have hids : ((db.select fun m => m.deletedAt = none ∧
      some m ≠ survivor pg db (pg.groupOf m)).map fun m => m.id).Perm
        (lost pg db (duplicateGroups pg db)) := by
    -- the identifiers of both lists differ, and they are the same ones
    refine (List.perm_ext_iff_of_nodup ?_ (nodup_lost (nodup_duplicateGroups pg db))).mpr
      fun id => ?_
    · exact db.nodup.sublist (List.filter_sublist.map _)
    · constructor
      · intro hid
        obtain ⟨m, hm, rfl⟩ := List.mem_map.mp hid
        obtain ⟨hmem, hloser⟩ := Table.mem_select.mp hm
        exact (id_mem_lost_iff hmem).mpr ((mem_losersOf_iff hmem).mpr hloser)
      · intro hid
        obtain ⟨g, -, hg⟩ := List.mem_flatMap.mp hid
        obtain ⟨m, hm, rfl⟩ := List.mem_map.mp hg
        obtain ⟨hmem, -, rfl⟩ := of_mem_losersOf hm
        exact List.mem_map_of_mem (Table.mem_select.mpr ⟨hmem, (mem_losersOf_iff hmem).mp hm⟩)
  rw [← hids.length_eq, List.length_map]

theorem mem_autoDedupe_iff (hactive : m.deletedAt = none) :
    m ∈ (autoDedupe pg stamps db).1 ↔ m ∈ db ∧ survivor pg db (pg.groupOf m) = some m := by
  obtain ⟨stamp, hrows⟩ := exists_rows_autoDedupe pg stamps db
  rw [Table.mem_def, hrows, List.mem_map]
  constructor
  · rintro ⟨m', hm', rfl⟩
    split at hactive
    · exact absurd hactive (Option.some_ne_none _)
    next hkept =>
      rw [if_neg hkept]
      rw [not_and, Ne, not_not] at hkept
      exact ⟨hm', (hkept hactive).symm⟩
  · rintro ⟨hm, hsurvives⟩
    exact ⟨m, hm, if_neg fun hloser => hloser.2 hsurvives.symm⟩

theorem length_listDuplicatesForDedupe_autoDedupe (pg : Postgres) (stamps : ℕ → Stamp)
    (db : MemberTable) (g : Group) :
    (pg.listDuplicatesForDedupe (autoDedupe pg stamps db).1 g).length ≤ 1 := by
  have hnodup := nodup_listDuplicatesForDedupe pg (autoDedupe pg stamps db).1 g
  have hsame : ∀ m ∈ pg.listDuplicatesForDedupe (autoDedupe pg stamps db).1 g,
      survivor pg db g = some m := by
    intro m hm
    obtain ⟨hmem, hactive, rfl⟩ := mem_listDuplicatesForDedupe.mp hm
    exact ((mem_autoDedupe_iff hactive).mp hmem).2
  -- two members would both be the survivor of the group
  match hmembers : pg.listDuplicatesForDedupe (autoDedupe pg stamps db).1 g with
  | [] => exact Nat.zero_le 1
  | [_] => exact Nat.le_refl 1
  | m :: m' :: rest =>
    rw [hmembers] at hnodup hsame
    have hm := hsame m List.mem_cons_self
    have hm' := hsame m' (List.mem_cons_of_mem m List.mem_cons_self)
    have hne : m ≠ m' := fun h => (List.nodup_cons.mp hnodup).1 (h ▸ List.mem_cons_self)
    exact absurd (Option.some.inj (hm.symm.trans hm')) hne

theorem findCaseInsensitiveEmailDuplicates_autoDedupe (pg : Postgres) (stamps : ℕ → Stamp)
    (db : MemberTable) :
    pg.findCaseInsensitiveEmailDuplicates (autoDedupe pg stamps db).1 = [] := by
  refine List.eq_nil_iff_forall_not_mem.mpr fun row hrow => ?_
  obtain ⟨hcount, htwo⟩ := mem_findCaseInsensitiveEmailDuplicates.mp hrow
  have hone := length_listDuplicatesForDedupe_autoDedupe pg stamps db row.1
  omega

theorem role_eq_owner (h : ComesBefore m m') (hm' : m'.role = .owner) : m.role = .owner := by
  rw [ComesBefore, Lexicographic, hm'] at h
  cases hrole : m.role with
  | owner => rfl
  | billingManager =>
    rw [hrole] at h
    simp [rolePriority] at h
  | member =>
    rw [hrole] at h
    simp [rolePriority] at h

/-- **Deduplication.** The active members that do not survive in their group are soft-deleted, and
they are counted; the finder finds nothing afterwards, a second run does nothing, and no customer
loses its owner. -/
theorem deduped_autoDedupe (pg : Postgres) (stamps : ℕ → Stamp) (db : MemberTable) :
    Deduped pg db (autoDedupe pg stamps db) := by
  have hnone := findCaseInsensitiveEmailDuplicates_autoDedupe pg stamps db
  refine ⟨⟨survivor pg db, fun m hm hactive => exists_survivor hm hactive,
    exists_rows_autoDedupe pg stamps db, snd_autoDedupe pg stamps db⟩, hnone, ?_, ?_⟩
  · intro stamps
    rw [autoDedupe, hnone]
    rfl
  · intro m hm hactive howner
    obtain ⟨s, hs, hsurvives⟩ := @exists_survivor pg db m hm hactive
    have hcustomer : s.customerId = m.customerId := congrArg Prod.fst hsurvives.groupOf_eq
    refine ⟨s, (mem_autoDedupe_iff hsurvives.active).mpr ⟨hsurvives.mem, ?_⟩, hcustomer,
      hsurvives.active, role_eq_owner (hsurvives.first m hm hactive rfl) howner⟩
    rw [hsurvives.groupOf_eq]
    exact hs

/-- A database that keeps the order of rows that compare equal. -/
def stable : Postgres where
  lower email := String.ofList (email.toList.map Char.toLower)
  byRole := .stable _ _
  bySize := .stable _ _

/-- Two members of a customer with one email. -/
def annTwice : MemberTable where
  rows := [
    { id := 1, customerId := 1, workspaceId := 1, email := "Ann@example.com", createdAt := 10 },
    { id := 2, customerId := 1, workspaceId := 1, email := "ann@example.com", role := .owner,
      createdAt := 20 }]
  nodup := by decide

/-- A deletion is also noted in `modified_at`. -/
theorem modifiedAt_autoDedupe_annTwice :
    ¬∀ (pg : Postgres) (stamps : ℕ → Stamp) (db : MemberTable), ∀ m ∈ db,
      ∀ m' ∈ (autoDedupe pg stamps db).1, m'.id = m.id →
        { m' with deletedAt := m.deletedAt } = m := by
  intro h
  have hrow := h stable (fun _ => ⟨30, 31⟩) annTwice
    { id := 1, customerId := 1, workspaceId := 1, email := "Ann@example.com", createdAt := 10 }
    (by decide +kernel)
    { id := 1, customerId := 1, workspaceId := 1, email := "Ann@example.com", createdAt := 10
      deletedAt := some 30, modifiedAt := some 31 }
    (by decide +kernel) rfl
  exact absurd (congrArg AuditedMember.modifiedAt hrow) (by decide)

end Outcome

end Rapidly.Identity.Members.Deduplication
