import Rapidly.FileSharing.Payments.PaidIndex

/-!
# Complete listings of paid items

An indexed item is covered as long as the index of its workspace names it and lives at least as
long as the item. Two things break this. `list_paid_secrets` looks for every item under the
prefix of text secrets, so that it takes a file secret for gone and removes it from the index.
And the time to live of the index is read before the transaction that sets it, in whole seconds,
so that a concurrent call may shorten it, or a rounded value keep it from being extended.

`listingsComplete` is the outline argument that nothing else does: in every run that is safe in
these two respects, listings name every indexed item that is still alive, and remove only items
that are not.
-/

namespace Rapidly.FileSharing.Payments.PaidIndex

open KeyValue Transition Transition.System

/-- The item is stored and has not expired. -/
def State.Alive (s : State) (key : Kind × String) : Prop := (s.items.entryAt s.now key).isSome

instance (s : State) (key : Kind × String) : Decidable (s.Alive key) :=
  inferInstanceAs (Decidable (_ = true))

/-- The item that an observation puts into the index of the workspace. -/
def Output.indexedIn? (workspaceId : String) : Output → Option (Kind × String)
  | .indexed workspaceId' kind itemId =>
    if workspaceId' = workspaceId then some (kind, itemId) else none
  | _ => none

/-- The items that have been put into the index of the workspace. -/
def indexedItems (log : List Output) (workspaceId : String) : List (Kind × String) :=
  log.filterMap (Output.indexedIn? workspaceId)

theorem mem_indexedItems {log : List Output} {workspaceId : String} {key : Kind × String} :
    key ∈ indexedItems log workspaceId ↔ .indexed workspaceId key.1 key.2 ∈ log := by
  rw [indexedItems, List.mem_filterMap]
  refine ⟨fun ⟨o, ho, h⟩ => ?_, fun h => ⟨_, h, if_pos rfl⟩⟩
  rcases o with ⟨workspaceId', kind, itemId⟩ | _ | _ | _
  case indexed =>
    rw [Output.indexedIn?] at h
    split at h
    next hworkspace =>
      obtain rfl := Option.some_inj.mp h
      exact hworkspace ▸ ho
    next => cases h
  all_goals cases h

/-! ### The property -/

/-- A listing that is returned in this step names every item, of either kind, that was in the
index of the workspace before the listing began and is still alive. -/
def ListsAlive : Condition (Pool State Call) (Turn Event Outcome) := fun past p l =>
  ∀ i workspaceId result, .listed i workspaceId result ∈ (calls.system.step p l).2 →
    ∀ key : Kind × String,
      Precedes (calls.system.log past) (.indexed workspaceId key.1 key.2) (.asked i) →
      p.shared.Alive key → ∃ entry ∈ result, entry.id = key.2

/-- What a listing removes from the index in this step is alive as neither kind. -/
def PrunesDead : Condition (Pool State Call) (Turn Event Outcome) := fun _ p l =>
  ∀ i staleKeys, .pruned i staleKeys ∈ (calls.system.step p l).2 →
    ∀ itemId ∈ staleKeys, ∀ kind, ¬p.shared.Alive (kind, itemId)

/-! ### The condition -/

/-- No item of the workspace lives longer than the time to live that the index is given. -/
def ExtendsIndex (log : List Output) (s : State) (workspaceId : String) (expiration : ℕ) : Prop :=
  ∀ key ∈ indexedItems log workspaceId, s.items.ExpiresWithin key s.now expiration

/-- The item does not live longer than the index does already. -/
def FitsIndex (s : State) (workspaceId : String) (key : Kind × String) : Prop :=
  ∀ expiry ∈ (s.index.entryAt s.now workspaceId).bind Entry.expiresAt,
    ∀ e ∈ s.items.entryAt s.now key, ∃ time ∈ e.expiresAt, time ≤ expiry

instance (log : List Output) (s : State) (workspaceId : String) (expiration : ℕ) :
    Decidable (ExtendsIndex log s workspaceId expiration) :=
  inferInstanceAs (Decidable (∀ key ∈ indexedItems log workspaceId, _))

instance (s : State) (workspaceId : String) (key : Kind × String) :
    Decidable (FitsIndex s workspaceId key) :=
  inferInstanceAs (Decidable (∀ expiry ∈ (s.index.entryAt s.now workspaceId).bind _, _))

/-- The next command of the call is safe. A call that indexes an item leaves an index that lives
as long as the items in it, whether it sets a time to live or not; and a listing does not check
for a file secret. -/
def Call.Safe (log : List Output) (s : State) : Call → Prop
  | .indexing kind workspaceId entry expiration currentTtl =>
    (currentTtl < expiration → ExtendsIndex log s workspaceId expiration) ∧
      (¬currentTtl < expiration → FitsIndex s workspaceId (kind, entry.id))
  | .checking _ entries => ∀ e ∈ entries, ¬s.Alive (.file, e.1)
  | _ => True

instance (log : List Output) (s : State) : ∀ call : Call, Decidable (call.Safe log s)
  | .indexing .. => inferInstanceAs (Decidable ((_ → _) ∧ (_ → _)))
  | .checking _ entries => inferInstanceAs (Decidable (∀ e ∈ entries, _))
  | .readingTtl .. => isTrue trivial
  | .gettingAll _ => isTrue trivial
  | .pruning .. => isTrue trivial
  | .finished => isTrue trivial

/-- A command that is executed is safe. -/
def SafeStep : Condition (Pool State Call) (Turn Event Outcome) := fun past p l =>
  match l with
  | .resumed i .executed => ∀ call ∈ p.tasks[i]?, call.Safe (calls.system.log past) p.shared
  | _ => True

instance (past : List (Turn Event Outcome)) (p : Pool State Call) :
    ∀ l, Decidable (SafeStep past p l)
  | .resumed i .executed => inferInstanceAs (Decidable (∀ call ∈ p.tasks[i]?, _))
  | .resumed _ .raised => isTrue trivial
  | .event _ => isTrue trivial

/-! ### Items only disappear -/

/-- Time passes, and of the items whose identifiers have been drawn some disappear. -/
structure Ages (s s' : State) : Prop where
  later : s.now ≤ s'.now
  drawn : ∀ itemId ∈ s.uuids, itemId ∈ s'.uuids
  items : ∀ key : Kind × String, key.2 ∈ s.uuids →
    ∀ e ∈ s'.items.entryAt s'.now key, e ∈ s.items.entryAt s.now key

variable {s s' : State} {log obs : List Output} {i : ℕ} {call : Call} {workspaceId : String}
variable {key : Kind × String}

theorem Ages.alive (h : Ages s s') (key : Kind × String) (hkey : key.2 ∈ s.uuids)
    (halive : s'.Alive key) : s.Alive key := by
  obtain ⟨e, he⟩ := Option.isSome_iff_exists.mp halive
  have hold := h.items key hkey e he
  rw [State.Alive, Option.mem_def.mp hold]
  rfl

theorem Ages.expiresWithin (h : Ages s s') (key : Kind × String) (hkey : key.2 ∈ s.uuids)
    {seconds : ℕ} (hexpires : s.items.ExpiresWithin key s.now seconds) :
    s'.items.ExpiresWithin key s'.now seconds := by
  intro e he
  obtain ⟨expiry, hexpiry, hle⟩ := hexpires e (h.items key hkey e he)
  have hlater := h.later
  exact ⟨expiry, hexpiry, by omega⟩

theorem ages_arrive (s : State) (i : ℕ) (e : Event) :
    Ages s (arrive s i e).1 ∧ (arrive s i e).1.index = s.index := by
  rcases e with ⟨kind, itemId, expiration, secret⟩ | ⟨kind, itemId⟩ | workspaceId | milliseconds
  · rw [arrive]
    split
    · exact ⟨⟨le_rfl, fun _ h => h, fun _ _ _ h => h⟩, rfl⟩
    next hfresh =>
      refine ⟨⟨le_rfl, fun _ => List.mem_cons_of_mem _, fun key hkey e he => ?_⟩, rfl⟩
      have hne : key ≠ (kind, itemId) := by
        rintro rfl
        exact hfresh hkey
      rwa [Store.entryAt_setex_of_ne hne] at he
  · refine ⟨⟨le_rfl, fun _ h => h, fun key _ e he => ?_⟩, rfl⟩
    by_cases hkey : key = (kind, itemId)
    · subst hkey
      rw [arrive, Store.entryAt_delete_self] at he
      cases he
    · rwa [arrive, Store.entryAt_delete_of_ne hkey] at he
  · exact ⟨⟨le_rfl, fun _ h => h, fun _ _ _ h => h⟩, rfl⟩
  · refine ⟨⟨Nat.le_add_right .., fun _ h => h, fun key _ e he => ?_⟩, rfl⟩
    rw [arrive, Store.entryAt_of_le (Nat.le_add_right ..)] at he
    exact (Option.filter_eq_some_iff.mp he).1

theorem ages_advance (s : State) (i : ℕ) (outcome : Outcome) (call : Call) :
    Ages s (advance s i outcome call).1 := by
  have hsame (index) : Ages s { s with index } :=
    ⟨le_rfl, fun _ h => h, fun _ _ _ h => h⟩
  rcases outcome with _ | _
  case raised => exact hsame s.index
  rcases call with _ | _ | workspaceId | ⟨workspaceId, entries⟩ | _ | _
  case gettingAll =>
    rw [advance, execute]
    split <;> exact hsame s.index
  case checking =>
    rw [advance, execute]
    split <;> exact hsame s.index
  all_goals exact hsame _

/-! ### Coverage -/

/-- As long as the item is alive, the index of the workspace is there and names it. -/
def Covered (s : State) (workspaceId : String) (key : Kind × String) : Prop :=
  ∀ e' ∈ s.items.entryAt s.now key, ∃ e ∈ s.index.entryAt s.now workspaceId,
    key.2 ∈ e.value.map Prod.fst ∧ ∀ time, e'.liveAt time → e.liveAt time

theorem Covered.ages (h : Covered s workspaceId key) (hages : Ages s s') (hkey : key.2 ∈ s.uuids)
    (hindex : s'.index = s.index) : Covered s' workspaceId key := by
  intro e' he'
  obtain ⟨e, he, hnamed, hlonger⟩ := h e' (hages.items key hkey e' he')
  refine ⟨e, ?_, hnamed, hlonger⟩
  rw [hindex, Store.entryAt_of_le hages.later, Option.mem_def.mp he]
  exact Option.filter_eq_some_iff.mpr ⟨rfl, hlonger _ (Store.liveAt_of_entryAt he')⟩

theorem Covered.congr (h : Covered s workspaceId key) (hnow : s'.now = s.now)
    (hitems : s'.items = s.items)
    (hindex : s'.index.entryAt s.now workspaceId = s.index.entryAt s.now workspaceId) :
    Covered s' workspaceId key := by
  rw [Covered, hnow, hitems, hindex]
  exact h

theorem mem_map_fst_written {fields : List (String × PaidSecretEntry)} {itemId : String}
    (h : itemId ∈ fields.map Prod.fst) (entry : PaidSecretEntry) :
    itemId ∈ (fields.filter (·.1 ≠ entry.id) ++ [(entry.id, entry)]).map Prod.fst := by
  obtain ⟨p, hp, rfl⟩ := List.mem_map.mp h
  rw [List.map_append, List.mem_append]
  by_cases hid : p.1 = entry.id
  · exact .inr (List.mem_singleton.mpr hid)
  · exact .inl (List.mem_map_of_mem (List.mem_filter.mpr ⟨hp, decide_eq_true hid⟩))

theorem entryAt_storeEntry (entry : PaidSecretEntry) (expiration : ℕ) (currentTtl : ℤ) :
    (s.storeEntry workspaceId entry expiration currentTtl).index.entryAt s.now workspaceId =
      some ⟨(s.index.fields s.now workspaceId).filter (·.1 ≠ entry.id) ++ [(entry.id, entry)],
        if currentTtl < expiration then some (s.now + 1000 * expiration)
        else (s.index.entryAt s.now workspaceId).bind Entry.expiresAt⟩ := by
  rw [State.storeEntry]
  split
  · exact Store.entryAt_hset_expire expiration
  · exact Store.entryAt_hset_self

theorem entryAt_storeEntry_of_ne {workspaceId' : String} (h : workspaceId' ≠ workspaceId)
    (entry : PaidSecretEntry) (expiration : ℕ) (currentTtl : ℤ) :
    (s.storeEntry workspaceId entry expiration currentTtl).index.entryAt s.now workspaceId' =
      s.index.entryAt s.now workspaceId' := by
  rw [State.storeEntry]
  split
  · rw [Store.entryAt_expire_of_ne h, Store.entryAt_hset_of_ne h]
  · rw [Store.entryAt_hset_of_ne h]

variable {entry : PaidSecretEntry} {expiration : ℕ} {currentTtl : ℤ} {staleKeys : List String}

theorem Covered.storeEntry (h : Covered s workspaceId key)
    (hextends : currentTtl < expiration → s.items.ExpiresWithin key s.now expiration) :
    Covered (s.storeEntry workspaceId entry expiration currentTtl) workspaceId key := by
  intro e' he'
  have halive : e' ∈ s.items.entryAt s.now key := he'
  obtain ⟨e, he, hnamed, hlonger⟩ := h e' halive
  refine ⟨_, entryAt_storeEntry entry expiration currentTtl, ?_, fun time hlive => ?_⟩
  · rw [Store.fields_of_entryAt he]
    exact mem_map_fst_written hnamed entry
  · rw [Entry.liveAt]
    split
    next hlt =>
      obtain ⟨expiry, hexpiry, hle⟩ := hextends hlt e' halive
      rw [Entry.liveAt, Option.mem_def.mp hexpiry] at hlive
      have htime : time ≤ expiry := of_decide_eq_true hlive
      exact decide_eq_true (htime.trans hle)
    next =>
      rw [Option.mem_def.mp he]
      exact hlonger time hlive

theorem covered_storeEntry {kind : Kind}
    (hown : s.items.ExpiresWithin (kind, entry.id) s.now expiration)
    (hfits : ¬currentTtl < expiration → FitsIndex s workspaceId (kind, entry.id)) :
    Covered (s.storeEntry workspaceId entry expiration currentTtl) workspaceId
      (kind, entry.id) := by
  intro e' he'
  have halive : e' ∈ s.items.entryAt s.now (kind, entry.id) := he'
  refine ⟨_, entryAt_storeEntry entry expiration currentTtl, ?_, fun time hlive => ?_⟩
  · rw [List.map_append]
    exact List.mem_append_right _ (List.mem_singleton_self _)
  · have hwithin {expiry : ℕ} (hexpiry : expiry ∈ e'.expiresAt) : time ≤ expiry := by
      rw [Entry.liveAt, Option.mem_def.mp hexpiry] at hlive
      exact of_decide_eq_true hlive
    rw [Entry.liveAt]
    split
    next hlt =>
      obtain ⟨expiry, hexpiry, hle⟩ := hown e' halive
      exact decide_eq_true ((hwithin hexpiry).trans hle)
    next hlt =>
      rcases hbound : (s.index.entryAt s.now workspaceId).bind Entry.expiresAt with _ | bound
      · rfl
      · obtain ⟨expiry, hexpiry, hle⟩ := hfits hlt bound hbound e' halive
        exact decide_eq_true ((hwithin hexpiry).trans hle)

theorem Covered.prune (h : Covered s workspaceId key) {workspaceId' : String}
    (hstale : s.Alive key → key.2 ∉ staleKeys) :
    Covered { s with index := s.index.hdelAll s.now workspaceId' staleKeys } workspaceId key := by
  by_cases hworkspace : workspaceId = workspaceId'
  · subst hworkspace
    intro e' he'
    have halive : e' ∈ s.items.entryAt s.now key := he'
    have hnot : key.2 ∉ staleKeys := by
      refine hstale ?_
      rw [State.Alive, Option.mem_def.mp halive]
      rfl
    obtain ⟨e, he, hnamed, hlonger⟩ := h e' halive
    obtain ⟨p, hp, hkey⟩ := List.mem_map.mp hnamed
    obtain ⟨left, hleft, hpleft, hexpires⟩ :=
      Store.exists_entryAt_hdelAll he hp (hkey ▸ hnot)
    refine ⟨left, hleft, List.mem_map.mpr ⟨p, hpleft, hkey⟩, fun time hlive => ?_⟩
    rw [Entry.liveAt, hexpires]
    exact hlonger time hlive
  · exact h.congr rfl rfl (Store.entryAt_hdelAll_of_ne hworkspace staleKeys)

/-! ### The assertions -/

/-- The stores: what is in an index is covered, and identifiers are drawn once. -/
structure Keeps (log : List Output) (s : State) : Prop where
  covered : ∀ workspaceId (key : Kind × String), .indexed workspaceId key.1 key.2 ∈ log →
    Covered s workspaceId key
  drawn : s.items.Forall fun key _ => key.2 ∈ s.uuids
  indexed : ∀ workspaceId (key : Kind × String), .indexed workspaceId key.1 key.2 ∈ log →
    key.2 ∈ s.uuids
  named : s.index.Forall fun _ fields => ∀ p ∈ fields, p.2.id = p.1 ∧ p.1 ∈ s.uuids

/-- What a call knows between its commands: the item it indexes expires in time, and the listing
it makes has every item that was indexed before and is alive. -/
def Knows (log : List Output) (s : State) (i : ℕ) : Call → Prop
  | .readingTtl kind _ itemId _ expiration =>
    itemId ∈ s.uuids ∧ s.items.ExpiresWithin (kind, itemId) s.now expiration
  | .indexing kind _ entry expiration _ =>
    entry.id ∈ s.uuids ∧ s.items.ExpiresWithin (kind, entry.id) s.now expiration
  | .checking workspaceId entries =>
    (∀ p ∈ entries, p.2.id = p.1 ∧ p.1 ∈ s.uuids) ∧
      ∀ key : Kind × String, Precedes log (.indexed workspaceId key.1 key.2) (.asked i) →
        s.Alive key → key.2 ∈ entries.map Prod.fst
  | .pruning workspaceId result staleKeys =>
    (∀ itemId ∈ staleKeys, itemId ∈ s.uuids ∧ ∀ kind, ¬s.Alive (kind, itemId)) ∧
      ∀ key : Kind × String, Precedes log (.indexed workspaceId key.1 key.2) (.asked i) →
        s.Alive key → ∃ entry ∈ result, entry.id = key.2
  | _ => True

theorem Knows.ages (h : Knows log s i call) (hkeeps : Keeps log s) (hages : Ages s s')
    (hobs : .asked i ∉ obs) : Knows (log ++ obs) s' i call := by
  have hprecedes {workspaceId : String} {key : Kind × String}
      (hkey : Precedes (log ++ obs) (.indexed workspaceId key.1 key.2) (.asked i)) :
      Precedes log (.indexed workspaceId key.1 key.2) (.asked i) ∧ key.2 ∈ s.uuids := by
    have hold := (precedes_append hobs).mp hkey
    exact ⟨hold, hkeeps.indexed _ _ hold.mem⟩
  rcases call with ⟨kind, _, itemId, _, expiration⟩ | ⟨kind, _, entry, expiration, _⟩ | _ |
    ⟨workspaceId, entries⟩ | ⟨workspaceId, result, staleKeys⟩ | _
  case readingTtl =>
    exact ⟨hages.drawn _ h.1, hages.expiresWithin (kind, itemId) h.1 h.2⟩
  case indexing =>
    exact ⟨hages.drawn _ h.1, hages.expiresWithin (kind, entry.id) h.1 h.2⟩
  case checking =>
    refine ⟨fun p hp => ⟨(h.1 p hp).1, hages.drawn _ (h.1 p hp).2⟩, fun key hkey halive => ?_⟩
    obtain ⟨hold, hdrawn⟩ := hprecedes hkey
    exact h.2 key hold (hages.alive key hdrawn halive)
  case pruning =>
    refine ⟨fun itemId hitem => ?_, fun key hkey halive => ?_⟩
    · obtain ⟨hdrawn, hdead⟩ := h.1 itemId hitem
      exact ⟨hages.drawn _ hdrawn, fun kind halive =>
        hdead kind (hages.alive (kind, itemId) hdrawn halive)⟩
    · obtain ⟨hold, hdrawn⟩ := hprecedes hkey
      exact h.2 key hold (hages.alive key hdrawn halive)
  all_goals trivial

theorem Keeps.ages (h : Keeps log s) (hages : Ages s s') (hindex : s'.index = s.index)
    (hdrawn : s'.items.Forall fun key _ => key.2 ∈ s'.uuids)
    (hobs : ∀ workspaceId kind itemId, .indexed workspaceId kind itemId ∉ obs) :
    Keeps (log ++ obs) s' := by
  have hold {workspaceId : String} {key : Kind × String}
      (hmem : .indexed workspaceId key.1 key.2 ∈ log ++ obs) :
      .indexed workspaceId key.1 key.2 ∈ log :=
    (List.mem_append.mp hmem).resolve_right (hobs _ _ _)
  refine ⟨fun workspaceId key hmem => ?_, hdrawn, fun workspaceId key hmem => ?_, ?_⟩
  · exact (h.covered _ _ (hold hmem)).ages hages (h.indexed _ _ (hold hmem)) hindex
  · exact hages.drawn _ (h.indexed _ _ (hold hmem))
  · rw [hindex]
    exact h.named.mono fun _ _ hfields p hp => ⟨(hfields p hp).1, hages.drawn _ (hfields p hp).2⟩

theorem Keeps.storeEntry (h : Keeps log s) {kind : Kind}
    (hcall : Knows log s i (.indexing kind workspaceId entry expiration currentTtl))
    (hsafe : (Call.indexing kind workspaceId entry expiration currentTtl).Safe log s) :
    Keeps (log ++ [.indexed workspaceId kind entry.id])
      (s.storeEntry workspaceId entry expiration currentTtl) := by
  have hmem {workspaceId' : String} {key : Kind × String}
      (hkey : .indexed workspaceId' key.1 key.2 ∈ log ++ [.indexed workspaceId kind entry.id]) :
      .indexed workspaceId' key.1 key.2 ∈ log ∨
        workspaceId' = workspaceId ∧ key = (kind, entry.id) := by
    refine (List.mem_append.mp hkey).imp_right fun hnew => ?_
    obtain ⟨hworkspace, hkind, hid⟩ := Output.indexed.inj (List.mem_singleton.mp hnew)
    exact ⟨hworkspace, Prod.ext hkind hid⟩
  refine ⟨fun workspaceId' key hkey => ?_, h.drawn, fun workspaceId' key hkey => ?_, ?_⟩
  · rcases hmem hkey with hold | ⟨rfl, rfl⟩
    · by_cases hworkspace : workspaceId' = workspaceId
      · subst hworkspace
        refine (h.covered _ _ hold).storeEntry fun hlt => hsafe.1 hlt key ?_
        exact mem_indexedItems.mpr hold
      · exact (h.covered _ _ hold).congr rfl rfl (entryAt_storeEntry_of_ne hworkspace ..)
    · exact covered_storeEntry hcall.2 hsafe.2
  · rcases hmem hkey with hold | ⟨rfl, rfl⟩
    · exact h.indexed _ _ hold
    · exact hcall.1
  · have hnamed : (s.index.hset s.now workspaceId entry.id entry).Forall fun _ fields =>
        ∀ p ∈ fields, p.2.id = p.1 ∧ p.1 ∈ s.uuids := h.named.hset ⟨rfl, hcall.1⟩
    rw [State.storeEntry]
    split
    · exact hnamed.expire
    · exact hnamed

theorem Keeps.prune (h : Keeps log s) {result : List PaidSecretEntry}
    (hcall : Knows log s i (.pruning workspaceId result staleKeys))
    (hobs : ∀ workspaceId kind itemId, .indexed workspaceId kind itemId ∉ obs) :
    Keeps (log ++ obs) { s with index := s.index.hdelAll s.now workspaceId staleKeys } := by
  have hold {workspaceId : String} {key : Kind × String}
      (hmem : .indexed workspaceId key.1 key.2 ∈ log ++ obs) :
      .indexed workspaceId key.1 key.2 ∈ log :=
    (List.mem_append.mp hmem).resolve_right (hobs _ _ _)
  refine ⟨fun workspaceId' key hmem => ?_, h.drawn, fun _ _ hmem => h.indexed _ _ (hold hmem),
    h.named.hdelAll staleKeys⟩
  refine (h.covered _ _ (hold hmem)).prune fun halive hstale => ?_
  exact (hcall.1 key.2 hstale).2 key.1 halive

/-! ### What a listing finds -/

theorem Keeps.mem_fields (h : Keeps log s) (hindexed : .indexed workspaceId key.1 key.2 ∈ log)
    (halive : s.Alive key) : key.2 ∈ (s.index.fields s.now workspaceId).map Prod.fst := by
  obtain ⟨e', he'⟩ := Option.isSome_iff_exists.mp halive
  obtain ⟨e, he, hnamed, -⟩ := h.covered _ _ hindexed e' he'
  rwa [Store.fields_of_entryAt he]

theorem Keeps.named_fields (h : Keeps log s) :
    ∀ p ∈ s.index.fields s.now workspaceId, p.2.id = p.1 ∧ p.1 ∈ s.uuids := by
  intro p hp
  obtain ⟨e, he, hpe⟩ := Store.exists_entryAt_of_mem hp
  exact h.named _ e (Store.entryAt_eq_some he) p hpe

theorem isSome_get_iff (s : State) (itemId : String) :
    (s.items.get s.now (.secret, itemId)).isSome ↔ s.Alive (.secret, itemId) := by
  rw [Store.get, Option.isSome_map, State.Alive]

/-- The listing that a call makes of its entries, if there is no file secret among them. -/
theorem Knows.check {entries : List (String × PaidSecretEntry)}
    (h : Knows log s i (.checking workspaceId entries))
    (hsafe : (Call.checking workspaceId entries).Safe log s) :
    Knows log s i (.pruning workspaceId
      ((entries.filter fun e => (s.items.get s.now (.secret, e.1)).isSome).map Prod.snd)
      ((entries.filter fun e => !(s.items.get s.now (.secret, e.1)).isSome).map Prod.fst)) := by
  refine ⟨fun itemId hstale => ?_, fun key hkey halive => ?_⟩
  · obtain ⟨p, hp, rfl⟩ := List.mem_map.mp hstale
    obtain ⟨hmem, hgone⟩ := List.mem_filter.mp hp
    refine ⟨(h.1 p hmem).2, fun kind halive => ?_⟩
    rcases kind with _ | _
    · rw [(isSome_get_iff s p.1).mpr halive] at hgone
      cases hgone
    · exact hsafe p hmem halive
  · obtain ⟨p, hp, hid⟩ := List.mem_map.mp (h.2 key hkey halive)
    obtain ⟨kind, itemId⟩ := key
    obtain rfl : p.1 = itemId := hid
    rcases kind with _ | _
    · have hthere := (isSome_get_iff s p.1).mpr halive
      exact ⟨p.2, List.mem_map_of_mem (List.mem_filter.mpr ⟨hp, hthere⟩), (h.1 p hp).1⟩
    · exact absurd halive (hsafe p hp)

/-- No command begins a listing, and only the transaction of a call indexes an item. -/
theorem obs_execute (s : State) (i : ℕ) (call : Call) :
    (∀ j, .asked j ∉ (execute s i call).2.2) ∧
      ∀ workspaceId kind itemId, .indexed workspaceId kind itemId ∈ (execute s i call).2.2 →
        ∃ entry expiration currentTtl,
          call = .indexing kind workspaceId entry expiration currentTtl := by
  rcases call with _ | ⟨kind, workspaceId, entry, expiration, currentTtl⟩ | workspaceId |
    ⟨workspaceId, entries⟩ | _ | _
  case indexing =>
    refine ⟨by simp [execute], fun workspaceId' kind' itemId hmem => ?_⟩
    obtain ⟨rfl, rfl, -⟩ := Output.indexed.inj (List.mem_singleton.mp hmem)
    exact ⟨entry, expiration, currentTtl, rfl⟩
  case gettingAll =>
    rw [execute]
    split <;> simp
  case checking =>
    rw [execute]
    split <;> simp
  all_goals simp [execute]

theorem Knows.execute (hkeeps : Keeps log s) (h : Knows log s i call) (hsafe : call.Safe log s) :
    Keeps (log ++ (execute s i call).2.2) (execute s i call).1 ∧
      Knows (log ++ (execute s i call).2.2) (execute s i call).1 i (execute s i call).2.1 := by
  have hages := ages_advance s i .executed call
  obtain ⟨hasked, hindexed⟩ := obs_execute s i call
  rcases call with ⟨kind, workspaceId, itemId, secret, expiration⟩ |
    ⟨kind, workspaceId, entry, expiration, currentTtl⟩ | workspaceId | ⟨workspaceId, entries⟩ |
    ⟨workspaceId, result, staleKeys⟩ | _
  case readingTtl =>
    exact ⟨hkeeps.ages hages rfl hkeeps.drawn nofun, h⟩
  case indexing => exact ⟨hkeeps.storeEntry h hsafe, trivial⟩
  case gettingAll =>
    rw [PaidIndex.execute]
    split
    · exact ⟨hkeeps.ages (ages_advance s i .raised .finished) rfl hkeeps.drawn (by simp), trivial⟩
    · refine ⟨hkeeps.ages (ages_advance s i .raised .finished) rfl hkeeps.drawn nofun,
        hkeeps.named_fields, fun key hkey halive => ?_⟩
      rw [List.append_nil] at hkey
      exact hkeeps.mem_fields hkey.mem halive
  case checking =>
    have hnext := h.check hsafe
    rw [PaidIndex.execute]
    split
    · exact ⟨hkeeps.ages (ages_advance s i .raised .finished) rfl hkeeps.drawn (by simp), trivial⟩
    · rw [List.append_nil]
      exact ⟨hkeeps, hnext⟩
  case pruning =>
    refine ⟨hkeeps.prune h fun workspaceId kind itemId hmem => ?_, trivial⟩
    obtain ⟨_, _, _, hcall⟩ := hindexed workspaceId kind itemId hmem
    cases hcall
  case finished => exact ⟨hkeeps.ages hages rfl hkeeps.drawn nofun, trivial⟩

theorem eq_asked_of_mem_arrive {o : Output} {e : Event} (h : o ∈ (arrive s i e).2.2) :
    o = .asked i := by
  rcases e with ⟨kind, itemId, expiration, secret⟩ | _ | _ | _
  case create =>
    rw [arrive] at h
    split at h <;> cases h
  case listPaidSecrets => exact List.mem_singleton.mp h
  all_goals cases h

theorem Keeps.drawn_arrive (h : Keeps log s) (i : ℕ) (e : Event) :
    (arrive s i e).1.items.Forall fun key _ => key.2 ∈ (arrive s i e).1.uuids := by
  rcases e with ⟨kind, itemId, expiration, secret⟩ | ⟨kind, itemId⟩ | _ | _
  · rw [arrive]
    split
    · exact h.drawn
    · exact (h.drawn.mono fun _ _ => List.mem_cons_of_mem _).setex (List.mem_cons_self ..)
  · exact h.drawn.delete
  · exact h.drawn
  · exact h.drawn

theorem knows_started (log : List Output) (i j : ℕ) {e : Event}
    (h : call ∈ (arrive s i e).2.1) : Knows log (arrive s i e).1 j call := by
  rcases e with ⟨kind, itemId, expiration, secret⟩ | ⟨kind, itemId⟩ | workspaceId | _
  · rw [arrive] at h ⊢
    split at h
    next => cases h
    next hfresh =>
      obtain ⟨workspaceId, -, rfl⟩ := List.mem_map.mp h
      rw [if_neg hfresh]
      exact ⟨List.mem_cons_self .., Store.expiresWithin_setex expiration secret⟩
  · cases h
  · obtain rfl := List.mem_singleton.mp h
    trivial
  · cases h

/-- **Complete listings.** The outline for the runs that are safe. -/
theorem listingOutline : calls.Outline SafeStep Keeps Knows where
  init := by
    have hnone (o : Output) : o ∉ [] := List.not_mem_nil
    exact ⟨fun _ _ h => absurd h (hnone _), Store.Forall.empty, fun _ _ h => absurd h (hnone _),
      Store.Forall.empty⟩
  event := by
    intro past p e h _
    obtain ⟨hages, hindex⟩ := ages_arrive p.shared p.tasks.length e
    refine h.shared.ages hages hindex (h.shared.drawn_arrive _ e) fun _ _ _ hmem => ?_
    cases eq_asked_of_mem_arrive hmem
  started := by
    intro past p e h _ k call hk
    exact knows_started _ _ _ (List.mem_of_getElem? hk)
  undisturbed := by
    intro past p e h _ i call hi
    have hlt : i < p.tasks.length := (List.getElem?_eq_some_iff.mp hi).1
    refine (h.task i call hi).ages h.shared (ages_arrive p.shared _ e).1 fun hmem => ?_
    exact Nat.ne_of_lt hlt (Output.asked.inj (eq_asked_of_mem_arrive hmem))
  resumed := by
    intro past p i outcome call h hC hi
    have hcall := h.task i call hi
    rcases outcome with _ | _
    · exact hcall.execute h.shared (hC call hi)
    · exact ⟨h.shared.ages (ages_advance _ i .raised call) rfl h.shared.drawn nofun, trivial⟩
  interferes := by
    intro past p i outcome call h _ _ j other hj _
    refine (h.task j other hj).ages h.shared (ages_advance p.shared i outcome call) ?_
    rcases outcome with _ | _
    · exact (obs_execute p.shared i call).1 j
    · exact List.not_mem_nil

/-! ### Listings are complete -/

theorem listed_mem_advance {j : ℕ} {outcome : Outcome} {result : List PaidSecretEntry}
    (h : .listed j workspaceId result ∈ (advance s i outcome call).2.2) :
    outcome = .executed ∧ j = i ∧
      (call = .gettingAll workspaceId ∧ s.index.fields s.now workspaceId = [] ∨
        (∃ entries, call = .checking workspaceId entries ∧ result =
          (entries.filter fun e => (s.items.get s.now (.secret, e.1)).isSome).map Prod.snd) ∨
        ∃ staleKeys, call = .pruning workspaceId result staleKeys) := by
  rcases outcome with _ | _
  case raised => cases h
  rw [advance] at h
  rcases call with _ | _ | workspaceId' | ⟨workspaceId', entries⟩ |
    ⟨workspaceId', result', staleKeys⟩ | _
  case gettingAll =>
    rw [execute] at h
    split at h
    next hempty =>
      obtain ⟨rfl, rfl, rfl⟩ := Output.listed.inj (List.mem_singleton.mp h)
      exact ⟨rfl, rfl, .inl ⟨rfl, List.isEmpty_iff.mp hempty⟩⟩
    next => cases h
  case checking =>
    rw [execute] at h
    split at h
    · obtain ⟨rfl, rfl, rfl⟩ := Output.listed.inj (List.mem_singleton.mp h)
      exact ⟨rfl, rfl, .inr (.inl ⟨entries, rfl, rfl⟩)⟩
    · cases h
  case pruning =>
    obtain ⟨rfl, rfl, rfl⟩ : j = i ∧ workspaceId = workspaceId' ∧ result = result' := by
      simpa [execute] using h
    exact ⟨rfl, rfl, .inr (.inr ⟨staleKeys, rfl⟩)⟩
  all_goals simp [execute] at h

theorem pruned_mem_advance {j : ℕ} {outcome : Outcome}
    (h : .pruned j staleKeys ∈ (advance s i outcome call).2.2) :
    ∃ workspaceId result, call = .pruning workspaceId result staleKeys := by
  rcases outcome with _ | _
  case raised => cases h
  rw [advance] at h
  rcases call with _ | _ | workspaceId' | ⟨workspaceId', entries⟩ |
    ⟨workspaceId', result', staleKeys'⟩ | _
  case gettingAll =>
    rw [execute] at h
    split at h <;> simp at h
  case checking =>
    rw [execute] at h
    split at h <;> simp at h
  case pruning =>
    obtain ⟨-, rfl⟩ : j = i ∧ staleKeys = staleKeys' := by simpa [execute] using h
    exact ⟨workspaceId', result', rfl⟩
  all_goals simp [execute] at h

theorem listsAlive_of_safe {past : List (Turn Event Outcome)} {p : Pool State Call}
    {l : Turn Event Outcome} (hp : Tasks.Holds Keeps Knows (calls.system.log past) p)
    (hsafe : SafeStep past p l) : ListsAlive past p l := by
  intro i workspaceId result hlisted key hkey halive
  rcases l with e | ⟨j, outcome⟩
  · cases eq_asked_of_mem_arrive hlisted
  · rcases hj : p.tasks[j]? with _ | call
    · rw [Tasks.system_step, Tasks.step_resumed_none hj] at hlisted
      cases hlisted
    · rw [Tasks.system_step, Tasks.step_resumed hj] at hlisted
      obtain ⟨rfl, rfl, ⟨rfl, hempty⟩ | ⟨entries, rfl, rfl⟩ | ⟨staleKeys, rfl⟩⟩ :=
        listed_mem_advance hlisted
      · have hfield := hp.shared.mem_fields hkey.mem halive
        rw [hempty] at hfield
        cases hfield
      · have hchecked := Knows.check (hp.task _ _ hj) (hsafe _ hj)
        exact hchecked.2 key hkey halive
      · exact (hp.task _ _ hj).2 key hkey halive

theorem prunesDead_of_holds {past : List (Turn Event Outcome)} {p : Pool State Call}
    {l : Turn Event Outcome} (hp : Tasks.Holds Keeps Knows (calls.system.log past) p) :
    PrunesDead past p l := by
  intro i staleKeys hpruned itemId hstale kind
  rcases l with e | ⟨j, outcome⟩
  · cases eq_asked_of_mem_arrive hpruned
  · rcases hj : p.tasks[j]? with _ | call
    · rw [Tasks.system_step, Tasks.step_resumed_none hj] at hpruned
      cases hpruned
    · rw [Tasks.system_step, Tasks.step_resumed hj] at hpruned
      obtain ⟨workspaceId, result, rfl⟩ := pruned_mem_advance hpruned
      exact ((hp.task _ _ hj).1 itemId hstale).2 kind

/-- **Complete listings.** In every run whose commands are safe, each listing names every item
that was indexed before the listing began and is still alive, and removes from the index only
items that are not alive any more. -/
theorem listingsComplete (ls : List (Turn Event Outcome)) (h : calls.system.Along SafeStep ls) :
    calls.system.Along ListsAlive ls ∧ calls.system.Along PrunesDead ls :=
  ⟨listingOutline.along_of_along (fun _ _ hp hsafe => listsAlive_of_safe hp hsafe) h,
    listingOutline.along_of_along (fun _ _ hp _ => prunesDead_of_holds hp) h⟩

/-- A paid item for a minute. -/
def paidItem : SecretData where
  message := "m"
  priceCents := some 100
  workspaceId := some "w"

/-- A text secret is put into the index and listed. -/
theorem listingsComplete_textSecret :
    calls.system.Along ListsAlive
        ([.event (.create .secret "a" 60 paidItem), .resumed 0 .executed, .resumed 0 .executed,
          .event (.listPaidSecrets "w"), .resumed 1 .executed, .resumed 1 .executed]) ∧
      calls.system.Along PrunesDead
        ([.event (.create .secret "a" 60 paidItem), .resumed 0 .executed, .resumed 0 .executed,
          .event (.listPaidSecrets "w"), .resumed 1 .executed, .resumed 1 .executed]) :=
  listingsComplete _ (by decide)

/-- A file secret is put into the index, and a listing looks for it. -/
def fileSecretListing : List (Turn Event Outcome) :=
  [.event (.create .file "a" 60 paidItem), .resumed 0 .executed, .resumed 0 .executed,
    .event (.listPaidSecrets "w"), .resumed 1 .executed, .resumed 1 .executed]

/-- The listing leaves the file secret out and removes it from the index, though it is alive. -/
theorem fileSecret_pruned :
    ¬calls.system.Along ListsAlive (fileSecretListing ++ [.resumed 1 .executed]) ∧
      ¬calls.system.Along PrunesDead (fileSecretListing ++ [.resumed 1 .executed]) := by
  refine ⟨fun h => ?_, fun h => ?_⟩
  · rw [System.along_snoc] at h
    obtain ⟨entry, hentry, -⟩ :=
      h.2 1 "w" [] (by decide) (.file, "a") (by decide) (by decide)
    cases hentry
  · rw [System.along_snoc] at h
    exact h.2 1 ["a"] (by decide) "a" (by decide) .file (by decide)

end Rapidly.FileSharing.Payments.PaidIndex
