import Rapidly.Analytics.Events.Steps
import Rapidly.Fallible.Except

/-!
# What the loop over a batch hands to the insertion

`prepare` turns the sorted events into dicts, one after the other. The events whose checks fail
only collect errors, so a batch that passes has a dict for every event.

* `prepare_eq_ok`: the dicts of a batch, as the relation `Dicts`, which leaves the event types
  out.
* `Dicts.refs`: what the references of a dict have in common.
* `Dicts.row_id`, `Dicts.pairwise_apart`: the ids of the rows, which are drawn anew for the batch.
-/

namespace Rapidly.Analytics.Ingestion

open Relational Identity KeyValue Graph Fallible

/-! ### The loop over the sorted events -/

section Loop

variable {parseUuid : String → Option Uuid} {draws : Draw → Uuid} {subject : Subject}
  {ids : List (String × Uuid)} {db db' : Database} {p p' : Progress} {e : EventCreate × ℕ}

theorem getOrCreate_eq_ok {name : String} {workspaceId id : Uuid} {eventType : EventType}
    (h : getOrCreate db name workspaceId id = .ok (db', eventType)) :
    db'.toDatabase = db.toDatabase ∧ db'.events = db.events := by
  rw [getOrCreate] at h
  split at h
  · obtain ⟨rfl, -⟩ := Prod.mk.inj (Except.ok.inj h)
    exact ⟨rfl, rfl⟩
  · dsimp only at h
    split at h
    · exact absurd h (by simp)
    · split at h
      · exact absurd h (by simp)
      · split at h
        · exact absurd h (by simp)
        · obtain ⟨rfl, -⟩ := Prod.mk.inj (Except.ok.inj h)
          exact ⟨rfl, rfl⟩

theorem eventTypeOf_eq_ok {name : String} {workspaceId id eventTypeId : Uuid}
    (h : eventTypeOf p name workspaceId id = .ok (p', eventTypeId)) :
    p'.db.toDatabase = p.db.toDatabase ∧ p'.db.events = p.db.events ∧
      p'.events = p.events ∧ p'.errors = p.errors ∧ p'.processedEvents = p.processedEvents := by
  rw [eventTypeOf] at h
  split at h
  · obtain ⟨rfl, -⟩ := Prod.mk.inj (Except.ok.inj h)
    exact ⟨rfl, rfl, rfl, rfl, rfl⟩
  · obtain ⟨⟨db', eventType⟩, hget, h⟩ := bind_eq_ok.mp h
    obtain ⟨rfl, -⟩ := Prod.mk.inj (Except.ok.inj h)
    obtain ⟨hdirectory, hevents⟩ := getOrCreate_eq_ok hget
    exact ⟨hdirectory, hevents, rfl, rfl, rfl⟩

/-- The last dict of each id, with one more dict. -/
def processed (processedEvents : List (Uuid × EventDict)) (dict : EventDict) :
    List (Uuid × EventDict) :=
  match dict.id with
  | some id => put processedEvents id dict
  | none => processedEvents

/-- **A round of the loop** collects the errors of an event, or turns it into a dict. -/
theorem processEvent_eq_ok (h : processEvent parseUuid draws subject ids p e = .ok p') :
    p'.db.toDatabase = p.db.toDatabase ∧ p'.db.events = p.db.events ∧
    ((∃ errors, checkEvent parseUuid subject ids p.db e.1 e.2 = .error (.validation errors) ∧
        p'.errors = p.errors ++ errors) ∨
      ∃ workspaceId parent eventTypeId,
        checkEvent parseUuid subject ids p.db e.1 e.2 = .ok (workspaceId, parent) ∧
        p'.errors = p.errors ∧
        p'.events = p.events ++
          [eventDict ids p.processedEvents e.1 workspaceId eventTypeId parent] ∧
        p'.processedEvents = processed p.processedEvents
          (eventDict ids p.processedEvents e.1 workspaceId eventTypeId parent)) := by
  rw [processEvent] at h
  split at h
  next errors hcheck =>
    obtain rfl := Except.ok.inj h
    exact ⟨rfl, rfl, .inl ⟨errors, hcheck, rfl⟩⟩
  next => exact absurd h (by simp)
  next workspaceId parent hcheck =>
    obtain ⟨⟨q, eventTypeId⟩, htype, h⟩ := bind_eq_ok.mp h
    obtain ⟨hdirectory, hrows, hevents, herrors, hprocessed⟩ := eventTypeOf_eq_ok htype
    obtain rfl := Except.ok.inj h
    refine ⟨hdirectory, hrows, .inr ⟨workspaceId, parent, eventTypeId, hcheck, herrors, ?_, ?_⟩⟩
    · dsimp only
      rw [hevents, hprocessed]
    · dsimp only
      rw [hprocessed]
      rfl

theorem validateWorkspaceId_congr (hdirectory : db'.toDatabase = db.toDatabase) (index : ℕ)
    (workspaceId : Option Uuid) :
    validateWorkspaceId db' subject index workspaceId =
      validateWorkspaceId db subject index workspaceId := by
  obtain ⟨directory, eventTypes, events, _, _, _, _⟩ := db
  obtain ⟨directory', eventTypes', events', _, _, _, _⟩ := db'
  subst hdirectory
  rfl

theorem validateCustomer_congr (hdirectory : db'.toDatabase = db.toDatabase) (index : ℕ)
    (customer : CustomerReference) :
    validateCustomer db' subject index customer = validateCustomer db subject index customer := by
  obtain ⟨directory, eventTypes, events, _, _, _, _⟩ := db
  obtain ⟨directory', eventTypes', events', _, _, _, _⟩ := db'
  subst hdirectory
  rfl

/-- The checks look at the events and at what is around them, not at the event types. -/
theorem checkEvent_congr (hdirectory : db'.toDatabase = db.toDatabase)
    (hevents : db'.events = db.events) (event : EventCreate) (index : ℕ) :
    checkEvent parseUuid subject ids db' event index =
      checkEvent parseUuid subject ids db event index := by
  simp only [checkEvent, validateWorkspaceId_congr hdirectory, validateCustomer_congr hdirectory,
    resolveParent, findParentEvent, hevents]

variable {event : EventCreate} {index : ℕ} {workspaceId : Uuid}

theorem ne_nil_of_checkEvent {errors : List ValidationError}
    (h : checkEvent parseUuid subject ids db event index = .error (.validation errors)) :
    errors ≠ [] := by
  have hinvalid : ∀ type msg field input,
      invalid type msg index field input = .validation errors → errors ≠ [] := by
    rintro type msg field input heq rfl
    simp [invalid] at heq
  rw [checkEvent] at h
  rcases bind_eq_error.mp h with h | ⟨workspaceId, -, h⟩
  · unfold validateWorkspaceId at h
    split at h
    · exact absurd h (by simp)
    · exact hinvalid _ _ _ _ (Except.error.inj h)
    · exact hinvalid _ _ _ _ (Except.error.inj h)
    · split at h
      · exact absurd h (by simp)
      · exact hinvalid _ _ _ _ (Except.error.inj h)
  rcases bind_eq_error.mp h with h | ⟨-, -, h⟩
  · unfold validateCustomer at h
    split at h
    · exact absurd h (by simp)
    · split at h
      · split at h
        · exact absurd h (by simp)
        · unfold validateMemberId at h
          split at h
          · exact absurd h (by simp)
          · exact hinvalid _ _ _ _ (Except.error.inj h)
      · exact hinvalid _ _ _ _ (Except.error.inj h)
  · split at h
    · exact absurd h (by simp [pure, Except.pure])
    · rcases bind_eq_error.mp h with h | ⟨parent, -, h⟩
      · unfold resolveParent at h
        split at h
        · exact absurd h (by simp)
        · split at h
          · exact absurd h (by simp)
          · exact hinvalid _ _ _ _ (Except.error.inj h)
          · exact absurd h (by simp)
      · exact absurd h (by simp [pure, Except.pure])

/-- The dicts of events that have passed their checks, after the dicts so far. -/
def Dicts (parseUuid : String → Option Uuid) (subject : Subject) (ids : List (String × Uuid))
    (db : Database) : List (Uuid × EventDict) → List (EventCreate × ℕ) → List EventDict → Prop
  | _, [], dicts => dicts = []
  | processedEvents, e :: rest, dicts => ∃ workspaceId parent eventTypeId dict more,
      checkEvent parseUuid subject ids db e.1 e.2 = .ok (workspaceId, parent) ∧
      dict = eventDict ids processedEvents e.1 workspaceId eventTypeId parent ∧
      dicts = dict :: more ∧
      Dicts parseUuid subject ids db (processed processedEvents dict) rest more

theorem Dicts.congr {processedEvents : List (Uuid × EventDict)} {sorted : List (EventCreate × ℕ)}
    {dicts : List EventDict}
    (h : Dicts parseUuid subject ids db' processedEvents sorted dicts)
    (hdirectory : db'.toDatabase = db.toDatabase) (hevents : db'.events = db.events) :
    Dicts parseUuid subject ids db processedEvents sorted dicts := by
  induction sorted generalizing processedEvents dicts with
  | nil => exact h
  | cons e rest ih =>
    obtain ⟨workspaceId, parent, eventTypeId, dict, more, hcheck, hdict, hdicts, hrest⟩ := h
    rw [checkEvent_congr hdirectory hevents] at hcheck
    exact ⟨workspaceId, parent, eventTypeId, dict, more, hcheck, hdict, hdicts, ih hrest⟩

theorem foldlM_processEvent {sorted : List (EventCreate × ℕ)}
    (h : sorted.foldlM (processEvent parseUuid draws subject ids) p = .ok p') :
    p'.db.toDatabase = p.db.toDatabase ∧ p'.db.events = p.db.events ∧
      (p'.errors = [] → p.errors = [] ∧ ∃ dicts, p'.events = p.events ++ dicts ∧
        Dicts parseUuid subject ids p.db p.processedEvents sorted dicts) := by
  induction sorted generalizing p with
  | nil =>
    obtain rfl := Except.ok.inj h
    exact ⟨rfl, rfl, fun herrors => ⟨herrors, [], (List.append_nil _).symm, rfl⟩⟩
  | cons e rest ih =>
    rw [List.foldlM_cons] at h
    obtain ⟨q, hstep, hrest⟩ := bind_eq_ok.mp h
    obtain ⟨hdirectory, hrows, hcases⟩ := processEvent_eq_ok hstep
    obtain ⟨hdirectory', hrows', hdicts⟩ := ih hrest
    refine ⟨hdirectory'.trans hdirectory, hrows'.trans hrows, fun herrors => ?_⟩
    obtain ⟨hnone, dicts, hevents, hrest⟩ := hdicts herrors
    rcases hcases with ⟨errors, hcheck, heq⟩ |
      ⟨workspaceId, parent, eventTypeId, hcheck, heq, hevents', hprocessed⟩
    · rw [heq] at hnone
      exact absurd (List.append_eq_nil_iff.mp hnone).2 (ne_nil_of_checkEvent hcheck)
    · refine ⟨heq.symm.trans hnone, _ :: dicts, ?_, workspaceId, parent, eventTypeId, _, dicts,
        hcheck, rfl, rfl, ?_⟩
      · rw [hevents, hevents', List.append_assoc, List.singleton_append]
      · rw [hprocessed] at hrest
        exact hrest.congr hdirectory hrows

/-- **What is handed to the insertion**: a dict for each of the sorted events, which have all passed
their checks. -/
theorem prepare_eq_ok {batch : List EventCreate}
    (h : prepare parseUuid draws subject db batch = .ok p) :
    p.db.toDatabase = db.toDatabase ∧ p.db.events = db.events ∧ ∃ sorted,
      topologicalSort (metadataLinks (batchExternalIdMap draws batch)) batch.zipIdx = .ok sorted ∧
      Dicts parseUuid subject (batchExternalIdMap draws batch) db [] sorted p.events := by
  rw [prepare] at h
  obtain ⟨sorted, hsorted, h⟩ := bind_eq_ok.mp h
  obtain ⟨q, hfold, h⟩ := bind_eq_ok.mp h
  obtain ⟨hdirectory, hrows, hdicts⟩ := foldlM_processEvent hfold
  split at h
  · exact absurd h (by simp)
  next herrors =>
    obtain rfl := Except.ok.inj h
    obtain ⟨-, dicts, hevents, hdicts⟩ := hdicts (not_not.mp herrors)
    refine ⟨hdirectory, hrows, sorted, hsorted, ?_⟩
    rw [hevents]
    exact hdicts

theorem resolveParent_eq_ok {text : String} {parent : Parent}
    (h : resolveParent parseUuid db index text workspaceId ids = .ok parent) :
    (∃ id, find ids text = some id ∧ parent = .inBatch id) ∨
      find ids text = none ∧ ∃ event,
        findParentEvent parseUuid db text workspaceId = .ok (some event) ∧
        parent = .stored event := by
  rw [resolveParent] at h
  split at h
  next id hfind => exact .inl ⟨id, hfind, (Except.ok.inj h).symm⟩
  next hfind =>
    split at h
    next event hevent => exact .inr ⟨hfind, event, hevent, (Except.ok.inj h).symm⟩
    · exact absurd h (by simp)
    · exact absurd h (by simp)

theorem checkEvent_eq_ok {parent : Option Parent}
    (h : checkEvent parseUuid subject ids db event index = .ok (workspaceId, parent)) :
    validateWorkspaceId db subject index event.workspaceId = .ok workspaceId ∧
      validateCustomer db subject index event.customer = .ok () ∧
      (event.parentId = none ∧ parent = none ∨ ∃ text q, event.parentId = some text ∧
        resolveParent parseUuid db index text workspaceId ids = .ok q ∧ parent = some q) := by
  rw [checkEvent] at h
  obtain ⟨w, hworkspace, h⟩ := bind_eq_ok.mp h
  obtain ⟨⟨⟩, hcustomer, h⟩ := bind_eq_ok.mp h
  split at h
  next hparent =>
    obtain ⟨rfl, rfl⟩ := Prod.mk.inj (Except.ok.inj h)
    exact ⟨hworkspace, hcustomer, .inl ⟨hparent, rfl⟩⟩
  next text hparent =>
    obtain ⟨q, hresolve, h⟩ := bind_eq_ok.mp h
    obtain ⟨rfl, rfl⟩ := Prod.mk.inj (Except.ok.inj h)
    exact ⟨hworkspace, hcustomer, .inr ⟨text, q, hparent, hresolve, rfl⟩⟩

theorem mem_of_checkEvent_stored
    {stored : Event}
    (h : checkEvent parseUuid subject ids db event index =
      .ok (workspaceId, some (.stored stored))) :
    stored ∈ db.events ∧ stored.workspaceId = workspaceId := by
  obtain ⟨-, -, ⟨-, hnone⟩ | ⟨text, q, -, hresolve, hq⟩⟩ := checkEvent_eq_ok h
  · exact absurd hnone (by simp)
  · obtain rfl := Option.some.inj hq
    rcases resolveParent_eq_ok hresolve with ⟨id, -, heq⟩ | ⟨-, event', hfind, heq⟩
    · exact absurd heq (by simp)
    · obtain rfl := Parent.stored.inj heq
      obtain ⟨hmem, -⟩ := oneOrNone_eq_some_iff.mp hfind
      obtain ⟨hmem, hworkspace, -⟩ := Table.mem_select.mp hmem
      exact ⟨hmem, hworkspace⟩

theorem find_of_checkEvent_inBatch {workspaceId id : Uuid}
    (h : checkEvent parseUuid subject ids db event index = .ok (workspaceId, some (.inBatch id))) :
    ∃ text, event.parentId = some text ∧ find ids text = some id := by
  obtain ⟨-, -, ⟨-, hnone⟩ | ⟨text, q, htext, hresolve, hq⟩⟩ := checkEvent_eq_ok h
  · exact absurd hnone (by simp)
  · obtain rfl := Option.some.inj hq
    rcases resolveParent_eq_ok hresolve with ⟨id', hfind, heq⟩ | ⟨-, event', -, heq⟩
    · obtain rfl := Parent.inBatch.inj heq
      exact ⟨text, htext, hfind⟩
    · exact absurd heq (by simp)

variable {processedEvents : List (Uuid × EventDict)} {sorted : List (EventCreate × ℕ)}
  {dicts : List EventDict}

theorem Dicts.forall₂ (h : Dicts parseUuid subject ids db processedEvents sorted dicts) :
    List.Forall₂ (fun e dict => ∃ processedEvents workspaceId parent eventTypeId,
      checkEvent parseUuid subject ids db e.1 e.2 = .ok (workspaceId, parent) ∧
      dict = eventDict ids processedEvents e.1 workspaceId eventTypeId parent) sorted dicts := by
  induction sorted generalizing processedEvents dicts with
  | nil =>
    obtain rfl : dicts = [] := h
    exact .nil
  | cons e rest ih =>
    obtain ⟨workspaceId, parent, eventTypeId, dict, more, hcheck, hdict, rfl, hrest⟩ := h
    exact .cons ⟨processedEvents, workspaceId, parent, eventTypeId, hcheck, hdict⟩ (ih hrest)

/-- The references of the dicts have a property that the ids of the batch have, and the stored
parents with their roots. -/
theorem Dicts.refs {P : Uuid → Prop}
    (h : Dicts parseUuid subject ids db processedEvents sorted dicts)
    (hids : ∀ text id, find ids text = some id → P id)
    (hstored : ∀ e ∈ sorted, ∀ workspaceId event,
      checkEvent parseUuid subject ids db e.1 e.2 = .ok (workspaceId, some (.stored event)) →
        P event.id ∧ ∀ id ∈ event.rootId, P id)
    (hprocessed : ∀ id dict, find processedEvents id = some dict → ∀ root ∈ dict.rootId, P root) :
    ∀ dict ∈ dicts, (∀ id ∈ dict.parentId, P id) ∧ ∀ id ∈ dict.rootId, P id := by
  induction sorted generalizing processedEvents dicts with
  | nil =>
    obtain rfl : dicts = [] := h
    exact fun dict hdict => absurd hdict List.not_mem_nil
  | cons e rest ih =>
    obtain ⟨workspaceId, parent, eventTypeId, dict, more, hcheck, hdict, rfl, hrest⟩ := h
    have hrefs : (∀ id ∈ dict.parentId, P id) ∧ ∀ id ∈ dict.rootId, P id := by
      subst hdict
      rcases parent with _ | event | id
      · exact ⟨fun id hid => absurd hid (Option.not_mem_none id),
          fun id hid => absurd hid (Option.not_mem_none id)⟩
      · obtain ⟨hid, hroot⟩ := hstored e List.mem_cons_self workspaceId event hcheck
        refine ⟨fun id' hid' => Option.some.inj hid' ▸ hid, fun root hroot' => ?_⟩
        obtain rfl : event.rootId.getD event.id = root := Option.some.inj hroot'
        rcases hsome : event.rootId with _ | root
        · exact hid
        · exact hroot root hsome
      · obtain ⟨text, -, hfind⟩ := find_of_checkEvent_inBatch hcheck
        have hid := hids text id hfind
        refine ⟨fun id' hid' => Option.some.inj hid' ▸ hid, fun root hroot' => ?_⟩
        obtain ⟨parent, hparent, rfl⟩ := Option.map_eq_some_iff.mp hroot'
        rcases hsome : parent.rootId with _ | root
        · exact hid
        · exact hprocessed id parent hparent root hsome
    intro dict' hdict'
    rcases List.mem_cons.mp hdict' with rfl | hmore
    · exact hrefs
    · refine ih hrest (fun e' he' => hstored e' (List.mem_cons_of_mem e he')) ?_ dict' hmore
      intro id found hfound
      unfold processed at hfound
      split at hfound
      · rw [find_put] at hfound
        split at hfound
        · obtain rfl := Option.some.inj hfound
          exact hrefs.2
        · exact hprocessed id found hfound
      · exact hprocessed id found hfound

theorem Dicts.exists_of_mem (h : Dicts parseUuid subject ids db processedEvents sorted dicts)
    {dict : EventDict} (hdict : dict ∈ dicts) :
    ∃ e ∈ sorted, ∃ processedEvents workspaceId parent eventTypeId,
      checkEvent parseUuid subject ids db e.1 e.2 = .ok (workspaceId, parent) ∧
      dict = eventDict ids processedEvents e.1 workspaceId eventTypeId parent := by
  have hforall := h.forall₂
  clear h
  induction hforall with
  | nil => exact absurd hdict List.not_mem_nil
  | cons hhead _ ih =>
    rcases List.mem_cons.mp hdict with rfl | hmore
    · exact ⟨_, List.mem_cons_self, hhead⟩
    · obtain ⟨e, he, hrest⟩ := ih hmore
      exact ⟨e, List.mem_cons_of_mem _ he, hrest⟩

end Loop

/-! ### The rows of a batch -/

section Rows

/-- The ids that are drawn are new. -/
structure Fresh (draws : Draw → Uuid) (db : Database) : Prop where
  injective : draws.Injective
  events : ∀ draw, ¬db.HasEvent (draws draw)

variable {parseUuid : String → Option Uuid} {draws : Draw → Uuid} {subject : Subject}
  {batching : Batching} {db db' : Database} {batch : List EventCreate}
  {processedEvents : List (Uuid × EventDict)} {sorted : List (EventCreate × ℕ)}
  {dicts : List EventDict}

theorem mem_batch_of_sorted (h : sorted.Perm batch.zipIdx) : ∀ e ∈ sorted, e.1 ∈ batch := by
  intro e he
  have hmem := h.mem_iff.mp he
  exact List.mem_of_getElem? (List.mk_mem_zipIdx_iff_getElem?.mp hmem)

theorem Dicts.id_eq
    (h : Dicts parseUuid subject (batchExternalIdMap draws batch) db processedEvents sorted dicts)
    (hsorted : ∀ e ∈ sorted, e.1 ∈ batch) {dict : EventDict} (hdict : dict ∈ dicts) :
    (∀ x ∈ dict.externalId, ∃ id, find (batchExternalIdMap draws batch) x = some id ∧
      dict.id = some id) ∧ (dict.externalId = none → dict.id = none) := by
  obtain ⟨e, he, _, workspaceId, parent, eventTypeId, -, rfl⟩ := h.exists_of_mem hdict
  constructor
  · intro x hx
    have hbatch : e.1.externalId = some x := hx
    obtain ⟨id, hid⟩ := Option.isSome_iff_exists.mp
      (isSome_find_batchExternalIdMap.mpr ⟨e.1, hsorted e he, hbatch⟩)
    refine ⟨id, hid, ?_⟩
    change e.1.externalId.bind _ = some id
    rw [hbatch, Option.bind_some, hid]
  · intro hnone
    change e.1.externalId.bind _ = none
    have hbatch : e.1.externalId = none := hnone
    rw [hbatch, Option.bind_none]

theorem Dicts.row_id
    (h : Dicts parseUuid subject (batchExternalIdMap draws batch) db processedEvents sorted dicts)
    (hsorted : ∀ e ∈ sorted, e.1 ∈ batch) {position : ℕ} {dict : EventDict}
    (hdict : dicts[position]? = some dict) :
    (∀ x ∈ dict.externalId, find (batchExternalIdMap draws batch) x =
        some (dict.toRow db' (draws (.row position))).id) ∧
      (dict.externalId = none →
        (dict.toRow db' (draws (.row position))).id = draws (.row position)) := by
  obtain ⟨hsome, hnone⟩ := h.id_eq hsorted (List.mem_of_getElem? hdict)
  constructor
  · intro x hx
    obtain ⟨id, hfind, hid⟩ := hsome x hx
    rw [hfind, EventDict.toRow, hid, Option.getD_some]
  · intro hx
    rw [EventDict.toRow, hnone hx, Option.getD_none]

theorem mem_rowsOf {r : Event} (h : r ∈ rowsOf draws db dicts) :
    ∃ (position : ℕ) (dict : EventDict), dicts[position]? = some dict ∧
      r = dict.toRow db (draws (.row position)) := by
  rw [rowsOf, List.mem_mapIdx] at h
  obtain ⟨position, hlt, rfl⟩ := h
  exact ⟨position, dicts[position], List.getElem?_eq_getElem hlt, rfl⟩

theorem Dicts.exists_draw
    (h : Dicts parseUuid subject (batchExternalIdMap draws batch) db processedEvents sorted dicts)
    (hsorted : ∀ e ∈ sorted, e.1 ∈ batch) {r : Event} (hr : r ∈ rowsOf draws db' dicts) :
    ∃ draw, r.id = draws draw := by
  obtain ⟨position, dict, hdict, rfl⟩ := mem_rowsOf hr
  obtain ⟨hsome, hnone⟩ := h.row_id hsorted hdict
  rcases hx : dict.externalId with _ | x
  · exact ⟨_, hnone hx⟩
  · obtain ⟨i, -, -, -, hid⟩ := exists_of_find_batchExternalIdMap (hsome x hx)
    exact ⟨_, hid⟩

theorem Dicts.pairwise_apart
    (h : Dicts parseUuid subject (batchExternalIdMap draws batch) db processedEvents sorted dicts)
    (hsorted : ∀ e ∈ sorted, e.1 ∈ batch) (hinj : draws.Injective) :
    (rowsOf draws db' dicts).Pairwise Apart := by
  rw [List.pairwise_iff_getElem]
  intro i j hi hj hlt hid
  have hi' : i < dicts.length := by simpa [rowsOf] using hi
  have hj' : j < dicts.length := by simpa [rowsOf] using hj
  obtain ⟨hsomei, hnonei⟩ := @Dicts.row_id _ _ _ _ db' _ _ _ _ h hsorted i _
    (List.getElem?_eq_getElem hi')
  obtain ⟨hsomej, hnonej⟩ := @Dicts.row_id _ _ _ _ db' _ _ _ _ h hsorted j _
    (List.getElem?_eq_getElem hj')
  have hgeti : (rowsOf draws db' dicts)[i] = dicts[i].toRow db' (draws (.row i)) :=
    List.getElem_mapIdx ..
  have hgetj : (rowsOf draws db' dicts)[j] = dicts[j].toRow db' (draws (.row j)) :=
    List.getElem_mapIdx ..
  rw [hgeti, hgetj] at hid ⊢
  change dicts[j].externalId ≠ none ∧ dicts[i].externalId = dicts[j].externalId
  rcases hxi : dicts[i].externalId with _ | x
  · rcases hxj : dicts[j].externalId with _ | y
    · rw [hnonei hxi, hnonej hxj] at hid
      exact absurd (Draw.row.inj (hinj hid)) hlt.ne
    · obtain ⟨k, -, -, -, hdrawn⟩ := exists_of_find_batchExternalIdMap (hsomej y hxj)
      rw [hnonei hxi, hdrawn] at hid
      exact absurd (hinj hid) (by simp)
  · rcases hxj : dicts[j].externalId with _ | y
    · obtain ⟨k, -, -, -, hdrawn⟩ := exists_of_find_batchExternalIdMap (hsomei x hxi)
      rw [hnonej hxj, hdrawn] at hid
      exact absurd (hinj hid) (by simp)
    · have hx := hsomei x hxi
      rw [hid] at hx
      exact ⟨by simp, congrArg some (find_batchExternalIdMap_inj hinj hx (hsomej y hxj))⟩

theorem Dicts.exists_dict (h : Dicts parseUuid subject ids db processedEvents sorted dicts)
    {e : EventCreate × ℕ} (he : e ∈ sorted) :
    ∃ dict ∈ dicts, dict.externalId = e.1.externalId := by
  have hforall := h.forall₂
  clear h
  induction hforall with
  | nil => exact absurd he List.not_mem_nil
  | cons hhead _ ih =>
    rcases List.mem_cons.mp he with rfl | hmore
    · obtain ⟨_, _, _, _, -, rfl⟩ := hhead
      exact ⟨_, List.mem_cons_self, rfl⟩
    · obtain ⟨dict, hdict, hx⟩ := ih hmore
      exact ⟨dict, List.mem_cons_of_mem _ hdict, hx⟩

theorem Dicts.exists_row (h : Dicts parseUuid subject ids db processedEvents sorted dicts)
    (hsorted : sorted.Perm batch.zipIdx) {e : EventCreate} (he : e ∈ batch) :
    ∃ r ∈ rowsOf draws db' dicts, r.externalId = e.externalId := by
  obtain ⟨i, hi⟩ := List.getElem?_of_mem he
  have hmem : (e, i) ∈ sorted := hsorted.mem_iff.mpr (List.mk_mem_zipIdx_iff_getElem?.mpr hi)
  obtain ⟨dict, hdict, hx⟩ := h.exists_dict hmem
  obtain ⟨position, hposition, rfl⟩ := List.getElem_of_mem hdict
  refine ⟨_, List.mem_mapIdx.mpr ⟨position, hposition, rfl⟩, ?_⟩
  exact hx

theorem Dicts.exists_event (h : Dicts parseUuid subject ids db processedEvents sorted dicts)
    (hsorted : ∀ e ∈ sorted, e.1 ∈ batch) {r : Event} (hr : r ∈ rowsOf draws db' dicts) :
    ∃ e ∈ batch, e.externalId = r.externalId := by
  obtain ⟨position, dict, hdict, rfl⟩ := mem_rowsOf hr
  obtain ⟨e, he, _, _, _, _, -, rfl⟩ := h.exists_of_mem (List.mem_of_getElem? hdict)
  exact ⟨e.1, hsorted e he, rfl⟩

/-- A dict without a root has no parent, or one in the batch; the row of that one is not stored
yet, so that the dict's root becomes the parent's id. -/
theorem Dicts.resolveRoot_eq
    (h : Dicts parseUuid subject (batchExternalIdMap draws batch) db processedEvents sorted dicts)
    (hfresh : Fresh draws db') {dict : EventDict} (hdict : dict ∈ dicts)
    (hroot : dict.rootId = none) (id : Uuid) :
    resolveRoot db' id dict.parentId = dict.parentId.getD id := by
  obtain ⟨e, -, processedEvents, workspaceId, parent, eventTypeId, hcheck, rfl⟩ :=
    h.exists_of_mem hdict
  rcases parent with _ | event | parentId
  · rfl
  · exact absurd hroot (by simp [eventDict, rootOfParent])
  · obtain ⟨text, -, hfind⟩ := find_of_checkEvent_inBatch hcheck
    obtain ⟨i, _, -, -, rfl⟩ := exists_of_find_batchExternalIdMap hfind
    have hget : db'.events.get (draws (.externalId i)) = none := by
      rw [Option.eq_none_iff_forall_ne_some]
      intro found hfound
      obtain ⟨hmem, hid⟩ := Table.get_eq_some_iff.mp hfound
      exact hfresh.events _ ⟨found, hmem, hid⟩
    change resolveRoot db' id (some (draws (.externalId i))) = draws (.externalId i)
    rw [resolveRoot, hget]

/-- **What an ingestion does** once its dicts are there: all new rows are inserted, or a foreign
key is violated. -/
theorem ingest_of_prepare (hfresh : Fresh draws db) {progress : Progress}
    (hprepare : prepare parseUuid draws subject db batch = .ok progress)
    {rows : List Event} (hrows : rows = rowsOf draws progress.db progress.events) :
    ((∀ k, Closed db
        (newRows (externalIds db.events.rows) ((batching.split rows).take k).flatten)) ∧
      ∃ db', ingest parseUuid draws batching db subject batch = .ok (db', {
          inserted := newRows (externalIds db.events.rows) rows
          duplicates := rows.length - (newRows (externalIds db.events.rows) rows).length }) ∧
        Inserted progress.db db' (newRows (externalIds db.events.rows) rows)) ∨
    (∃ k, ¬Closed db
        (newRows (externalIds db.events.rows) ((batching.split rows).take k).flatten)) ∧
      ingest parseUuid draws batching db subject batch = .error .foreignKeyViolation := by
  obtain ⟨-, hevents, sorted, hsort, hdicts⟩ := prepare_eq_ok hprepare
  have hsorted := mem_batch_of_sorted (topologicalSort_eq_ok hsort).1
  have hflatten := batching.flatten_split rows
  have hold : ∀ s ∈ progress.db.events.rows, ∀ r ∈ (batching.split rows).flatten, Apart s r := by
    intro s hs r hr hid
    rw [hflatten, hrows] at hr
    obtain ⟨draw, hdraw⟩ := hdicts.exists_draw hsorted hr
    rw [hevents] at hs
    exact absurd ⟨s, hs, hid.trans hdraw⟩ (hfresh.events draw)
  have hapart : (batching.split rows).flatten.Pairwise Apart := by
    rw [hflatten, hrows]
    exact hdicts.pairwise_apart hsorted hfresh.injective
  have hclosed : ∀ new, Closed progress.db new ↔ Closed db new := fun new => by
    simp only [Closed, Database.HasEvent, hevents]
  have hlength : rows.length = progress.events.length := by rw [hrows, rowsOf, List.length_mapIdx]
  have hbind : ingest parseUuid draws batching db subject batch =
      (insertStatements progress.db (batching.split rows)).map fun q =>
        (q.1, { inserted := q.2, duplicates := rows.length - q.2.length }) := by
    rw [ingest, hprepare, hlength, hrows]
    change insertBatch draws batching progress.db progress.events = _
    rw [insertBatch]
    rcases insertStatements progress.db _ with _ | _ <;> rfl
  rcases insertStatements_eq progress.db (batching.split rows) hold hapart with
    ⟨hall, db', hok, hinserted⟩ | ⟨⟨k, hk⟩, herror⟩
  · rw [hevents, hflatten] at hok hinserted
    refine .inl ⟨fun k => ?_, db', ?_, hinserted⟩
    · rw [← hevents]
      exact (hclosed _).mp (hall k)
    · rw [hbind, hok]
      rfl
  · refine .inr ⟨⟨k, fun hk' => hk ?_⟩, ?_⟩
    · rw [hevents]
      exact (hclosed _).mpr hk'
    · rw [hbind, herror]
      rfl

end Rows

end Rapidly.Analytics.Ingestion
