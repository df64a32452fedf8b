import Rapidly.Analytics.Events.Loop

/-!
# Tenant isolation of ingestion

What ingesting a batch for a workspace does should depend on the events of that workspace only.
The parents of the batch are looked up in the workspace, but the unique index on the external id
is not restricted to it, whatever its name says: `ix_events_workspace_id_external_id`. So an event
is dropped as a duplicate if another workspace has used its external id.

* `prepare_alike`: up to the insertion, the events of other workspaces play no part.
* `tenantIsolated_iff` is the exact condition: other workspaces have used the same external ids of
  the batch in both databases, or the batch is refused in both.
-/

namespace Rapidly.Analytics.Ingestion

open Relational Identity KeyValue Graph Fallible

/-! ### What isolation says -/

/-- The databases agree on all but the events of other workspaces. -/
structure SameFor (workspaceId : Uuid) (db₁ db₂ : Database) : Prop where
  directory : db₁.toDatabase = db₂.toDatabase
  eventTypes : db₁.eventTypes = db₂.eventTypes
  events : Table.Agree (fun e => e.workspaceId = workspaceId) db₁.events db₂.events

/-- The event is for the workspace: the workspace itself sends it, or it says so. -/
def IsFor (workspaceId : Uuid) (subject : Subject) (e : EventCreate) : Prop :=
  subject = .workspace workspaceId ∨ e.workspaceId = some workspaceId

instance (workspaceId : Uuid) (subject : Subject) (e : EventCreate) :
    Decidable (IsFor workspaceId subject e) :=
  inferInstanceAs (Decidable (_ ∨ _))

/-- A request to ingest a batch, and what chance and SQLAlchemy add to it. -/
structure Request where
  parseUuid : String → Option Uuid
  draws : Draw → Uuid
  batching : Batching
  subject : Subject
  batch : List EventCreate

def Request.ingest (request : Request) (db : Database) :
    Except IngestError (Database × Ingested) :=
  Ingestion.ingest request.parseUuid request.draws request.batching db request.subject
    request.batch

def Request.prepare (request : Request) (db : Database) : Except IngestError Progress :=
  Ingestion.prepare request.parseUuid request.draws request.subject db request.batch

/-- The rows that are to be inserted. -/
def Request.rows (request : Request) (progress : Progress) : List Event :=
  rowsOf request.draws progress.db progress.events

/-- The same events are inserted, and the same counts or errors reported. -/
def SameOutcome (request : Request) (db₁ db₂ : Database) : Prop :=
  Prod.snd <$> request.ingest db₁ = Prod.snd <$> request.ingest db₂

instance (request : Request) (db₁ db₂ : Database) : Decidable (SameOutcome request db₁ db₂) :=
  inferInstanceAs (Decidable (_ = _))

/-- An event of another workspace has the external id. -/
def TakenElsewhere (workspaceId : Uuid) (db : Database) (x : String) : Prop :=
  ∃ e ∈ db.events.rows, e.externalId = some x ∧ e.workspaceId ≠ workspaceId

/-- Other workspaces have used the same external ids of the batch. -/
def SameTaken (workspaceId : Uuid) (db₁ db₂ : Database) (batch : List EventCreate) : Prop :=
  ∀ e ∈ batch, ∀ x ∈ e.externalId,
    (TakenElsewhere workspaceId db₁ x ↔ TakenElsewhere workspaceId db₂ x)

/-- The batch does not pass its checks, or a row of it that is not a duplicate refers to one that
is neither stored nor among the new rows up to the end of its statement. -/
def Refused (request : Request) (db : Database) : Prop :=
  ∀ progress, request.prepare db = .ok progress → ∃ k, ¬Closed db (newRows
    (externalIds db.events.rows) ((request.batching.split (request.rows progress)).take k).flatten)

/-! ### Up to the insertion -/

section Prepare

variable {parseUuid : String → Option Uuid} {draws : Draw → Uuid} {subject : Subject}
  {ids : List (String × Uuid)} {workspaceId : Uuid} {db₁ db₂ : Database}

theorem eq_of_validateWorkspaceId {e : EventCreate} {index : ℕ} {w : Uuid}
    (hfor : IsFor workspaceId subject e)
    (h : validateWorkspaceId db₁ subject index e.workspaceId = .ok w) : w = workspaceId := by
  unfold validateWorkspaceId at h
  rcases hfor with rfl | hfor
  · split at h
    next heq _ =>
      obtain rfl := Subject.workspace.inj heq
      exact (Except.ok.inj h).symm
    all_goals simp_all
  · rw [hfor] at h
    split at h
    next heq => simp at heq
    next => simp at h
    next heq => simp at heq
    next heq =>
      obtain rfl := Option.some.inj heq
      split at h
      · exact (Except.ok.inj h).symm
      · simp at h

theorem resolveParent_same (h : SameFor workspaceId db₁ db₂) (index : ℕ) (text : String) :
    resolveParent parseUuid db₁ index text workspaceId ids =
      resolveParent parseUuid db₂ index text workspaceId ids := by
  have hperm := h.events.select_perm
    (q := fun e => e.workspaceId = workspaceId ∧ Named parseUuid text e)
    (fun e he => he.1) fun _ => Iff.rfl
  have hfind : findParentEvent parseUuid db₁ text workspaceId =
      findParentEvent parseUuid db₂ text workspaceId := oneOrNone_perm hperm
  rw [resolveParent, resolveParent, hfind]

theorem checkEvent_same (h : SameFor workspaceId db₁ db₂) {e : EventCreate}
    (hfor : IsFor workspaceId subject e) (index : ℕ) :
    checkEvent parseUuid subject ids db₁ e index =
      checkEvent parseUuid subject ids db₂ e index := by
  rw [checkEvent, checkEvent, validateWorkspaceId_congr h.directory,
    validateCustomer_congr h.directory]
  rcases hw : validateWorkspaceId db₂ subject index e.workspaceId with error | w
  · rfl
  · obtain rfl := eq_of_validateWorkspaceId hfor hw
    refine congrArg (validateCustomer db₂ subject index e.customer >>= ·) (funext fun _ => ?_)
    rcases e.parentId with _ | text
    · rfl
    · dsimp only
      rw [resolveParent_same h]

/-- The variables of the loop are the same, apart from the events of other workspaces. -/
structure SameProgress (workspaceId : Uuid) (p₁ p₂ : Progress) : Prop where
  db : SameFor workspaceId p₁.db p₂.db
  eventTypesCache : p₁.eventTypesCache = p₂.eventTypesCache
  events : p₁.events = p₂.events
  errors : p₁.errors = p₂.errors
  processedEvents : p₁.processedEvents = p₂.processedEvents

theorem getOrCreate_alike (h : SameFor workspaceId db₁ db₂) (name : String) (w id : Uuid) :
    Alike (fun q₁ q₂ => SameFor workspaceId q₁.1 q₂.1 ∧ q₁.2 = q₂.2)
      (getOrCreate db₁ name w id) (getOrCreate db₂ name w id) := by
  obtain ⟨hdirectory, htypes, hevents⟩ := h
  have hget : getByNameAndWorkspace db₁ name w = getByNameAndWorkspace db₂ name w := by
    rw [getByNameAndWorkspace, getByNameAndWorkspace, htypes]
  rw [getOrCreate, getOrCreate, hget]
  rcases getByNameAndWorkspace db₂ name w with _ | existing
  · dsimp only
    by_cases hlong : nameMaxLen < name.length
    · rw [if_pos hlong, if_pos hlong]
      exact rfl
    rw [if_neg hlong, if_neg hlong]
    by_cases hname : name ∈ db₂.eventTypes.rows.map EventType.name
    · rw [dif_pos hname, dif_pos (htypes ▸ hname)]
      exact rfl
    rw [dif_neg hname, dif_neg (htypes ▸ hname)]
    by_cases hid : id ∈ db₂.eventTypes.rows.map EventType.id
    · rw [dif_pos hid, dif_pos (htypes ▸ hid)]
      exact rfl
    · rw [dif_neg hid, dif_neg (htypes ▸ hid)]
      refine ⟨⟨hdirectory, ?_, hevents⟩, rfl⟩
      simp only [htypes]
  · exact ⟨⟨hdirectory, htypes, hevents⟩, rfl⟩

theorem eventTypeOf_alike {p₁ p₂ : Progress} (h : SameProgress workspaceId p₁ p₂) (name : String)
    (w id : Uuid) :
    Alike (fun q₁ q₂ => SameProgress workspaceId q₁.1 q₂.1 ∧ q₁.2 = q₂.2)
      (eventTypeOf p₁ name w id) (eventTypeOf p₂ name w id) := by
  rw [eventTypeOf, eventTypeOf, h.eventTypesCache]
  rcases find p₂.eventTypesCache (name, w) with _ | eventTypeId
  · refine (getOrCreate_alike h.db name w id).bind ?_
    rintro ⟨d₁, t₁⟩ ⟨d₂, t₂⟩ ⟨hdb, rfl⟩
    exact ⟨{ h with db := hdb, eventTypesCache := rfl }, rfl⟩
  · exact ⟨h, rfl⟩

theorem processEvent_alike {p₁ p₂ : Progress} (h : SameProgress workspaceId p₁ p₂)
    {e : EventCreate × ℕ} (hfor : IsFor workspaceId subject e.1) :
    Alike (SameProgress workspaceId) (processEvent parseUuid draws subject ids p₁ e)
      (processEvent parseUuid draws subject ids p₂ e) := by
  rw [processEvent, processEvent, checkEvent_same h.db hfor]
  rcases checkEvent parseUuid subject ids p₂.db e.1 e.2 with error | ⟨w, parent⟩
  · cases error with
    | validation errors => exact { h with errors := by rw [h.errors] }
    | _ => exact rfl
  · refine (eventTypeOf_alike h e.1.name w (draws (.eventType e.2))).bind ?_
    rintro ⟨q₁, eventTypeId⟩ ⟨q₂, _⟩ ⟨hq, rfl⟩
    change SameProgress workspaceId q₁ q₂ at hq
    refine { hq with events := ?_, processedEvents := ?_ }
    · simp only [hq.events, hq.processedEvents]
    · simp only [hq.processedEvents]

/-- **Up to the insertion the events of other workspaces play no part.** -/
theorem prepare_alike {request : Request} (h : SameFor workspaceId db₁ db₂)
    (hfor : ∀ e ∈ request.batch, IsFor workspaceId request.subject e) :
    Alike (SameProgress workspaceId) (request.prepare db₁) (request.prepare db₂) := by
  unfold Request.prepare Ingestion.prepare
  dsimp only
  rcases hsort : topologicalSort (metadataLinks (batchExternalIdMap request.draws request.batch))
      request.batch.zipIdx with error | sorted
  · exact rfl
  have hsorted := mem_batch_of_sorted (topologicalSort_eq_ok hsort).1
  have hstart : SameProgress workspaceId { db := db₁ } { db := db₂ } := ⟨h, rfl, rfl, rfl, rfl⟩
  have hloop := Alike.foldlM (l := sorted) hstart fun e he p₁ p₂ hp =>
    @processEvent_alike request.parseUuid request.draws request.subject
      (batchExternalIdMap request.draws request.batch) workspaceId p₁ p₂ hp e
      (hfor e.1 (hsorted e he))
  refine hloop.bind fun p₁ p₂ hp => ?_
  rw [hp.errors]
  split
  · exact rfl
  · exact hp

end Prepare

/-! ### The insertion -/

section Insertion

variable {workspaceId : Uuid} {request : Request} {db₁ db₂ : Database} {p₁ p₂ : Progress}

variable {db : Database} {x : String} {progress : Progress}

theorem mem_externalIds_iff :
    x ∈ externalIds db.events.rows ↔
      (∃ e ∈ db.events.rows, e.externalId = some x ∧ e.workspaceId = workspaceId) ∨
        TakenElsewhere workspaceId db x := by
  rw [mem_externalIds]
  constructor
  · rintro ⟨e, he, hx⟩
    by_cases hworkspace : e.workspaceId = workspaceId
    · exact .inl ⟨e, he, hx, hworkspace⟩
    · exact .inr ⟨e, he, hx, hworkspace⟩
  · rintro (⟨e, he, hx, -⟩ | ⟨e, he, hx, -⟩)
    · exact ⟨e, he, hx⟩
    · exact ⟨e, he, hx⟩

theorem SameFor.own_iff (h : SameFor workspaceId db₁ db₂) (x : String) :
    (∃ e ∈ db₁.events.rows, e.externalId = some x ∧ e.workspaceId = workspaceId) ↔
      ∃ e ∈ db₂.events.rows, e.externalId = some x ∧ e.workspaceId = workspaceId :=
  exists_congr fun e =>
    ⟨fun ⟨he, hx, hw⟩ => ⟨(h.events e hw).mp he, hx, hw⟩,
      fun ⟨he, hx, hw⟩ => ⟨(h.events e hw).mpr he, hx, hw⟩⟩

theorem not_takenElsewhere {e : Event} (he : e ∈ db.events.rows) (hx : e.externalId = some x)
    (hworkspace : e.workspaceId = workspaceId) : ¬TakenElsewhere workspaceId db x := by
  rintro ⟨e', he', hx', hother⟩
  obtain rfl := db.events_externalId.eq he he' hx hx'
  exact hother hworkspace

theorem SameTaken.mem_iff (hsame : SameFor workspaceId db₁ db₂)
    (h : SameTaken workspaceId db₁ db₂ request.batch) {e : EventCreate} (he : e ∈ request.batch)
    (hx : x ∈ e.externalId) :
    x ∈ externalIds db₁.events.rows ↔ x ∈ externalIds db₂.events.rows := by
  rw [@mem_externalIds_iff workspaceId, @mem_externalIds_iff workspaceId, hsame.own_iff,
    h e he x hx]

theorem Request.ingest_of_error {error : IngestError}
    (h : request.prepare db = .error error) : request.ingest db = .error error := by
  rw [Request.ingest, Ingestion.ingest]
  unfold Request.prepare at h
  rw [h]
  rfl

theorem refused_iff (h : request.prepare db = .ok progress) :
    Refused request db ↔ ∃ k, ¬Closed db (newRows (externalIds db.events.rows)
      ((request.batching.split (request.rows progress)).take k).flatten) := by
  constructor
  · exact fun hrefused => hrefused progress h
  · intro hk p hp
    obtain rfl := Except.ok.inj (h.symm.trans hp)
    exact hk

theorem ingest_cases (hfresh : Fresh request.draws db) (h : request.prepare db = .ok progress)
    {rows : List Event} (hrows : rows = request.rows progress) :
    (¬Refused request db ∧ Prod.snd <$> request.ingest db = .ok {
        inserted := newRows (externalIds db.events.rows) rows
        duplicates := rows.length - (newRows (externalIds db.events.rows) rows).length }) ∨
      Refused request db ∧ Prod.snd <$> request.ingest db = .error .foreignKeyViolation := by
  rw [refused_iff h, ← hrows]
  rcases @ingest_of_prepare _ _ _ request.batching _ _ hfresh _ h rows hrows with
    ⟨hall, db', hok, -⟩ | ⟨hk, herror⟩
  · refine .inl ⟨fun ⟨k, hk⟩ => hk (hall k), ?_⟩
    rw [Request.ingest, hok]
    rfl
  · refine .inr ⟨hk, ?_⟩
    rw [Request.ingest, herror]
    rfl

section Prepared

variable (hfresh₁ : Fresh request.draws db₁) (hfresh₂ : Fresh request.draws db₂)
  (hsame : SameFor workspaceId db₁ db₂)
  (hfor : ∀ e ∈ request.batch, IsFor workspaceId request.subject e)
  (hprepare₁ : request.prepare db₁ = .ok p₁) (hprepare₂ : request.prepare db₂ = .ok p₂)
  (hp : SameProgress workspaceId p₁ p₂)

theorem fresh_of_prepare (hfresh : Fresh request.draws db)
    (h : request.prepare db = .ok progress) : Fresh request.draws progress.db := by
  obtain ⟨-, hevents, -⟩ := prepare_eq_ok h
  refine ⟨hfresh.injective, fun draw => ?_⟩
  rintro ⟨e, he, hid⟩
  rw [hevents] at he
  exact hfresh.events draw ⟨e, he, hid⟩

include hfresh₁ hfresh₂ hprepare₁ hprepare₂ hp in
theorem rows_eq : request.rows p₁ = request.rows p₂ := by
  obtain ⟨-, -, sorted, -, hdicts⟩ := prepare_eq_ok hprepare₁
  have hrow : ∀ dict ∈ p₁.events, ∀ id, dict.toRow p₁.db id = dict.toRow p₂.db id := by
    intro dict hdict id
    rw [EventDict.toRow, EventDict.toRow]
    rcases hroot : dict.rootId with _ | root
    · rw [hdicts.resolveRoot_eq (fresh_of_prepare hfresh₁ hprepare₁) hdict hroot,
        hdicts.resolveRoot_eq (fresh_of_prepare hfresh₂ hprepare₂) hdict hroot]
    · rfl
  rw [Request.rows, Request.rows, rowsOf, rowsOf, ← hp.events]
  refine List.ext_getElem (by simp) fun i hi hi' => ?_
  rw [List.getElem_mapIdx, List.getElem_mapIdx]
  exact hrow _ (List.getElem_mem _) _

include hfresh₁ hfresh₂ hsame hfor hprepare₁ in
theorem hasEvent_iff {r : Event} (hr : r ∈ request.rows p₁) {u : Uuid} (hu : u ∈ r.refs) :
    db₁.HasEvent u ↔ db₂.HasEvent u := by
  obtain ⟨-, hevents, sorted, hsort, hdicts⟩ := prepare_eq_ok hprepare₁
  have hsorted := mem_batch_of_sorted (topologicalSort_eq_ok hsort).1
  have hnew : ∀ draw, db₁.HasEvent (request.draws draw) ↔ db₂.HasEvent (request.draws draw) :=
    fun draw => iff_of_false (hfresh₁.events draw) (hfresh₂.events draw)
  have hrefs := hdicts.refs (P := fun u => db₁.HasEvent u ↔ db₂.HasEvent u)
    (fun text id hfind => by
      obtain ⟨i, -, -, -, rfl⟩ := exists_of_find_batchExternalIdMap hfind
      exact hnew _)
    (fun e he w event hcheck => by
      -- a stored parent is an event of the workspace, and its root is stored where it is
      obtain ⟨hmem, hw⟩ := mem_of_checkEvent_stored hcheck
      obtain rfl := eq_of_validateWorkspaceId (hfor e.1 (hsorted e he))
        (checkEvent_eq_ok hcheck).1
      have hmem₂ := (hsame.events event hw).mp hmem
      refine ⟨iff_of_true ⟨event, hmem, rfl⟩ ⟨event, hmem₂, rfl⟩, fun root hroot => ?_⟩
      exact iff_of_true (db₁.events_root event hmem root hroot)
        (db₂.events_root event hmem₂ root hroot))
    fun id dict hfind => absurd hfind (by simp [find])
  obtain ⟨position, dict, hdict, rfl⟩ := mem_rowsOf hr
  have hmem := List.mem_of_getElem? hdict
  obtain ⟨hparent, hroot⟩ := hrefs dict hmem
  rcases List.mem_append.mp hu with hu | hu
  · exact hparent u (Option.mem_toList.mp hu)
  · obtain rfl := Option.some.inj (Option.mem_toList.mp hu)
    rcases hsome : dict.rootId with _ | root
    · rw [Option.getD_none,
        hdicts.resolveRoot_eq (fresh_of_prepare hfresh₁ hprepare₁) hmem hsome]
      rcases hparentId : dict.parentId with _ | parentId
      · obtain ⟨draw, hdraw⟩ := hdicts.exists_draw hsorted hr
        rw [Option.getD_none, show dict.id.getD (request.draws (.row position)) = _ from hdraw]
        exact hnew draw
      · exact hparent parentId hparentId
    · exact hroot root hsome

include hfresh₁ hfresh₂ hsame hfor hprepare₁ in
theorem closed_iff {new : List Event} (hnew : ∀ r ∈ new, r ∈ request.rows p₁) :
    Closed db₁ new ↔ Closed db₂ new := by
  refine forall₂_congr fun r hr => forall₂_congr fun u hu => ?_
  rw [hasEvent_iff hfresh₁ hfresh₂ hsame hfor hprepare₁ (hnew r hr) hu]

include hsame hprepare₁ in
/-- **What is dropped.** The same rows are new if other workspaces have used the same external
ids, and only then. -/
theorem newRows_eq_iff :
    newRows (externalIds db₁.events.rows) (request.rows p₁) =
      newRows (externalIds db₂.events.rows) (request.rows p₁) ↔
    SameTaken workspaceId db₁ db₂ request.batch := by
  obtain ⟨-, -, sorted, hsort, hdicts⟩ := prepare_eq_ok hprepare₁
  have hperm := (topologicalSort_eq_ok hsort).1
  constructor
  · -- an external id that is stored in one database only makes a difference
    have hmem : ∀ {db db' : Database}, newRows (externalIds db.events.rows) (request.rows p₁) =
        newRows (externalIds db'.events.rows) (request.rows p₁) → ∀ e ∈ request.batch,
        ∀ x ∈ e.externalId, x ∈ externalIds db.events.rows → x ∈ externalIds db'.events.rows := by
      intro db db' heq e he x hx hstored
      by_contra hfree
      obtain ⟨r, hr, hrx⟩ : ∃ r ∈ request.rows p₁, r.externalId = e.externalId :=
        hdicts.exists_row hperm he
      obtain ⟨r', hr', hrx'⟩ := exists_newRows hr (hrx.trans hx) hfree
      rw [← heq] at hr'
      exact not_mem_of_mem_newRows hr' x hrx' hstored
    intro heq e he x hx
    constructor
    · intro htaken
      have hstored := hmem heq e he x hx (mem_externalIds_iff.mpr (.inr htaken))
      refine ((@mem_externalIds_iff workspaceId _ _).mp hstored).resolve_left fun hown => ?_
      obtain ⟨own, hmem, hx', hworkspace⟩ := (hsame.own_iff x).mpr hown
      exact not_takenElsewhere hmem hx' hworkspace htaken
    · intro htaken
      have hstored := hmem heq.symm e he x hx (mem_externalIds_iff.mpr (.inr htaken))
      refine ((@mem_externalIds_iff workspaceId _ _).mp hstored).resolve_left fun hown => ?_
      obtain ⟨own, hmem, hx', hworkspace⟩ := (hsame.own_iff x).mp hown
      exact not_takenElsewhere hmem hx' hworkspace htaken
  · intro htaken
    refine newRows_congr fun r hr x hx => ?_
    obtain ⟨e, he, hex⟩ := hdicts.exists_event (mem_batch_of_sorted hperm) hr
    exact htaken.mem_iff hsame he (hex.trans hx)

include hfresh₁ hfresh₂ hsame hfor hprepare₁ hprepare₂ hp in
theorem refused_congr (htaken : SameTaken workspaceId db₁ db₂ request.batch) :
    Refused request db₁ ↔ Refused request db₂ := by
  obtain ⟨-, -, sorted, hsort, hdicts⟩ := prepare_eq_ok hprepare₁
  rw [refused_iff hprepare₁, refused_iff hprepare₂,
    ← rows_eq hfresh₁ hfresh₂ hprepare₁ hprepare₂ hp]
  refine exists_congr fun k => not_congr ?_
  have hwithin : ∀ r ∈ ((request.batching.split (request.rows p₁)).take k).flatten,
      r ∈ request.rows p₁ := by
    intro r hr
    obtain ⟨statement, hstatement, hr⟩ := List.mem_flatten.mp hr
    rw [← request.batching.flatten_split (request.rows p₁)]
    exact List.mem_flatten.mpr ⟨statement, List.mem_of_mem_take hstatement, hr⟩
  have hsameRows : newRows (externalIds db₁.events.rows)
      ((request.batching.split (request.rows p₁)).take k).flatten =
        newRows (externalIds db₂.events.rows)
          ((request.batching.split (request.rows p₁)).take k).flatten := by
    refine newRows_congr fun r hr x hx => ?_
    obtain ⟨e, he, hex⟩ := hdicts.exists_event
      (mem_batch_of_sorted (topologicalSort_eq_ok hsort).1) (hwithin r hr)
    exact htaken.mem_iff hsame he (hex.trans hx)
  rw [hsameRows]
  refine closed_iff hfresh₁ hfresh₂ hsame hfor hprepare₁ fun r hr => ?_
  exact hwithin r ((newRows_sublist _ _).subset hr)

end Prepared

/-- **Tenant isolation.** In two databases that differ in the events of other workspaces only, a
batch for a workspace has the same outcome exactly if these other workspaces have used the same
external ids of the batch, or if it is refused in both. -/
theorem tenantIsolated_iff (hfresh₁ : Fresh request.draws db₁) (hfresh₂ : Fresh request.draws db₂)
    (hsame : SameFor workspaceId db₁ db₂)
    (hfor : ∀ e ∈ request.batch, IsFor workspaceId request.subject e) :
    SameOutcome request db₁ db₂ ↔ SameTaken workspaceId db₁ db₂ request.batch ∨
      Refused request db₁ ∧ Refused request db₂ := by
  have halike := prepare_alike hsame hfor
  cases hprepare₁ : request.prepare db₁ with
  | error error =>
    -- the checks fail in both, with the same errors
    cases hprepare₂ : request.prepare db₂ with
    | ok p₂ =>
      rw [hprepare₁, hprepare₂] at halike
      exact halike.elim
    | error error' =>
      rw [hprepare₁, hprepare₂] at halike
      obtain rfl : error = error' := halike
      refine iff_of_true ?_ (.inr ⟨fun p hp => ?_, fun p hp => ?_⟩)
      · rw [SameOutcome, Request.ingest_of_error hprepare₁, Request.ingest_of_error hprepare₂]
      · exact absurd (hprepare₁.symm.trans hp) (by simp)
      · exact absurd (hprepare₂.symm.trans hp) (by simp)
  | ok p₁ =>
    cases hprepare₂ : request.prepare db₂ with
    | error error =>
      rw [hprepare₁, hprepare₂] at halike
      exact halike.elim
    | ok p₂ =>
      rw [hprepare₁, hprepare₂] at halike
      have hrows := rows_eq hfresh₁ hfresh₂ hprepare₁ hprepare₂ halike
      have hdropped := newRows_eq_iff hsame hprepare₁
      have hcongr := refused_congr hfresh₁ hfresh₂ hsame hfor hprepare₁ hprepare₂ halike
      rw [SameOutcome]
      rcases ingest_cases hfresh₁ hprepare₁ rfl with ⟨hopen₁, hok₁⟩ | ⟨hrefused₁, herror₁⟩
      · rcases ingest_cases hfresh₂ hprepare₂ hrows with ⟨hopen₂, hok₂⟩ | ⟨hrefused₂, herror₂⟩
        · rw [hok₁, hok₂, or_iff_left (fun h => hopen₁ h.1), ← hdropped]
          constructor
          · exact fun h => congrArg Ingested.inserted (Except.ok.inj h)
          · exact fun h => by rw [h]
        · rw [hok₁, herror₂]
          refine iff_of_false (by simp) ?_
          rintro (htaken | ⟨hrefused₁, -⟩)
          · exact hopen₁ ((hcongr htaken).mpr hrefused₂)
          · exact hopen₁ hrefused₁
      · rcases ingest_cases hfresh₂ hprepare₂ hrows with ⟨hopen₂, hok₂⟩ | ⟨hrefused₂, herror₂⟩
        · rw [herror₁, hok₂]
          refine iff_of_false (by simp) ?_
          rintro (htaken | ⟨-, hrefused₂⟩)
          · exact hopen₂ ((hcongr htaken).mp hrefused₁)
          · exact hopen₂ hrefused₂
        · rw [herror₁, herror₂]
          exact iff_of_true rfl (.inr ⟨hrefused₁, hrefused₂⟩)

end Insertion

/-! ### A batch of one event -/

/-- Ids from 10 on. -/
def numbered : Draw → ℕ
  | .externalId i => 3 * i + 10
  | .row i => 3 * i + 11
  | .eventType i => 3 * i + 12

/-- Workspace 1 sends an event with an external id. -/
def order : Request where
  parseUuid _ := none
  draws := numbered
  batching := ⟨fun rows => [rows], fun rows => List.append_nil rows⟩
  subject := .workspace 1
  batch := [{
    timestamp := 0
    name := "order.paid"
    externalId := some "order-1"
    customer := .external "customer-1" none }]

/-- The event of another workspace with the same external id. -/
def orderElsewhere (id workspaceId : Uuid) : Event where
  timestamp := 0
  name := "order.paid"
  source := .user
  externalId := some "order-1"
  customer := .external "customer-1" none
  userMetadata := ""
  workspaceId := workspaceId
  eventTypeId := none
  id := id
  parentId := none
  rootId := some id

/-- A database with that event. -/
def databaseElsewhere (id workspaceId : Uuid) : Database where
  toDatabase := Identity.Database.empty
  eventTypes := Table.empty
  eventTypes_name := List.nodup_nil
  events := ⟨[orderElsewhere id workspaceId], List.nodup_singleton _⟩
  events_externalId := List.nodup_singleton _
  events_parent := by simp [Table.ReferencesNullable, orderElsewhere]
  events_root := by simp [Table.ReferencesNullable, orderElsewhere]

theorem numbered_injective : numbered.Injective := by
  rintro (i | i | i) (j | j | j) h <;> simp only [numbered] at h <;>
    (congr 1; omega)

theorem le_numbered (draw : Draw) : 10 ≤ numbered draw := by
  rcases draw with i | i | i <;> simp only [numbered] <;> omega

theorem fresh_elsewhere {id : Uuid} (workspaceId : Uuid) (h : id < 10) :
    Fresh order.draws (databaseElsewhere id workspaceId) := by
  refine ⟨numbered_injective, ?_⟩
  rintro draw ⟨e, he, hid⟩
  obtain rfl := List.mem_singleton.mp he
  exact absurd ((le_numbered draw).trans_eq hid.symm) (Nat.not_le_of_lt h)

theorem sameFor_elsewhere {id id' w w' : Uuid} (hw : w ≠ 1) (hw' : w' ≠ 1) :
    SameFor 1 (databaseElsewhere id w) (databaseElsewhere id' w') := by
  refine ⟨rfl, rfl, fun e he => iff_of_false (fun hmem => ?_) fun hmem => ?_⟩
  · obtain rfl := List.mem_singleton.mp hmem
    exact hw he
  · obtain rfl := List.mem_singleton.mp hmem
    exact hw' he

/-- Workspaces 2 and 3 have used the external id. -/
theorem tenantIsolated_elsewhere :
    SameOutcome order (databaseElsewhere 7 2) (databaseElsewhere 8 3) := by
  refine (tenantIsolated_iff (fresh_elsewhere 2 (by decide)) (fresh_elsewhere 3 (by decide))
    (sameFor_elsewhere (by decide) (by decide)) fun e _ => .inl rfl).mpr (.inl ?_)
  intro e he x hx
  obtain rfl := List.mem_singleton.mp he
  obtain rfl := Option.some.inj hx
  exact iff_of_true ⟨_, List.mem_singleton_self _, rfl, by decide⟩
    ⟨_, List.mem_singleton_self _, rfl, by decide⟩

/-- In an empty database the event is inserted; where workspace 2 has used the external id, it is
dropped as a duplicate. -/
theorem order_dropped :
    SameFor 1 {} (databaseElsewhere 7 2) ∧ Fresh order.draws {} ∧
      Fresh order.draws (databaseElsewhere 7 2) ∧ (∀ e ∈ order.batch, IsFor 1 order.subject e) ∧
      ¬SameOutcome order {} (databaseElsewhere 7 2) := by
  refine ⟨⟨rfl, rfl, fun e he => iff_of_false List.not_mem_nil fun hmem => ?_⟩,
    ⟨numbered_injective, fun _ ⟨_, he, _⟩ => List.not_mem_nil he⟩, fresh_elsewhere 2 (by decide),
    fun e _ => .inl rfl, by decide +kernel⟩
  obtain rfl := List.mem_singleton.mp hmem
  exact absurd he (by decide)

end Rapidly.Analytics.Ingestion
