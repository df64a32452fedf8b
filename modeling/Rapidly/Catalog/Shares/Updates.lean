import Rapidly.Catalog.Shares.Prices
import Rapidly.Relational.ReadCommitted
import Rapidly.Transition.Tasks

/-!
# Shares that are created and updated

`create` and `update` of `catalog/share/actions.py` and `update` of `platform/workspace/actions.py`,
any number of each on any shares and workspaces, one SQL statement a step. An update of a share
checks the prices of the request against those it has loaded, archives the ones that are not
mentioned, each with a statement of its own, and inserts the new ones.

* `operations` is the system, from any shares with well-formed prices.
* `wellFormed_kept` says in which runs the prices of every share stay well formed.
-/

namespace Rapidly.Catalog

open Relational Transition

namespace SharePrices

open Prices

/-- A `SharePrice` of the catalogue, from its `INSERT` on. -/
structure Row where
  price : SharePrice
  isArchived : Versioned (Option Bool)
deriving DecidableEq

/-- A `Share`: it is there when `created` is true. -/
structure Share where
  workspaceId : ℕ
  created : Versioned Bool
  prices : List Row
deriving DecidableEq

namespace Share

variable (share : Share) (view : Versioned (Option Bool) → Option Bool)

/-- The prices that are not archived, in a version of the table. -/
def activePrices : List SharePrice :=
  (share.prices.filter fun r => view r.isArchived = some false).map Row.price

/-- `Share.prices` as it is loaded, with the numbers of the rows. -/
def loadedPrices : List (ℕ × SharePrice) :=
  (share.prices.zipIdx.filter fun (r, _) => r.isArchived.committed = some false).map
    fun (r, id) => (id, r.price)

/-- Another transaction has written a row of the share. -/
def LockedFor (i : ℕ) : Prop :=
  share.created.LockedFor i ∨ ∃ r ∈ share.prices, r.isArchived.LockedFor i

instance (i : ℕ) : Decidable (share.LockedFor i) := inferInstanceAs (Decidable (_ ∨ _))

def archive (i id : ℕ) : Share :=
  { share with
    prices := share.prices.modify id fun r =>
      { r with isArchived := r.isArchived.write i (some true) } }

def insert (i : ℕ) (added : List SharePrice) : Share :=
  { share with
    prices := share.prices ++ added.map fun price =>
      { price, isArchived := { committed := none, pending := some (i, some false) } } }

/-- The share that `create` inserts with its prices. -/
def new (i workspaceId : ℕ) (prices : List SharePrice) : Share where
  workspaceId
  created := { committed := false, pending := some (i, true) }
  prices := prices.map fun price =>
    { price, isArchived := { committed := none, pending := some (i, some false) } }

/-- The end of a transaction. -/
def finish (f : ∀ {V : Type}, Versioned V → Versioned V) : Share :=
  { share with
    created := f share.created
    prices := share.prices.map fun r => { r with isArchived := f r.isArchived } }

end Share

/-- The column `default_presentment_currency` of the workspaces, and the shares. -/
structure State where
  workspaces : List (Versioned PresentmentCurrency)
  shares : List Share
deriving DecidableEq

/-- An operation. -/
inductive Task where
  /-- `update` of a share loads the share with its workspace and then the prices, which it
  validates. It archives the prices that are not mentioned and inserts the new ones. -/
  | updating (share : ℕ) (prices : Option (List SharePriceUpdate))
  | selecting (share : ℕ) (default : PresentmentCurrency) (prices : Option (List SharePriceUpdate))
  | archiving (share : ℕ) (loaded : List (ℕ × SharePrice)) (existing deleted : List ℕ)
    (added : List SharePrice)
  /-- `create` of a share loads the workspace, validates the prices and inserts them. -/
  | creating (workspace : ℕ) (prices : List SharePriceCreate)
  | inserting (workspace : ℕ) (prices : List SharePrice)
  /-- `update` of a workspace loads it and writes the column, also with what it was. -/
  | updatingWorkspace (workspace : ℕ) (default : PresentmentCurrency)
  | settingCurrency (workspace : ℕ) (default : PresentmentCurrency)
  | committing
  | ended
  /-- A guard has raised. -/
  | refused
  | failed
deriving DecidableEq

inductive Event where
  | createShare (workspace : ℕ) (prices : List SharePriceCreate)
  | updateShare (share : ℕ) (prices : Option (List SharePriceUpdate))
  | updateWorkspace (workspace : ℕ) (default : PresentmentCurrency)
deriving DecidableEq

namespace State

variable (s : State)

/-- The row of the price is locked by another transaction. -/
def Waits (i k id : ℕ) : Prop :=
  ∃ share ∈ s.shares[k]?, ∃ r ∈ share.prices[id]?, r.isArchived.LockedFor i

instance (i k id : ℕ) : Decidable (s.Waits i k id) :=
  inferInstanceAs (Decidable (∃ share ∈ s.shares[k]?, ∃ r ∈ (share : Share).prices[id]?, _))

def archive (i k id : ℕ) : State := { s with shares := s.shares.modify k (·.archive i id) }

def insert (i k : ℕ) (added : List SharePrice) : State :=
  { s with shares := s.shares.modify k (·.insert i added) }

def create (i workspace : ℕ) (prices : List SharePrice) : State :=
  { s with shares := s.shares ++ [.new i workspace prices] }

def setCurrency (i workspace : ℕ) (default : PresentmentCurrency) : State :=
  { s with workspaces := s.workspaces.modify workspace (·.write i default) }

/-- The end of a transaction, in all tables. -/
def finish (f : ∀ {V : Type}, Versioned V → Versioned V) : State where
  workspaces := s.workspaces.map f
  shares := s.shares.map (·.finish f)

def commit (i : ℕ) : State := s.finish (Versioned.commit · i)

def rollback (i : ℕ) : State := s.finish (Versioned.rollback · i)

end State

/-- One step of an operation. A statement waits while another transaction holds its row. -/
def Task.advance (s : State) (i : ℕ) : Outcome → Task → State × Task × List Unit
  | .executed, .updating k prices =>
    match s.shares[k]? with
    | none => (s, .refused, [])
    | some share =>
      match s.workspaces[share.workspaceId]?, share.created.committed with
      | some default, true => (s, .selecting k default.committed prices, [])
      | _, _ => (s, .refused, [])
  | .executed, .selecting k default prices =>
    match s.shares[k]?, prices with
    | none, _ => (s, .refused, [])
    | some _, none => (s, .committing, [])
    | some share, some requested =>
      let loaded := share.loadedPrices
      let validated := getValidatedPrices default requested loaded
      let deleted := (loaded.filter (·.1 ∉ validated.existing)).map Prod.fst
      if validated.errors ≠ [] then (s, .refused, [])
      else if deleted = [] ∧ validated.added = [] then (s, .committing, [])
      else (s, .archiving k loaded validated.existing deleted validated.added, [])
  | .executed, .archiving k loaded existing (id :: deleted) added =>
    if s.Waits i k id then (s, .archiving k loaded existing (id :: deleted) added, [])
    else (s.archive i k id, .archiving k loaded existing deleted added, [])
  | .executed, .archiving k _ _ [] added => (s.insert i k added, .committing, [])
  | .executed, .creating workspace prices =>
    match s.workspaces[workspace]? with
    | none => (s, .refused, [])
    | some default =>
      let validated := getValidatedPrices default.committed (prices.map .added) []
      if validated.errors = [] then (s, .inserting workspace validated.prices, [])
      -- the share has been inserted, and is rolled back
      else (s, .refused, [])
  | .executed, .inserting workspace prices => (s.create i workspace prices, .committing, [])
  | .executed, .updatingWorkspace workspace default =>
    match s.workspaces[workspace]? with
    | none => (s, .refused, [])
    | some _ => (s, .settingCurrency workspace default, [])
  | .executed, .settingCurrency workspace default =>
    if ∃ w ∈ s.workspaces[workspace]?, w.LockedFor i then
      (s, .settingCurrency workspace default, [])
    else (s.setCurrency i workspace default, .committing, [])
  | .executed, .committing => (s.commit i, .ended, [])
  | .raised, .ended => (s, .ended, [])
  | .raised, .refused => (s, .refused, [])
  | .raised, _ => (s.rollback i, .failed, [])
  | _, t => (s, t, [])

/-- The prices of every share are well formed, in the default currency of its workspace. -/
def State.WellFormed (s : State) : Prop :=
  ∀ share ∈ s.shares, share.created.committed = true →
    ∃ default ∈ s.workspaces[share.workspaceId]?,
      Prices.WellFormed default.committed (share.activePrices Versioned.committed)

instance (s : State) : Decidable s.WellFormed :=
  inferInstanceAs (Decidable (∀ share ∈ s.shares, _ → ∃ default ∈ s.workspaces[_]?, _))

/-- What the operations begin with, all of it committed. -/
structure Snapshot where
  workspaces : List PresentmentCurrency
  /-- The workspace of each share and its prices, with `is_archived`. -/
  shares : List (ℕ × List (SharePrice × Bool))

def Snapshot.state (start : Snapshot) : State where
  workspaces := start.workspaces.map fun default => { committed := default }
  shares := start.shares.map fun (workspaceId, prices) =>
    { workspaceId
      created := { committed := true }
      prices := prices.map fun (price, isArchived) =>
        { price, isArchived := { committed := some isArchived } } }

/-- A beginning with well-formed prices. -/
structure Start extends Snapshot where
  wellFormed : toSnapshot.state.WellFormed

/-- The operations on any shares and workspaces. -/
def operations (start : Start) : Tasks State Task Event Outcome Unit where
  init := start.state
  arrive s _
    | .createShare workspace prices => (s, [.creating workspace prices], [])
    | .updateShare share prices => (s, [.updating share prices], [])
    | .updateWorkspace workspace default => (s, [.updatingWorkspace workspace default], [])
  advance s i := Task.advance s i

/-! ### Prices that stay well formed -/

/-- The prices are in the default currency of the workspace, however the transactions end. -/
def State.Covers (s : State) (workspace : ℕ) (prices : List SharePrice) : Prop :=
  ∃ default ∈ s.workspaces[workspace]?, default.Stands (HasCurrency · prices)

instance (s : State) (workspace : ℕ) (prices : List SharePrice) :
    Decidable (s.Covers workspace prices) :=
  inferInstanceAs (Decidable (∃ default ∈ s.workspaces[workspace]?, _))

/-- The prices of every share are well formed after the step. -/
def KeepsWellFormed (start : Start) : System.Condition (Pool State Task) (Turn Event Outcome)
  | _, p, l => ((operations start).step p l).1.shared.WellFormed

instance (start : Start) (past : List (Turn Event Outcome)) (p : Pool State Task)
    (l : Turn Event Outcome) : Decidable (KeepsWellFormed start past p l) :=
  inferInstanceAs (Decidable (State.WellFormed _))

/-- When a share is updated, the prices that have been loaded are still those of the share, no other
transaction has written one, and those it is left with are in the default currency that its
workspace has, or is about to have. The latter holds when a share is created. When the default
currency is set, each share of the workspace has a price in it, and will have one. -/
def Guarded : System.Condition (Pool State Task) (Turn Event Outcome)
  | _, p, .resumed i .executed =>
    match p.tasks[i]? with
    | some (.archiving k loaded _ (id :: _) _) =>
      ¬p.shared.Waits i k id →
        ∃ share ∈ p.shared.shares[k]?, share.loadedPrices = loaded ∧ ¬share.LockedFor i
    | some (.archiving k loaded existing [] added) =>
      ∃ share ∈ p.shared.shares[k]?, share.loadedPrices = loaded ∧ ¬share.LockedFor i ∧
        p.shared.Covers share.workspaceId ((kept loaded existing).map Prod.snd ++ added)
    | some (.inserting workspace prices) => p.shared.Covers workspace prices
    | some (.settingCurrency workspace default) =>
      (¬∃ w ∈ p.shared.workspaces[workspace]?, w.LockedFor i) →
        ∀ share ∈ p.shared.shares, share.workspaceId = workspace →
          (share.created.committed = true →
              HasCurrency default (share.activePrices Versioned.committed)) ∧
            (share.created.latest = true →
              HasCurrency default (share.activePrices Versioned.latest))
    | _ => True
  | _, _, _ => True

instance (past : List (Turn Event Outcome)) (p : Pool State Task) (l : Turn Event Outcome) :
    Decidable (Guarded past p l) := by
  unfold Guarded
  split
  · split <;> infer_instance
  · infer_instance

/-! ### The steps -/

variable {s s' : State} {i j k : ℕ} {answer : Outcome} {t t' : Task} {share share' : Share}

/-- An operation that has not validated or written any prices, or is over. -/
def Task.IsIdle : Task → Prop
  | .archiving .. | .inserting .. | .committing => False
  | _ => True

/-- What one step of an operation can do. -/
inductive Advanced (s : State) (i : ℕ) : Outcome → Task → State × Task → Prop
  | waited (answer : Outcome) (t : Task) : Advanced s i answer t (s, t)
  | went (answer : Outcome) {t t' : Task} (ht : t.IsIdle) (ht' : t'.IsIdle ∨ t' = .committing) :
    Advanced s i answer t (s, t')
  | validated (k : ℕ) (default : PresentmentCurrency) (requested : List SharePriceUpdate)
      {share : Share} (hk : s.shares[k]? = some share) {validated : Validated}
      (hvalidated : validated = getValidatedPrices default requested share.loadedPrices)
      (hvalid : validated.errors = []) :
    Advanced s i .executed (.selecting k default (some requested))
      (s, .archiving k share.loadedPrices validated.existing
        ((share.loadedPrices.filter (·.1 ∉ validated.existing)).map Prod.fst) validated.added)
  | archived (k : ℕ) (loaded : List (ℕ × SharePrice)) (existing : List ℕ) (id : ℕ)
      (deleted : List ℕ) (added : List SharePrice) (hfree : ¬s.Waits i k id) :
    Advanced s i .executed (.archiving k loaded existing (id :: deleted) added)
      (s.archive i k id, .archiving k loaded existing deleted added)
  | inserted (k : ℕ) (loaded : List (ℕ × SharePrice)) (existing : List ℕ)
      (added : List SharePrice) :
    Advanced s i .executed (.archiving k loaded existing [] added)
      (s.insert i k added, .committing)
  | priced (workspace : ℕ) (requested : List SharePriceCreate) (default : PresentmentCurrency)
      (hvalid : (getValidatedPrices default (requested.map .added) []).errors = []) :
    Advanced s i .executed (.creating workspace requested)
      (s, .inserting workspace (getValidatedPrices default (requested.map .added) []).prices)
  | created (workspace : ℕ) (prices : List SharePrice) :
    Advanced s i .executed (.inserting workspace prices)
      (s.create i workspace prices, .committing)
  | currencySet (workspace : ℕ) (default : PresentmentCurrency)
      (hfree : ¬∃ w ∈ s.workspaces[workspace]?, w.LockedFor i) :
    Advanced s i .executed (.settingCurrency workspace default)
      (s.setCurrency i workspace default, .committing)
  | committed : Advanced s i .executed .committing (s.commit i, .ended)
  | failed (t : Task) : Advanced s i .raised t (s.rollback i, .failed)

theorem Task.advanced :
    Advanced s i answer t ((t.advance s i answer).1, (t.advance s i answer).2.1) := by
  fun_cases Task.advance s i answer t
  case case8 hk _ _ _ hvalid _ => exact .validated _ _ _ hk rfl (not_not.mp hvalid)
  case case10 hfree => exact .archived _ _ _ _ _ _ hfree
  case case11 => exact .inserted ..
  case case13 hvalid => exact .priced _ _ _ hvalid
  case case15 => exact .created ..
  case case19 hfree => exact .currencySet _ _ hfree
  case case20 => exact .committed
  case case23 => exact .failed _
  case case5 | case7 => exact .went _ trivial (.inr rfl)
  case case9 | case18 | case21 | case22 | case24 => exact .waited ..
  all_goals exact .went _ trivial (.inl trivial)

/-! ### Versions of a share -/

namespace Share

/-- A transaction has written the share or one of its prices. -/
def WrittenBy (share : Share) (i : ℕ) : Prop :=
  (∃ v, share.created.pending = some (i, v)) ∨
    ∃ r ∈ share.prices, ∃ v, r.isArchived.pending = some (i, v)

theorem created_of_not_writtenBy (h : ¬share.WrittenBy i) (v : Bool) :
    share.created.pending ≠ some (i, v) := fun hv => h (.inl ⟨v, hv⟩)

theorem row_of_not_writtenBy (h : ¬share.WrittenBy i) {r : Row} (hr : r ∈ share.prices)
    (v : Option Bool) : r.isArchived.pending ≠ some (i, v) :=
  fun hv => h (.inr ⟨r, hr, v, hv⟩)

theorem not_writtenBy_of_not_lockedFor (h : ¬share.LockedFor i) (hj : j ≠ i) :
    ¬share.WrittenBy j := by
  rintro (⟨v, hv⟩ | ⟨r, hr, v, hv⟩)
  · exact h (.inl ⟨(j, v), hv, hj⟩)
  · exact h (.inr ⟨r, hr, (j, v), hv, hj⟩)

theorem loadedPrices_nodup : (share.loadedPrices.map Prod.fst).Nodup := by
  have hids : (share.prices.zipIdx.map Prod.snd).Nodup := by
    rw [List.zipIdx_map_snd]
    exact List.nodup_range' _
  rw [loadedPrices, List.map_map]
  exact hids.sublist (List.filter_sublist.map Prod.snd)

theorem mem_loadedPrices {p : ℕ × SharePrice} : p ∈ share.loadedPrices ↔
    ∃ r, share.prices[p.1]? = some r ∧ r.isArchived.committed = some false ∧ r.price = p.2 := by
  rw [loadedPrices, List.mem_map]
  constructor
  · rintro ⟨⟨r, n⟩, hr, rfl⟩
    obtain ⟨hmem, hactive⟩ := List.mem_filter.mp hr
    exact ⟨r, List.mem_zipIdx_iff_getElem?.mp hmem, of_decide_eq_true hactive, rfl⟩
  · rintro ⟨r, hr, hactive, hprice⟩
    exact ⟨(r, p.1), List.mem_filter.mpr ⟨List.mem_zipIdx_iff_getElem?.mpr hr,
      decide_eq_true hactive⟩, Prod.ext rfl hprice⟩

theorem activePrices_eq_kept {existing : List ℕ}
    (h : ∀ n r, share.prices[n]? = some r →
      (r.isArchived.latest = some false ↔ r.isArchived.committed = some false ∧ n ∈ existing)) :
    share.activePrices Versioned.latest = (kept share.loadedPrices existing).map Prod.snd := by
  have hrows : share.prices.zipIdx.map Prod.fst = share.prices := List.zipIdx_map_fst ..
  rw [activePrices, kept, loadedPrices, List.filter_map, List.filter_filter, List.map_map,
    ← hrows, List.filter_map, List.map_map, hrows]
  have hfilter : ∀ x ∈ share.prices.zipIdx,
      decide (x.1.isArchived.latest = some false) =
        (decide (x.2 ∈ existing) && decide (x.1.isArchived.committed = some false)) := by
    intro x hx
    have hiff := h x.2 x.1 (List.mem_zipIdx_iff_getElem?.mp hx)
    simp [hiff, Bool.and_comm]
  exact congrArg (List.map _) (List.filter_congr hfilter)

theorem activePrices_congr {view view' : Versioned (Option Bool) → Option Bool}
    (h : share'.prices.map (fun r => (r.price, view r.isArchived)) =
      share.prices.map fun r => (r.price, view' r.isArchived)) :
    share'.activePrices view = share.activePrices view' := by
  have hactive : ∀ (sh : Share) (v : Versioned (Option Bool) → Option Bool), sh.activePrices v =
      ((sh.prices.map fun r => (r.price, v r.isArchived)).filter (·.2 = some false)).map
        Prod.fst := by
    intro sh v
    rw [activePrices, List.filter_map, List.map_map]
    rfl
  rw [hactive, hactive, h]

theorem activePrices_finish {f : ∀ {V : Type}, Versioned V → Versioned V}
    {view view' : Versioned (Option Bool) → Option Bool}
    (h : ∀ r ∈ share.prices, view (f r.isArchived) = view' r.isArchived) :
    (share.finish f).activePrices view = share.activePrices view' := by
  refine activePrices_congr ?_
  rw [finish, List.map_map]
  exact List.map_congr_left fun r hr => Prod.ext rfl (h r hr)

theorem activePrices_archive (id : ℕ) : (share.archive i id).activePrices Versioned.committed =
    share.activePrices Versioned.committed := by
  refine activePrices_congr (List.ext_getElem? fun n => ?_)
  rw [archive, List.getElem?_map, List.getElem?_map, List.getElem?_modify]
  cases share.prices[n]? with
  | none => rfl
  | some r => by_cases hn : id = n <;> simp [hn]

theorem activePrices_insert (added : List SharePrice)
    (view : Versioned (Option Bool) → Option Bool) :
    (share.insert i added).activePrices view = share.activePrices view ++
      if view { committed := none, pending := some (i, some false) } = some false then added
      else [] := by
  rw [activePrices, activePrices, insert, List.filter_append, List.map_append, List.filter_map,
    List.map_map]
  congr 1
  by_cases hview : view { committed := none, pending := some (i, some false) } = some false
  · simp [hview, Function.comp_def]
  · simp [hview, Function.comp_def]

@[simp] theorem committed_insert (added : List SharePrice) :
    (share.insert i added).activePrices Versioned.committed =
      share.activePrices Versioned.committed := by
  simp [activePrices_insert]

@[simp] theorem latest_insert (added : List SharePrice) :
    (share.insert i added).activePrices Versioned.latest =
      share.activePrices Versioned.latest ++ added := by
  simp [activePrices_insert, Versioned.latest]

/-- What is left of the writes of a transaction after another one has taken a step. -/
structure Leaves (i : ℕ) (share share' : Share) : Prop where
  created : ∀ v, share'.created.pending = some (i, v) → share.created.pending = some (i, v)
  rows : ∀ (n : ℕ) (r : Row) (v : Option Bool), r.isArchived.pending = some (i, v) →
    (share'.prices[n]? = some r ↔ share.prices[n]? = some r)
  eq : share.WrittenBy i → ¬share.LockedFor i → share' = share

theorem Leaves.refl (i : ℕ) (share : Share) : Leaves i share share where
  created _ h := h
  rows _ _ _ _ := Iff.rfl
  eq _ _ := rfl

theorem Leaves.of_not_writtenBy (h : ¬share.WrittenBy i) (h' : ¬share'.WrittenBy i) :
    Leaves i share share' where
  created v hv := absurd (.inl ⟨v, hv⟩) h'
  rows n r v hv := by
    have hrow {sh : Share} (hsh : ¬sh.WrittenBy i) : sh.prices[n]? ≠ some r := fun hn =>
      row_of_not_writtenBy hsh (List.mem_of_getElem? hn) v hv
    exact iff_of_false (hrow h') (hrow h)
  eq hwritten := absurd hwritten h

theorem Leaves.writtenBy (h : Leaves i share share') (hwritten : share'.WrittenBy i) :
    share.WrittenBy i := by
  rcases hwritten with ⟨v, hv⟩ | ⟨r, hr, v, hv⟩
  · exact .inl ⟨v, h.created v hv⟩
  · obtain ⟨n, hn⟩ := List.getElem?_of_mem hr
    exact .inr ⟨r, List.mem_of_getElem? ((h.rows n r v hv).mp hn), v, hv⟩

section Finish

variable {f : ∀ {V : Type}, Versioned V → Versioned V}

theorem finish_eq (hf : Versioned.Ends i @f) (h : ¬share.WrittenBy i) :
    share.finish f = share := by
  have hrows : share.prices.map (fun r => { r with isArchived := f r.isArchived }) =
      share.prices := by
    refine (List.map_congr_left fun r hr => ?_).trans (List.map_id _)
    rw [hf.eq_self (row_of_not_writtenBy h hr)]
    rfl
  rw [finish, hf.eq_self (created_of_not_writtenBy h), hrows]

theorem not_writtenBy_finish (hf : Versioned.Ends i @f) : ¬(share.finish f).WrittenBy i := by
  rintro (⟨v, hv⟩ | ⟨r, hr, v, hv⟩)
  · exact (hf.pending hv).2 rfl
  · obtain ⟨r, -, rfl⟩ := List.mem_map.mp hr
    exact (hf.pending hv).2 rfl

theorem leaves_finish (hf : Versioned.Ends i @f) (hj : j ≠ i) :
    Leaves j share (share.finish f) where
  created v hv := (hf.pending hv).1
  rows n r v hv := by
    have hself : f r.isArchived = r.isArchived :=
      hf.eq_self fun v' hv' => hj (congrArg Prod.fst (Option.some.inj (hv.symm.trans hv')))
    constructor
    · intro hn
      obtain ⟨r', hr', rfl⟩ := getElem?_map_cases hn
      -- a row of transaction `j` was its row before, and the end of `i` leaves it
      have hself' : f r'.isArchived = r'.isArchived := by
        refine hf.eq_self fun v' hv' => hj ?_
        exact congrArg Prod.fst (Option.some.inj ((hf.pending hv).1.symm.trans hv'))
      have hrow : ({ r' with isArchived := f r'.isArchived } : Row) = r' := by rw [hself']
      exact hr'.trans (congrArg some hrow.symm)
    · intro hn
      rw [finish, getElem?_map_of_eq hn, hself]
  eq _ hlocked := finish_eq hf fun hwritten =>
    not_writtenBy_of_not_lockedFor hlocked hj.symm hwritten

end Finish

theorem writtenBy_archive {id : ℕ} (hj : j ≠ i) (h : (share.archive i id).WrittenBy j) :
    share.WrittenBy j := by
  rcases h with hcreated | ⟨r', hr', v, hv⟩
  · exact .inl hcreated
  · obtain ⟨n, hn⟩ := List.getElem?_of_mem hr'
    rcases getElem?_modify_cases hn with ⟨r, -, -, rfl⟩ | ⟨hold, -⟩
    · exact absurd (congrArg Prod.fst (Option.some.inj hv)) hj.symm
    · exact .inr ⟨r', List.mem_of_getElem? hold, v, hv⟩

variable {added prices : List SharePrice} {workspace : ℕ}

theorem mem_insert {r : Row} (hr : r ∈ (share.insert i added).prices) :
    r ∈ share.prices ∨ r.isArchived.pending = some (i, some false) := by
  rcases List.mem_append.mp hr with hold | hnew
  · exact .inl hold
  · obtain ⟨price, -, rfl⟩ := List.mem_map.mp hnew
    exact .inr rfl

theorem writtenBy_insert (hj : j ≠ i)
    (h : (share.insert i added).WrittenBy j) : share.WrittenBy j := by
  rcases h with hcreated | ⟨r, hr, v, hv⟩
  · exact .inl hcreated
  · rcases mem_insert hr with hold | hnew
    · exact .inr ⟨r, hold, v, hv⟩
    · exact absurd (congrArg Prod.fst (Option.some.inj (hnew.symm.trans hv))) hj.symm

theorem lockedFor_insert (h : (share.insert i added).LockedFor i) : share.LockedFor i := by
  rcases h with hcreated | ⟨r, hr, w, hw, hne⟩
  · exact .inl hcreated
  · rcases mem_insert hr with hold | hnew
    · exact .inr ⟨r, hold, w, hw, hne⟩
    · exact absurd (congrArg Prod.fst (Option.some.inj (hnew.symm.trans hw))) hne.symm

theorem writtenBy_new (h : (new i workspace prices).WrittenBy j) : j = i := by
  rcases h with ⟨v, hv⟩ | ⟨r, hr, v, hv⟩
  · exact (congrArg Prod.fst (Option.some.inj hv)).symm
  · obtain ⟨price, -, rfl⟩ := List.mem_map.mp hr
    exact (congrArg Prod.fst (Option.some.inj hv)).symm

theorem not_lockedFor_new : ¬(new i workspace prices).LockedFor i := by
  rintro (⟨w, hw, hne⟩ | ⟨r, hr, w, hw, hne⟩)
  · exact hne (writtenBy_new (.inl ⟨w.2, hw⟩))
  · exact hne (writtenBy_new (.inr ⟨r, hr, w.2, hw⟩))

@[simp] theorem latest_new : (new i workspace prices).activePrices Versioned.latest = prices := by
  let empty : Share :=
    { workspaceId := workspace
      created := { committed := false, pending := some (i, true) }
      prices := [] }
  have hinsert : new i workspace prices = empty.insert i prices := rfl
  rw [hinsert, latest_insert]
  rfl

/-- An update has archived the prices that the request does not mention, but for those that it has
still to archive. -/
structure Archived (share : Share) (i : ℕ) (loaded : List (ℕ × SharePrice))
    (existing deleted : List ℕ) : Prop where
  created : ∀ v, share.created.pending ≠ some (i, v)
  rows : ∀ n r v, share.prices[n]? = some r → r.isArchived.pending = some (i, v) →
    v = some true ∧ n ∉ existing
  archived : ∀ p ∈ loaded, p.1 ∉ existing → p.1 ∉ deleted →
    ∃ r, share.prices[p.1]? = some r ∧ r.isArchived.pending = some (i, some true)

variable {loaded : List (ℕ × SharePrice)} {existing deleted : List ℕ}

theorem Archived.of_not_writtenBy (h : ¬share.WrittenBy i) :
    share.Archived i loaded existing
      ((loaded.filter (·.1 ∉ existing)).map Prod.fst) where
  created := created_of_not_writtenBy h
  rows n r v hn hv := absurd hv (row_of_not_writtenBy h (List.mem_of_getElem? hn) v)
  archived p hp hnot hdeleted := by
    have hmem : p ∈ loaded.filter (·.1 ∉ existing) :=
      List.mem_filter.mpr ⟨hp, decide_eq_true hnot⟩
    exact absurd (List.mem_map.mpr ⟨p, hmem, rfl⟩) hdeleted

theorem Archived.leaves (h : share.Archived i loaded existing deleted)
    (hleaves : Leaves i share share') : share'.Archived i loaded existing deleted where
  created v hv := h.created v (hleaves.created v hv)
  rows n r v hn hv := h.rows n r v ((hleaves.rows n r v hv).mp hn) hv
  archived p hp hnot hdeleted := by
    obtain ⟨r, hr, hpending⟩ := h.archived p hp hnot hdeleted
    exact ⟨r, (hleaves.rows p.1 r _ hpending).mpr hr, hpending⟩

theorem Archived.archive {id : ℕ} (h : share.Archived i loaded existing (id :: deleted))
    (hid : id ∉ existing) (hloaded : share.loadedPrices = loaded) :
    (share.archive i id).Archived i loaded existing deleted where
  created := h.created
  rows n r' v hn hv := by
    rcases getElem?_modify_cases hn with ⟨r, -, rfl, rfl⟩ | ⟨hold, -⟩
    · obtain ⟨-, rfl⟩ := Prod.mk.inj (Option.some.inj hv)
      exact ⟨rfl, hid⟩
    · exact h.rows n r' v hold hv
  archived p hp hnot hdeleted := by
    by_cases hpid : p.1 = id
    · subst hloaded
      obtain ⟨r, hr, -, -⟩ := mem_loadedPrices.mp hp
      subst hpid
      exact ⟨_, getElem?_modify_self hr, rfl⟩
    · obtain ⟨r, hr, hpending⟩ := h.archived p hp hnot (by simp [hpid, hdeleted])
      exact ⟨r, (getElem?_modify_of_ne hpid).trans hr, hpending⟩

theorem Archived.activePrices (h : share.Archived i loaded existing [])
    (hloaded : share.loadedPrices = loaded) (hlocked : ¬share.LockedFor i) :
    share.activePrices Versioned.latest = (kept loaded existing).map Prod.snd := by
  subst hloaded
  refine activePrices_eq_kept fun n r hn => ?_
  have hr : r ∈ share.prices := List.mem_of_getElem? hn
  have hfree : ¬r.isArchived.LockedFor i := fun hrow => hlocked (.inr ⟨r, hr, hrow⟩)
  rcases r.isArchived.pending_cases i with ⟨v, hv⟩ | hnot
  · obtain ⟨rfl, hexisting⟩ := h.rows n r v hn hv
    rw [Versioned.latest_eq_of_pending hv]
    simp [hexisting]
  · rw [Versioned.latest_of_pending (Versioned.pending_eq_none hfree hnot)]
    refine ⟨fun hactive => ⟨hactive, ?_⟩, fun h => h.1⟩
    -- an active price that is not mentioned would have been archived
    by_contra hexisting
    have hmem : (n, r.price) ∈ share.loadedPrices := mem_loadedPrices.mpr ⟨r, hn, hactive, rfl⟩
    obtain ⟨r', hr', hpending⟩ := h.archived _ hmem hexisting (List.not_mem_nil)
    obtain rfl := Option.some.inj (hn.symm.trans hr')
    exact hnot _ hpending

end Share

/-! ### The invariant -/

theorem State.Covers.finish {f : ∀ {V : Type}, Versioned V → Versioned V} {workspace : ℕ}
    {prices : List SharePrice} (hf : Versioned.Ends i @f) (h : s.Covers workspace prices) :
    (s.finish f).Covers workspace prices := by
  obtain ⟨default, hdefault, hstands⟩ := h
  exact ⟨_, getElem?_map_of_eq hdefault f, hf.stands hstands⟩

/-- The prices of a share, in the version that is committed or in the latest one. -/
def State.Sound (s : State) (share : Share) (created : Bool) (prices : List SharePrice) : Prop :=
  created = true → Structured prices ∧ s.Covers share.workspaceId prices

def State.SoundCommitted (s : State) (share : Share) : Prop :=
  s.Sound share share.created.committed (share.activePrices Versioned.committed)

def State.SoundLatest (s : State) (share : Share) : Prop :=
  s.Sound share share.created.latest (share.activePrices Versioned.latest)

/-- The transaction has written no share. -/
def State.Untouched (s : State) (i : ℕ) : Prop := ∀ share ∈ s.shares, ¬share.WrittenBy i

/-- What has been written so far: an update has archived some of the prices that are not mentioned;
an operation that is to commit leaves the shares it has written with well-formed prices, and nothing
of them is another transaction's. -/
def Task.Asserts (s : State) (i : ℕ) : Task → Prop
  | .archiving k loaded existing deleted added =>
    (Structured ((kept loaded existing).map Prod.snd ++ added) ∧ ∀ id ∈ deleted, id ∉ existing) ∧
      (∃ share, s.shares[k]? = some share ∧ share.Archived i loaded existing deleted) ∧
        ∀ j share, s.shares[j]? = some share → j ≠ k → ¬share.WrittenBy i
  | .inserting _ prices => Structured prices ∧ s.Untouched i
  | .committing => ∀ share ∈ s.shares, share.WrittenBy i → ¬share.LockedFor i ∧ s.SoundLatest share
  | _ => s.Untouched i

theorem Task.IsIdle.asserts (ht : t.IsIdle) : t.Asserts s i ↔ s.Untouched i := by
  cases t <;> first | exact Iff.rfl | exact ht.elim

theorem asserts_committing (h : s.Untouched i) : Task.committing.Asserts s i :=
  fun share hshare hwritten => absurd hwritten (h share hshare)

/-- A step of another transaction leaves what this one has written. -/
structure Undisturbed (i : ℕ) (s s' : State) : Prop where
  old : ∀ (k : ℕ) (share : Share), s.shares[k]? = some share →
    ∃ share', s'.shares[k]? = some share' ∧ share.Leaves i share'
  new : ∀ (k : ℕ) (share' : Share), s'.shares[k]? = some share' → s.shares[k]? = none →
    ¬share'.WrittenBy i

theorem Undisturbed.cases (h : Undisturbed i s s') (hk : s'.shares[k]? = some share') :
    (∃ share, s.shares[k]? = some share ∧ share.Leaves i share') ∨ ¬share'.WrittenBy i := by
  cases hold : s.shares[k]? with
  | none => exact .inr (h.new k share' hk hold)
  | some share =>
    obtain ⟨found, hfound, hleaves⟩ := h.old k share hold
    obtain rfl := Option.some.inj (hk.symm.trans hfound)
    exact .inl ⟨share, rfl, hleaves⟩

theorem Undisturbed.untouched (h : Undisturbed i s s') (hs : s.Untouched i) : s'.Untouched i := by
  intro share' hshare' hwritten
  obtain ⟨k, hk⟩ := List.getElem?_of_mem hshare'
  rcases h.cases hk with ⟨share, hold, hleaves⟩ | hnot
  · exact hs share (List.mem_of_getElem? hold) (hleaves.writtenBy hwritten)
  · exact hnot hwritten

theorem Task.Asserts.undisturbed (h : t.Asserts s i) (hu : Undisturbed i s s')
    (hsound : ∀ share ∈ s.shares, s.SoundLatest share → s'.SoundLatest share) :
    t.Asserts s' i := by
  cases t with
  | archiving k loaded existing deleted added =>
    obtain ⟨hpure, ⟨share, hk, harchived⟩, hothers⟩ := h
    obtain ⟨share', hk', hleaves⟩ := hu.old k share hk
    refine ⟨hpure, ⟨share', hk', harchived.leaves hleaves⟩, fun j other hj hne hwritten => ?_⟩
    rcases hu.cases hj with ⟨old, hold, hleaves⟩ | hnot
    · exact hothers j old hold hne (hleaves.writtenBy hwritten)
    · exact hnot hwritten
  | inserting workspace prices => exact ⟨h.1, hu.untouched h.2⟩
  | committing =>
    intro share' hshare' hwritten
    obtain ⟨k, hk⟩ := List.getElem?_of_mem hshare'
    rcases hu.cases hk with ⟨share, hold, hleaves⟩ | hnot
    · have hshare : share ∈ s.shares := List.mem_of_getElem? hold
      obtain ⟨hlocked, hlatest⟩ := h share hshare (hleaves.writtenBy hwritten)
      obtain rfl := hleaves.eq (hleaves.writtenBy hwritten) hlocked
      exact ⟨hlocked, hsound share' hshare hlatest⟩
    · exact absurd hwritten hnot
  | _ => exact hu.untouched h

/-- What a step of a transaction does to all others. -/
structure Moves (i : ℕ) (s s' : State) : Prop where
  sound : (∀ share ∈ s.shares, s.SoundCommitted share) →
    ∀ share ∈ s'.shares, s'.SoundCommitted share
  latest : ∀ share ∈ s.shares, s.SoundLatest share → s'.SoundLatest share
  undisturbed : ∀ j, j ≠ i → Undisturbed j s s'

theorem Moves.refl (i : ℕ) (s : State) : Moves i s s where
  sound h := h
  latest _ _ h := h
  undisturbed j _ := {
    old := fun _ share hk => ⟨share, hk, .refl j share⟩
    new := fun k share' hk hnone => absurd (hnone.symm.trans hk) (by simp) }

theorem moves_modify {f : Share → Share} (hk : s.shares[k]? = some share)
    (hlocked : ¬share.LockedFor i) (hworkspace : (f share).workspaceId = share.workspaceId)
    (hcreated : (f share).created = share.created)
    (hprices : (f share).activePrices Versioned.committed =
      share.activePrices Versioned.committed)
    (hwritten : ∀ j, j ≠ i → (f share).WrittenBy j → share.WrittenBy j) :
    Moves i s { s with shares := s.shares.modify k f } where
  sound h share' hshare' := by
    obtain ⟨n, hn⟩ := List.getElem?_of_mem hshare'
    rcases getElem?_modify_cases hn with ⟨old, hold, -, rfl⟩ | ⟨hold, -⟩
    · obtain rfl := Option.some.inj (hk.symm.trans hold)
      have hsound := h share (List.mem_of_getElem? hk)
      rw [State.SoundCommitted, State.Sound, hcreated, hprices, hworkspace]
      exact hsound
    · exact h share' (List.mem_of_getElem? hold)
  latest _ _ h := h
  undisturbed j hj := by
    -- the other transaction has written nothing of the share, before or after the step
    have hnot : ¬share.WrittenBy j := Share.not_writtenBy_of_not_lockedFor hlocked hj
    constructor
    · intro n old hn
      by_cases hnk : n = k
      · subst hnk
        obtain rfl := Option.some.inj (hk.symm.trans hn)
        exact ⟨f share, getElem?_modify_self hk,
          .of_not_writtenBy hnot fun h => hnot (hwritten j hj h)⟩
      · exact ⟨old, (getElem?_modify_of_ne hnk).trans hn, .refl j old⟩
    · intro n share' hn hnone
      rcases getElem?_modify_cases hn with ⟨old, hold, rfl, -⟩ | ⟨hold, -⟩
      · exact absurd (hnone.symm.trans hold) (by simp)
      · exact absurd (hnone.symm.trans hold) (by simp)

theorem moves_create (workspace : ℕ) (prices : List SharePrice) :
    Moves i s (s.create i workspace prices) where
  sound h share hshare := by
    rcases List.mem_append.mp hshare with hold | hnew
    · exact h share hold
    · rw [List.mem_singleton.mp hnew]
      intro hcreated
      exact absurd hcreated Bool.false_ne_true
  latest _ _ h := h
  undisturbed j hj := by
    constructor
    · intro n share hn
      exact ⟨share, getElem?_append_of_some hn _, .refl j share⟩
    · intro n share' hn hnone hwritten
      rcases getElem?_concat_cases hn with hold | ⟨-, rfl⟩
      · exact absurd (hold.symm.trans hnone) (Option.some_ne_none _)
      · exact hj (Share.writtenBy_new hwritten)

theorem State.Covers.setCurrency {workspace w : ℕ} {default : PresentmentCurrency}
    {prices : List SharePrice} (h : s.Covers w prices)
    (hdefault : w = workspace → HasCurrency default prices) :
    (s.setCurrency i workspace default).Covers w prices := by
  obtain ⟨currency, hcurrency, hstands⟩ := h
  by_cases hw : w = workspace
  · subst hw
    exact ⟨_, getElem?_modify_self hcurrency, hstands.write (hdefault rfl)⟩
  · exact ⟨currency, (getElem?_modify_of_ne hw).trans hcurrency, hstands⟩

/-- The default currency becomes one in which every share of the workspace has a price. -/
theorem moves_setCurrency {workspace : ℕ} {default : PresentmentCurrency}
    (h : ∀ share ∈ s.shares, share.workspaceId = workspace →
      (share.created.committed = true →
          HasCurrency default (share.activePrices Versioned.committed)) ∧
        (share.created.latest = true →
          HasCurrency default (share.activePrices Versioned.latest))) :
    Moves i s (s.setCurrency i workspace default) where
  sound hsound share hshare hcreated := by
    obtain ⟨hstructured, hcovers⟩ := hsound share hshare hcreated
    exact ⟨hstructured, hcovers.setCurrency fun hw => (h share hshare hw).1 hcreated⟩
  latest share hshare hlatest hcreated := by
    obtain ⟨hstructured, hcovers⟩ := hlatest hcreated
    exact ⟨hstructured, hcovers.setCurrency fun hw => (h share hshare hw).2 hcreated⟩
  undisturbed j hj :=
    have hrefl := (Moves.refl i s).undisturbed j hj
    { old := hrefl.old, new := hrefl.new }

theorem undisturbed_finish {f : ∀ {V : Type}, Versioned V → Versioned V}
    (hf : Versioned.Ends i @f) (hj : j ≠ i) : Undisturbed j s (s.finish f) where
  old k share hk := ⟨_, getElem?_map_of_eq hk _, Share.leaves_finish hf hj⟩
  new k share' hk hnone := by
    obtain ⟨share, hold, -⟩ := getElem?_map_cases hk
    exact absurd (hnone.symm.trans hold) (by simp)

theorem untouched_finish {f : ∀ {V : Type}, Versioned V → Versioned V}
    (hf : Versioned.Ends i @f) : (s.finish f).Untouched i := by
  intro share' hshare'
  obtain ⟨share, -, rfl⟩ := List.mem_map.mp hshare'
  exact Share.not_writtenBy_finish hf

theorem moves_commit (h : Task.committing.Asserts s i) : Moves i s (s.commit i) where
  sound hsound share' hshare' := by
    obtain ⟨share, hshare, rfl⟩ := List.mem_map.mp hshare'
    by_cases hwritten : share.WrittenBy i
    -- the latest versions become the committed ones
    · obtain ⟨hlocked, hlatest⟩ := h share hshare hwritten
      have hcreated : (share.created.commit i).committed = share.created.latest :=
        Versioned.committed_commit fun hrow => hlocked (.inl hrow)
      have hprices : (share.finish (Versioned.commit · i)).activePrices Versioned.committed =
          share.activePrices Versioned.latest :=
        Share.activePrices_finish fun r hr =>
          Versioned.committed_commit fun hrow => hlocked (.inr ⟨r, hr, hrow⟩)
      intro hcommitted
      obtain ⟨hstructured, hcovers⟩ := hlatest (hcreated.symm.trans hcommitted)
      rw [hprices]
      exact ⟨hstructured, hcovers.finish (Versioned.ends_commit i)⟩
    · rw [Share.finish_eq (Versioned.ends_commit i) hwritten]
      intro hcommitted
      obtain ⟨hstructured, hcovers⟩ := hsound share hshare hcommitted
      exact ⟨hstructured, hcovers.finish (Versioned.ends_commit i)⟩
  latest share hshare hlatest hcreated := by
    obtain ⟨hstructured, hcovers⟩ := hlatest hcreated
    exact ⟨hstructured, hcovers.finish (Versioned.ends_commit i)⟩
  undisturbed j hj := undisturbed_finish (Versioned.ends_commit i) hj

theorem moves_rollback : Moves i s (s.rollback i) where
  sound hsound share' hshare' := by
    obtain ⟨share, hshare, rfl⟩ := List.mem_map.mp hshare'
    have hprices : (share.finish (Versioned.rollback · i)).activePrices Versioned.committed =
        share.activePrices Versioned.committed :=
      Share.activePrices_finish fun r _ => Versioned.committed_rollback
    intro hcommitted
    obtain ⟨hstructured, hcovers⟩ :=
      hsound share hshare ((Versioned.committed_rollback).symm.trans hcommitted)
    rw [hprices]
    exact ⟨hstructured, hcovers.finish (Versioned.ends_rollback i)⟩
  latest share hshare hlatest hcreated := by
    obtain ⟨hstructured, hcovers⟩ := hlatest hcreated
    exact ⟨hstructured, hcovers.finish (Versioned.ends_rollback i)⟩
  undisturbed j hj := undisturbed_finish (Versioned.ends_rollback i) hj

/-- The invariant of a run: the committed prices are well formed, and all operations meet their
assertions. An operation that has not been started has written nothing. -/
structure Kept (p : Pool State Task) : Prop where
  sound : ∀ share ∈ p.shared.shares, p.shared.SoundCommitted share
  asserts : ∀ i, ((p.tasks[i]?).getD Task.ended).Asserts p.shared i

theorem Kept.wellFormed {p : Pool State Task} (h : Kept p) : p.shared.WellFormed := by
  intro share hshare hcreated
  obtain ⟨hstructured, default, hdefault, hstands⟩ := h.sound share hshare hcreated
  exact ⟨default, hdefault, hstructured, hstands.1⟩

variable {past : List (Turn Event Outcome)} {p : Pool State Task} {r : State × Task}
variable {start : Start}

theorem Task.Asserts.archived {loaded : List (ℕ × SharePrice)} {existing deleted : List ℕ}
    {added : List SharePrice} {id : ℕ}
    (h : (Task.archiving k loaded existing (id :: deleted) added).Asserts s i)
    (hk : s.shares[k]? = some share) (hloaded : share.loadedPrices = loaded) :
    (Task.archiving k loaded existing deleted added).Asserts (s.archive i k id) i := by
  obtain ⟨⟨hstored, hdeleted⟩, ⟨share', hk', harchived⟩, hothers⟩ := h
  obtain rfl := Option.some.inj (hk.symm.trans hk')
  have hid : id ∉ existing := hdeleted id (List.mem_cons_self ..)
  refine ⟨⟨hstored, fun n hn => hdeleted n (List.mem_cons_of_mem _ hn)⟩,
    ⟨_, getElem?_modify_self hk, harchived.archive hid hloaded⟩, fun j other hj hne => ?_⟩
  exact hothers j other ((getElem?_modify_of_ne hne).symm.trans hj) hne

theorem Task.Asserts.inserted {loaded : List (ℕ × SharePrice)} {existing : List ℕ}
    {added : List SharePrice} (h : (Task.archiving k loaded existing [] added).Asserts s i)
    (hk : s.shares[k]? = some share) (hloaded : share.loadedPrices = loaded)
    (hlocked : ¬share.LockedFor i)
    (hcovers : s.Covers share.workspaceId ((kept loaded existing).map Prod.snd ++ added)) :
    Task.committing.Asserts (s.insert i k added) i := by
  obtain ⟨⟨hstored, -⟩, ⟨share', hk', harchived⟩, hothers⟩ := h
  obtain rfl := Option.some.inj (hk.symm.trans hk')
  intro other hother hwritten
  obtain ⟨j, hj⟩ := List.getElem?_of_mem hother
  rcases getElem?_modify_cases hj with ⟨old, hold, -, rfl⟩ | ⟨hold, hne⟩
  · obtain rfl := Option.some.inj (hk.symm.trans hold)
    refine ⟨fun hlocked' => hlocked (Share.lockedFor_insert hlocked'), fun _ => ?_⟩
    -- the prices that are left are the ones that have been validated
    rw [Share.latest_insert, harchived.activePrices hloaded hlocked]
    exact ⟨hstored, hcovers⟩
  · exact absurd hwritten (hothers j other hold hne)

theorem Task.Asserts.created {workspace : ℕ} {prices : List SharePrice}
    (h : (Task.inserting workspace prices).Asserts s i) (hcovers : s.Covers workspace prices) :
    Task.committing.Asserts (s.create i workspace prices) i := by
  intro share hshare hwritten
  rcases List.mem_append.mp hshare with hold | hnew
  · exact absurd hwritten (h.2 share hold)
  · obtain rfl := List.mem_singleton.mp hnew
    refine ⟨Share.not_lockedFor_new, fun _ => ?_⟩
    rw [Share.latest_new]
    exact ⟨h.1, hcovers⟩

theorem Kept.advanced (h : Kept p) (hC : Guarded past p (.resumed i answer))
    (hi : p.tasks[i]? = some t) (hr : Advanced p.shared i answer t r) :
    Moves i p.shared r.1 ∧ r.2.Asserts r.1 i := by
  have ht : t.Asserts p.shared i := by
    have hasserts := h.asserts i
    rwa [hi] at hasserts
  cases hr with
  | waited => exact ⟨.refl i _, ht⟩
  | went answer hidle hidle' =>
    have huntouched := hidle.asserts.mp ht
    refine ⟨.refl i _, ?_⟩
    rcases hidle' with hidle' | rfl
    · exact hidle'.asserts.mpr huntouched
    · exact asserts_committing huntouched
  | validated k default requested hk hvalidated hvalid =>
    rename_i share validated
    subst hvalidated
    have hstored := ((errors_eq_nil_iff.mp hvalid).2.stored Share.loadedPrices_nodup).structured
    have hshare : ¬share.WrittenBy i := ht share (List.mem_of_getElem? hk)
    refine ⟨.refl i _, ⟨hstored, fun id hid => ?_⟩, ⟨share, hk, .of_not_writtenBy hshare⟩,
      fun j other hj _ => ht other (List.mem_of_getElem? hj)⟩
    obtain ⟨q, hq, rfl⟩ := List.mem_map.mp hid
    exact of_decide_eq_true (List.mem_filter.mp hq).2
  | archived k loaded existing id deleted added hfree =>
    rw [Guarded, hi] at hC
    obtain ⟨share, hk, hloaded, hlocked⟩ := hC hfree
    exact ⟨moves_modify hk hlocked rfl rfl (Share.activePrices_archive id)
      fun j hj => Share.writtenBy_archive hj, ht.archived hk hloaded⟩
  | inserted k loaded existing added =>
    rw [Guarded, hi] at hC
    obtain ⟨share, hk, hloaded, hlocked, hcovers⟩ := hC
    exact ⟨moves_modify hk hlocked rfl rfl (Share.committed_insert added)
      fun j hj => Share.writtenBy_insert hj, ht.inserted hk hloaded hlocked hcovers⟩
  | priced workspace requested default hvalid =>
    exact ⟨.refl i _, (errors_eq_nil_iff.mp hvalid).2.structured, ht⟩
  | created workspace prices =>
    rw [Guarded, hi] at hC
    exact ⟨moves_create workspace prices, ht.created hC⟩
  | currencySet workspace default hfree =>
    rw [Guarded, hi] at hC
    exact ⟨moves_setCurrency (hC hfree), asserts_committing ht⟩
  | committed => exact ⟨moves_commit ht, untouched_finish (Versioned.ends_commit i)⟩
  | failed => exact ⟨moves_rollback, untouched_finish (Versioned.ends_rollback i)⟩

theorem Kept.started (h : Kept p) (ht : t.IsIdle) :
    Kept { shared := p.shared, tasks := p.tasks ++ [t] } := by
  refine ⟨h.sound, fun i => ?_⟩
  have hasserts := h.asserts i
  rcases Nat.lt_trichotomy i p.tasks.length with hlt | rfl | hgt
  · rwa [List.getElem?_append_left hlt]
  -- the number of the new operation has not written anything
  · rw [List.getElem?_eq_none (Nat.le_refl _)] at hasserts
    rw [List.getElem?_concat_length]
    exact ht.asserts.mpr hasserts
  · rw [List.getElem?_eq_none (Nat.le_of_lt hgt)] at hasserts
    have hlength : (p.tasks ++ [t]).length ≤ i := by
      rw [List.length_append]
      exact hgt
    rwa [List.getElem?_eq_none hlength]

theorem Kept.resumed (h : Kept p) (hC : Guarded past p (.resumed i answer))
    (hi : p.tasks[i]? = some t) (hr : Advanced p.shared i answer t r) :
    Kept { shared := r.1, tasks := p.tasks.set i r.2 } := by
  obtain ⟨hmoves, hasserts⟩ := h.advanced hC hi hr
  refine ⟨hmoves.sound h.sound, fun j => ?_⟩
  by_cases hj : j = i
  · subst hj
    rw [List.getElem?_set_self (List.getElem?_eq_some_iff.mp hi).1]
    exact hasserts
  · rw [List.getElem?_set_ne (Ne.symm hj)]
    exact (h.asserts j).undisturbed (hmoves.undisturbed j hj) hmoves.latest

theorem kept_init : Kept (operations start).system.init where
  sound share hshare hcreated := by
    obtain ⟨default, hdefault, hstructured, hhas⟩ := start.wellFormed share hshare hcreated
    refine ⟨hstructured, default, hdefault, hhas, ?_⟩
    obtain ⟨c, -, rfl⟩ := List.mem_map.mp (List.mem_of_getElem? hdefault)
    exact hhas
  asserts i share hshare hwritten := by
    obtain ⟨sh, -, rfl⟩ := List.mem_map.mp hshare
    rcases hwritten with ⟨v, hv⟩ | ⟨r, hr, v, hv⟩
    · exact absurd hv (by simp)
    · obtain ⟨row, -, rfl⟩ := List.mem_map.mp hr
      exact absurd hv (by simp)

theorem invariant (start : Start) : (operations start).Invariant Guarded Kept where
  init := kept_init
  event {_ _ e} hp _ := by cases e <;> exact hp.started trivial
  resumed hp hC hi := hp.resumed hC hi Task.advanced

/-- **The prices of every share stay well formed** in a run in which no update writes a share
that has been written since it loaded the prices, what an update or a creation leaves is in the
default currency that the workspace has or is about to have, and a default currency is set only
where every share of the workspace has and will have a price in it. -/
theorem wellFormed_kept {start : Start} {ls : List (Turn Event Outcome)}
    (h : (operations start).system.Along Guarded ls) :
    (operations start).system.Along (KeepsWellFormed start) ls :=
  (invariant start).along (fun _ _ _ hp hC => ((invariant start).step hp hC).wellFormed) h

/-- A workspace with one share for dollars. -/
def dollars : Start where
  workspaces := [.usd]
  shares := [(0, [({ amountType := .fixed, priceCurrency := .usd }, false)])]
  wellFormed := by decide

/-- The share gets a new price and one in euros, the default currency becomes the euro, and a share
is created. -/
def changeover : List (Turn Event Outcome) :=
  [.event (.updateShare 0 (some [.added (.custom .usd), .added (.fixed .eur)])),
    .resumed 0 .executed, .resumed 0 .executed, .resumed 0 .executed, .resumed 0 .executed,
    .resumed 0 .executed, .event (.updateWorkspace 0 .eur), .resumed 1 .executed,
    .resumed 1 .executed, .resumed 1 .executed, .event (.createShare 0 [.free .eur]),
    .resumed 2 .executed, .resumed 2 .executed, .resumed 2 .executed]

theorem changeover_wellFormed_kept :
    ((operations dollars).system.after changeover).tasks = [.ended, .ended, .ended] ∧
      (operations dollars).system.Along (KeepsWellFormed dollars) changeover :=
  ⟨by decide, wellFormed_kept (by decide)⟩

/-- Two updates replace the price by a new one at once. -/
def bothReplace : List (Turn Event Outcome) :=
  [.event (.updateShare 0 (some [.added (.fixed .usd)])),
    .event (.updateShare 0 (some [.added (.free .usd)])), .resumed 0 .executed,
    .resumed 0 .executed, .resumed 1 .executed, .resumed 1 .executed, .resumed 0 .executed,
    .resumed 0 .executed, .resumed 0 .executed, .resumed 1 .executed, .resumed 1 .executed]

/-- The default currency becomes one in which the share has no price. -/
def toEuros : List (Turn Event Outcome) :=
  [.event (.updateWorkspace 0 .eur), .resumed 0 .executed, .resumed 0 .executed]

/-- The one share is left with two static prices in dollars, and the other with none in euros. -/
theorem not_keepsWellFormed :
    ¬(operations dollars).system.Along (KeepsWellFormed dollars)
        (bothReplace ++ [.resumed 1 .executed]) ∧
      ¬(operations dollars).system.Along (KeepsWellFormed dollars)
        (toEuros ++ [.resumed 0 .executed]) := by
  refine ⟨fun h => ?_, fun h => ?_⟩
  · have hprices := ((System.along_snoc _).mp h).2
    exact absurd hprices (by decide)
  · have hprices := ((System.along_snoc _).mp h).2
    exact absurd hprices (by decide)

end SharePrices

end Rapidly.Catalog
