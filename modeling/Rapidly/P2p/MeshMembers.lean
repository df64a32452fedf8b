import Mathlib.Data.List.Nodup
import Mathlib.Data.String.Basic
import Rapidly.P2p.Mesh

/-!
# Who is in a mesh

The connections of a mesh are meant to be those to the participants of the roster, with all
published tracks, and its callbacks to announce each of them and to take leave of it in turn.

`coherent_iff` is the exact condition on a run. A notice that a connection has closed only has the
peer to tell it by: it takes away the newer connection of a peer that was removed and added again.
-/

namespace Rapidly.P2p.Mesh

open KeyValue

variable {Id τ σ : Type}

/-! ### What is expected -/

/-- Every second one is `true`, from the first one on. -/
def Alternates (bs : List Bool) : Prop := ∀ i b, bs[i]? = some b → b = decide (i % 2 = 0)

theorem alternates_nil : Alternates [] := fun _ _ h => nomatch h

theorem alternates_concat {bs : List Bool} {b : Bool} :
    Alternates (bs ++ [b]) ↔ Alternates bs ∧ b = decide (bs.length % 2 = 0) := by
  constructor
  · intro h
    refine ⟨fun i c hc => h i c ?_, h _ _ List.getElem?_concat_length⟩
    rw [List.getElem?_append_left (List.getElem?_eq_some_iff.mp hc).1, hc]
  · rintro ⟨h, rfl⟩ i c hc
    by_cases hi : i < bs.length
    · rw [List.getElem?_append_left hi] at hc
      exact h i c hc
    · have hlast : i = bs.length := by
        have hlength := (List.getElem?_eq_some_iff.mp hc).1
        rw [List.length_append, List.length_singleton] at hlength
        omega
      subst hlast
      rw [List.getElem?_concat_length] at hc
      exact (Option.some.inj hc).symm

/-- The number of the newest connection that was made to the peer. -/
def State.current [DecidableEq Id] (s : State Id τ σ) (id : Id) : Option ℕ :=
  (((s.connections.map Connection.peer).zipIdx.filter (·.1 = id)).getLast?).map Prod.snd

def State.IsClosed (s : State Id τ σ) (conn : ℕ) : Prop :=
  ∃ c, s.connections[conn]? = some c ∧ c.closed = true

/-- The callbacks about a peer: `true` where it is added, and `false` where it is removed. -/
def notices [DecidableEq Id] (id : Id) (log : List (Callback Id τ σ)) : List Bool :=
  log.filterMap fun
    | .peerAdded peerId _ => if peerId = id then some true else none
    | .peerRemoved peerId => if peerId = id then some false else none
    | .remoteTrack .. => none

/-- The peers in the mesh are the participants, without oneself and those whose connection has
closed. -/
def Members [LinearOrder Id] (selfPeerId : Id) (s : State Id τ σ) : Prop :=
  ∀ id, (find s.peers id).isSome ↔
    id ∈ s.roster ∧ id ≠ selfPeerId ∧ ∀ conn ∈ s.current id, ¬s.IsClosed conn

/-- What holds of a mesh and its callbacks. -/
structure Coherent [LinearOrder Id] [DecidableEq τ] (selfPeerId : Id) (s : State Id τ σ)
    (log : List (Callback Id τ σ)) : Prop where
  /-- A peer is in the mesh by its newest connection. -/
  current : ∀ id conn, find s.peers id = some conn → s.current id = some conn
  members : Members selfPeerId s
  /-- Each connection in the mesh has each published track once. -/
  tracks : ∀ id conn c, find s.peers id = some conn → s.connections[conn]? = some c →
    ∀ t ∈ s.publishedTracks.map Published.track, (c.tracks.map Published.track).count t = 1
  /-- Each peer is added and removed in turn. -/
  alternates : ∀ id, Alternates (notices id log)

/-! ### The newest connections -/

section Current

variable [DecidableEq Id] {s s' : State Id τ σ} {id : Id} {conn : ℕ}

theorem current_congr (h : s'.connections.map Connection.peer = s.connections.map Connection.peer)
    (id : Id) : s'.current id = s.current id := by
  rw [State.current, State.current, h]

theorem current_concat {c : Connection Id τ σ} (h : s'.connections = s.connections ++ [c])
    (id : Id) :
    s'.current id = if c.peer = id then some s.connections.length else s.current id := by
  rw [State.current, h, List.map_append, List.zipIdx_append, List.filter_append, List.length_map,
    Nat.zero_add, List.map_singleton, List.zipIdx_singleton, List.filter_singleton, State.current]
  by_cases hid : c.peer = id
  · simp [hid]
  · simp [hid]

omit [DecidableEq Id] in
theorem map_peer_modify {f : Connection Id τ σ → Connection Id τ σ}
    (hf : ∀ c, (f c).peer = c.peer) (connections : List (Connection Id τ σ)) (conn : ℕ) :
    (connections.modify conn f).map Connection.peer = connections.map Connection.peer := by
  refine List.ext_getElem? fun i => ?_
  rw [List.getElem?_map, List.getElem?_map, List.getElem?_modify]
  cases connections[i]? with
  | none => rfl
  | some c =>
    have hpeer : (if conn = i then f c else c).peer = c.peer := by
      split
      · exact hf c
      · rfl
    exact congrArg some hpeer

end Current

/-! ### The invariant -/

/-- What holds of a mesh in between, where its roster is out of date. -/
structure Settled [DecidableEq Id] (s : State Id τ σ) (log : List (Callback Id τ σ)) : Prop where
  nodup : (s.peers.map Prod.fst).Nodup
  /-- The connections of the mesh are open and have the published tracks. -/
  held : ∀ id conn, find s.peers id = some conn → ∃ c, s.connections[conn]? = some c ∧
    c.peer = id ∧ c.closed = false ∧ c.tracks = s.publishedTracks
  current : ∀ id conn, find s.peers id = some conn → s.current id = some conn
  alternates : ∀ id, Alternates (notices id log)
  /-- A peer was added last exactly if it is in the mesh. -/
  parity : ∀ id, (notices id log).length % 2 = if (find s.peers id).isSome then 1 else 0

/-- The peer is taken out along with its connection. -/
def State.dropped [DecidableEq Id] (s : State Id τ σ) (id : Id) (conn : ℕ) : State Id τ σ :=
  { s.markClosed conn with peers := remove s.peers id }

section Steps

variable [DecidableEq Id] {s : State Id τ σ} {log : List (Callback Id τ σ)} {id id' : Id}
  {conn : ℕ}

theorem notices_append (id : Id) (log more : List (Callback Id τ σ)) :
    notices id (log ++ more) = notices id log ++ notices id more := List.filterMap_append

theorem notices_peerRemoved :
    notices id ([.peerRemoved id'] : List (Callback Id τ σ)) =
      if id' = id then [false] else [] := by
  rw [notices]
  split <;> simp [*]

theorem notices_peerAdded :
    notices id ([.peerAdded id' conn] : List (Callback Id τ σ)) =
      if id' = id then [true] else [] := by
  rw [notices]
  split <;> simp [*]

theorem notices_concat {call : Callback Id τ σ} {b : Bool}
    (hcall : ∀ id', notices id' [call] = if id = id' then [b] else [])
    (halternates : ∀ id', Alternates (notices id' log))
    (hturn : b = decide ((notices id log).length % 2 = 0)) (id' : Id) :
    Alternates (notices id' (log ++ [call])) ∧
      (notices id' (log ++ [call])).length % 2 =
        if id' = id then (if b then 1 else 0) else (notices id' log).length % 2 := by
  rw [notices_append, hcall]
  by_cases hid : id' = id
  · subst hid
    rw [if_pos rfl, if_pos rfl, List.length_append, List.length_singleton]
    refine ⟨alternates_concat.mpr ⟨halternates id', hturn⟩, ?_⟩
    rw [hturn]
    simp only [decide_eq_true_eq]
    split <;> omega
  · rw [if_neg hid, if_neg fun hsame => hid hsame.symm, List.append_nil]
    exact ⟨halternates id', rfl⟩

namespace Settled

theorem init : Settled ({} : State Id τ σ) [] where
  nodup := List.nodup_nil
  held := fun _ _ h => nomatch h
  current := fun _ _ h => nomatch h
  alternates := fun _ => alternates_nil
  parity := fun _ => rfl

theorem ne_of_ne (h : Settled s log) {conn' : ℕ} (hfind : find s.peers id = some conn)
    (hfind' : find s.peers id' = some conn') (hid : id' ≠ id) : conn ≠ conn' := by
  rintro rfl
  obtain ⟨c, hc, rfl, -⟩ := h.held id conn hfind
  obtain ⟨c', hc', rfl, -⟩ := h.held id' conn hfind'
  exact hid (congrArg Connection.peer (Option.some.inj (hc'.symm.trans hc)))

theorem dropped (h : Settled s log) (hfind : find s.peers id = some conn) :
    Settled (s.dropped id conn) (log ++ [.peerRemoved id]) := by
  have hkept {id' : Id} {conn' : ℕ} (hconn' : find (s.dropped id conn).peers id' = some conn') :
      id' ≠ id ∧ find s.peers id' = some conn' := by
    rw [State.dropped, find_remove] at hconn'
    split at hconn'
    case isTrue => cases hconn'
    case isFalse hid => exact ⟨hid, hconn'⟩
  have hturn : false = decide ((notices id log).length % 2 = 0) := by
    rw [h.parity id, hfind]
    rfl
  have hnotices := notices_concat (fun _ => notices_peerRemoved) h.alternates hturn
  constructor
  · exact nodup_filter h.nodup
  · intro id' conn' hconn'
    obtain ⟨hid, hconn'⟩ := hkept hconn'
    obtain ⟨c, hc, hpeer, hopen, htracks⟩ := h.held id' conn' hconn'
    refine ⟨c, ?_, hpeer, hopen, htracks⟩
    rw [State.dropped, State.markClosed, List.getElem?_modify_ne _ _ (h.ne_of_ne hfind hconn' hid),
      hc]
  · intro id' conn' hconn'
    obtain ⟨-, hconn'⟩ := hkept hconn'
    have hpeers : (s.dropped id conn).connections.map Connection.peer =
        s.connections.map Connection.peer :=
      @map_peer_modify _ _ _ Connection.markClosed (fun _ => rfl) s.connections conn
    rw [current_congr hpeers, h.current id' conn' hconn']
  · exact fun id' => (hnotices id').1
  · intro id'
    rw [(hnotices id').2, State.dropped, find_remove]
    by_cases hid : id' = id
    · rw [if_pos hid, if_pos hid]
      rfl
    · rw [if_neg hid, if_neg hid, h.parity id']

theorem addPeer {Id : Type} [LinearOrder Id] {s : State Id τ σ} {log : List (Callback Id τ σ)}
    {selfPeerId id : Id} (h : Settled s log) (hfind : find s.peers id = none) :
    Settled (addPeer selfPeerId s id).1 (log ++ (addPeer selfPeerId s id).2) := by
  have hturn : true = decide ((notices id log).length % 2 = 0) := by
    rw [h.parity id, hfind]
    rfl
  have hnotices := notices_concat (fun id' => @notices_peerAdded Id τ σ _ id' id
    s.connections.length) h.alternates hturn
  constructor
  · exact nodup_put h.nodup
  · intro id' conn' hconn'
    rw [Mesh.addPeer, find_put] at hconn'
    split at hconn'
    case isTrue hid =>
      obtain rfl := Option.some.inj hconn'
      exact ⟨_, List.getElem?_concat_length, hid.symm, rfl, rfl⟩
    case isFalse hid =>
      obtain ⟨c, hc, hheld⟩ := h.held id' conn' hconn'
      refine ⟨c, ?_, hheld⟩
      rw [Mesh.addPeer, List.getElem?_append_left (List.getElem?_eq_some_iff.mp hc).1, hc]
  · intro id' conn' hconn'
    rw [Mesh.addPeer, find_put] at hconn'
    rw [current_concat rfl]
    split at hconn'
    case isTrue hid =>
      rw [if_pos hid.symm]
      exact hconn'
    case isFalse hid =>
      rw [if_neg fun hsame => hid hsame.symm, h.current id' conn' hconn']
  · exact fun id' => (hnotices id').1
  · intro id'
    rw [Mesh.addPeer, find_put, (hnotices id').2]
    by_cases hid : id' = id
    · rw [if_pos hid, if_pos hid]
      rfl
    · rw [if_neg hid, if_neg hid, h.parity id']

end Settled

/-! ### Peers that are taken out -/

/-- Between the states peers are only taken out, along with their connections. -/
structure Removal (s s' : State Id τ σ) : Prop where
  roster : s'.roster = s.roster
  publishedTracks : s'.publishedTracks = s.publishedTracks
  current : ∀ id, s'.current id = s.current id
  closed : ∀ conn, s.IsClosed conn → s'.IsClosed conn
  absent : ∀ id, find s.peers id = none → find s'.peers id = none
  gone : ∀ id conn, find s.peers id = some conn →
    find s'.peers id = some conn ∨ find s'.peers id = none ∧ s'.IsClosed conn

namespace Removal

variable {s' s'' : State Id τ σ}

theorem refl (s : State Id τ σ) : Removal s s where
  roster := rfl
  publishedTracks := rfl
  current := fun _ => rfl
  closed := fun _ h => h
  absent := fun _ h => h
  gone := fun _ _ h => .inl h

theorem trans (h : Removal s s') (h' : Removal s' s'') : Removal s s'' where
  roster := h'.roster.trans h.roster
  publishedTracks := h'.publishedTracks.trans h.publishedTracks
  current := fun id => (h'.current id).trans (h.current id)
  closed := fun conn hclosed => h'.closed conn (h.closed conn hclosed)
  absent := fun id habsent => h'.absent id (h.absent id habsent)
  gone := fun id conn hfind => by
    rcases h.gone id conn hfind with hstays | ⟨hgone, hclosed⟩
    · exact h'.gone id conn hstays
    · exact .inr ⟨h'.absent id hgone, h'.closed conn hclosed⟩

theorem dropped (h : Settled s log) (hfind : find s.peers id = some conn) :
    Removal s (s.dropped id conn) where
  roster := rfl
  publishedTracks := rfl
  current := current_congr
    (@map_peer_modify _ _ _ Connection.markClosed (fun _ => rfl) s.connections conn)
  closed := by
    rintro conn' ⟨c, hc, hclosed⟩
    refine ⟨if conn = conn' then c.markClosed else c, ?_, ?_⟩
    · rw [State.dropped, State.markClosed, List.getElem?_modify, hc]
      rfl
    · split
      · rfl
      · exact hclosed
  absent := by
    intro id' habsent
    rw [State.dropped, find_remove, habsent, ite_self]
  gone := by
    intro id' conn' hconn'
    rw [State.dropped, find_remove]
    by_cases hid : id' = id
    · subst hid
      obtain rfl := Option.some.inj (hconn'.symm.trans hfind)
      obtain ⟨c, hc, -⟩ := h.held id' conn' hfind
      rw [if_pos rfl]
      refine .inr ⟨rfl, c.markClosed, ?_, rfl⟩
      rw [State.markClosed, List.getElem?_modify, hc]
      exact congrArg some (if_pos rfl)
    · rw [if_neg hid]
      exact .inl hconn'

end Removal

end Steps

/-! ### The loops -/

section Loops

variable [LinearOrder Id] {selfPeerId : Id} {s s' : State Id τ σ}
  {log log' : List (Callback Id τ σ)} {id : Id} {conn : ℕ}

theorem removePeer_eq_of_none (hfind : find s.peers id = none) (fires : ℕ → Bool) :
    removePeer s fires id = (s, []) := by
  rw [removePeer, hfind]

/-- It makes no difference whether the connection calls back while it is told to close. -/
theorem removePeer_eq (h : Settled s log) (hfind : find s.peers id = some conn)
    (fires : ℕ → Bool) : removePeer s fires id = (s.dropped id conn, [.peerRemoved id]) := by
  obtain ⟨c, hc, rfl, -⟩ := h.held id conn hfind
  have hremoved : find (remove s.peers c.peer) c.peer = none := by
    rw [find_remove, if_pos rfl]
  rw [removePeer, hfind]
  cases hfires : fires conn with
  | true => simp [hfires, onClose, hc, hremoved, State.dropped]
  | false => simp [hfires, hfind, State.dropped, State.markClosed]

theorem removePeer_settled (h : Settled s log) (fires : ℕ → Bool) (id : Id) :
    Settled (removePeer s fires id).1 (log ++ (removePeer s fires id).2) ∧
      Removal s (removePeer s fires id).1 ∧
      ∀ id', find (removePeer s fires id).1.peers id' =
        if id' = id then none else find s.peers id' := by
  cases hfind : find s.peers id with
  | none =>
    rw [removePeer_eq_of_none hfind, List.append_nil]
    refine ⟨h, .refl s, fun id' => ?_⟩
    split
    case isTrue hid => rw [hid, hfind]
    case isFalse => rfl
  | some conn =>
    rw [removePeer_eq h hfind]
    exact ⟨h.dropped hfind, .dropped h hfind, fun id' => find_remove⟩

theorem removeLoop {body : State Id τ σ → Id → State Id τ σ × List (Callback Id τ σ)}
    {fires : ℕ → Bool} (keep : Id → Bool)
    (hbody : ∀ s id, body s id = if keep id then (s, []) else removePeer s fires id)
    (h : Settled s log) (ids : List Id) :
    Settled (forEach body s ids).1 (log ++ (forEach body s ids).2) ∧
      Removal s (forEach body s ids).1 ∧
      ∀ id, find (forEach body s ids).1.peers id =
        if id ∈ ids ∧ keep id = false then none else find s.peers id := by
  induction ids generalizing s log with
  | nil =>
    rw [forEach, List.append_nil]
    exact ⟨h, .refl s, fun id => (if_neg fun hmem => nomatch hmem.1).symm⟩
  | cons id ids ih =>
    have hone : Settled (body s id).1 (log ++ (body s id).2) ∧ Removal s (body s id).1 ∧
        ∀ id', find (body s id).1.peers id' =
          if id' = id ∧ keep id' = false then none else find s.peers id' := by
      rw [hbody]
      cases hkeep : keep id with
      | true =>
        rw [if_pos rfl, List.append_nil]
        refine ⟨h, .refl s, fun id' => (if_neg ?_).symm⟩
        rintro ⟨rfl, hdrop⟩
        exact Bool.noConfusion (hkeep.symm.trans hdrop)
      | false =>
        rw [if_neg Bool.false_ne_true]
        obtain ⟨hsettled, hremoval, hfind⟩ := removePeer_settled h fires id
        refine ⟨hsettled, hremoval, fun id' => (hfind id').trans ?_⟩
        by_cases hid : id' = id
        · rw [if_pos hid, if_pos ⟨hid, hid ▸ hkeep⟩]
        · rw [if_neg hid, if_neg fun hboth => hid hboth.1]
    obtain ⟨hsettled, hremoval, hfind⟩ := hone
    obtain ⟨hsettled', hremoval', hfind'⟩ := ih hsettled
    rw [forEach, ← List.append_assoc]
    refine ⟨hsettled', hremoval.trans hremoval', fun id' => ?_⟩
    rw [hfind', hfind]
    by_cases hids : id' ∈ ids ∧ keep id' = false
    · rw [if_pos hids, if_pos ⟨List.mem_cons_of_mem _ hids.1, hids.2⟩]
    · rw [if_neg hids]
      by_cases hid : id' = id ∧ keep id' = false
      · rw [if_pos hid, if_pos ⟨hid.1 ▸ List.mem_cons_self, hid.2⟩]
      · rw [if_neg hid, if_neg]
        rintro ⟨hmem, hkeep⟩
        exact (List.mem_cons.mp hmem).elim (fun hsame => hid ⟨hsame, hkeep⟩)
          fun hmem => hids ⟨hmem, hkeep⟩

theorem addLoop {body : State Id τ σ → Id → State Id τ σ × List (Callback Id τ σ)}
    (hbody : ∀ s id, body s id =
      if (find s.peers id).isSome then (s, []) else addPeer selfPeerId s id)
    (h : Settled s log) (ids : List Id) :
    Settled (forEach body s ids).1 (log ++ (forEach body s ids).2) ∧
      (forEach body s ids).1.publishedTracks = s.publishedTracks ∧
      ∀ id, (find (forEach body s ids).1.peers id).isSome ↔
        (find s.peers id).isSome ∨ id ∈ ids := by
  induction ids generalizing s log with
  | nil =>
    rw [forEach, List.append_nil]
    exact ⟨h, rfl, fun id => (or_iff_left List.not_mem_nil).symm⟩
  | cons id ids ih =>
    have hone : Settled (body s id).1 (log ++ (body s id).2) ∧
        (body s id).1.publishedTracks = s.publishedTracks ∧
        ∀ id', (find (body s id).1.peers id').isSome ↔ (find s.peers id').isSome ∨ id' = id := by
      rw [hbody]
      split
      case isTrue hthere =>
        rw [List.append_nil]
        refine ⟨h, rfl, fun id' => (or_iff_left_of_imp ?_).symm⟩
        rintro rfl
        exact hthere
      case isFalse hthere =>
        refine ⟨h.addPeer (Option.not_isSome_iff_eq_none.mp hthere), rfl, fun id' => ?_⟩
        rw [addPeer, find_put]
        by_cases hid : id' = id
        · simp [hid]
        · simp [hid]
    obtain ⟨hsettled, htracks, hfind⟩ := hone
    obtain ⟨hsettled', htracks', hfind'⟩ := ih hsettled
    rw [forEach, ← List.append_assoc]
    refine ⟨hsettled', htracks'.trans htracks, fun id' => ?_⟩
    rw [hfind', hfind, List.mem_cons, or_assoc]

end Loops

/-! ### The operations -/

section Operations

variable [LinearOrder Id] {selfPeerId : Id} {s s' : State Id τ σ}
  {log log' : List (Callback Id τ σ)} {id : Id} {conn : ℕ} {published : Published τ σ}

theorem Members.removal (hmembers : Members selfPeerId s) (hremoval : Removal s s')
    (h : Settled s log) (h' : Settled s' log') : Members selfPeerId s' := by
  intro id
  rw [hremoval.roster, hremoval.current]
  constructor
  · intro hsome
    obtain ⟨conn', hconn'⟩ := Option.isSome_iff_exists.mp hsome
    cases hfind : find s.peers id with
    | none => exact absurd (hconn'.symm.trans (hremoval.absent id hfind)) (Option.some_ne_none _)
    | some conn =>
      obtain ⟨hroster, hself, -⟩ := (hmembers id).mp (Option.isSome_iff_exists.mpr ⟨conn, hfind⟩)
      refine ⟨hroster, hself, ?_⟩
      rintro conn'' hcurrent ⟨c', hc', hclosed⟩
      have hsame := (h'.current id conn' hconn').symm.trans (hremoval.current id)
      obtain rfl := Option.some.inj (hsame.trans hcurrent)
      obtain ⟨c, hc, -, hopen, -⟩ := h'.held id conn' hconn'
      obtain rfl := Option.some.inj (hc.symm.trans hc')
      exact Bool.noConfusion (hopen.symm.trans hclosed)
  · rintro ⟨hroster, hself, hopen⟩
    have hsome : (find s.peers id).isSome := (hmembers id).mpr
      ⟨hroster, hself, fun conn hconn hclosed => hopen conn hconn (hremoval.closed conn hclosed)⟩
    obtain ⟨conn, hfind⟩ := Option.isSome_iff_exists.mp hsome
    rcases hremoval.gone id conn hfind with hstays | ⟨-, hclosed⟩
    · exact Option.isSome_iff_exists.mpr ⟨conn, hstays⟩
    · exact absurd hclosed (hopen conn (h.current id conn hfind))

theorem mem_targetSet {ids : List Id} :
    id ∈ targetSet selfPeerId ids ↔ id ∈ ids ∧ id ≠ selfPeerId := by
  rw [targetSet, List.mem_eraseDups, List.mem_filter, decide_eq_true_iff]

theorem isSome_find_iff {peers : List (Id × ℕ)} :
    (find peers id).isSome ↔ id ∈ peers.map Prod.fst := by
  rw [← not_iff_not, Option.not_isSome_iff_eq_none, find_eq_none_iff]

theorem setParticipants_settled (h : Settled s log) (ids : List Id) (fires : ℕ → Bool) :
    Settled (setParticipants selfPeerId s ids fires).1
        (log ++ (setParticipants selfPeerId s ids fires).2) ∧
      (setParticipants selfPeerId s ids fires).1.publishedTracks = s.publishedTracks ∧
      (setParticipants selfPeerId s ids fires).1.roster = ids ∧
      ∀ id, (find (setParticipants selfPeerId s ids fires).1.peers id).isSome ↔
        id ∈ ids ∧ id ≠ selfPeerId := by
  obtain ⟨hremoved, hremoval, hfind⟩ := @removeLoop _ _ _ _ s log
    (fun s existing =>
      if existing ∈ targetSet selfPeerId ids then (s, []) else removePeer s fires existing)
    fires (fun id => decide (id ∈ targetSet selfPeerId ids))
    (fun s id => by simp only [decide_eq_true_eq]) h (s.peers.map Prod.fst)
  obtain ⟨hadded, htracks, hsome⟩ := @addLoop _ _ _ _ selfPeerId
    (removeMissing selfPeerId s fires ids).1 (log ++ (removeMissing selfPeerId s fires ids).2)
    (fun s id => if (find s.peers id).isSome then (s, []) else addPeer selfPeerId s id)
    (fun s id => rfl) hremoved (targetSet selfPeerId ids)
  rw [List.append_assoc] at hadded
  refine ⟨⟨hadded.nodup, hadded.held, hadded.current, hadded.alternates, hadded.parity⟩,
    htracks.trans hremoval.publishedTracks, rfl, fun id => (hsome id).trans ?_⟩
  rw [← mem_targetSet, removeMissing, hfind]
  refine or_iff_right_of_imp fun hleft => ?_
  by_contra hmissing
  by_cases hmem : id ∈ s.peers.map Prod.fst
  · rw [if_pos ⟨hmem, decide_eq_false hmissing⟩] at hleft
    exact Bool.noConfusion hleft
  · rw [if_neg fun hboth => hmem hboth.1] at hleft
    exact hmem (isSome_find_iff.mp hleft)

theorem close_settled (h : Settled s log) (fires : ℕ → Bool) :
    Settled (close s fires).1 (log ++ (close s fires).2) ∧
      (Members selfPeerId s → Members selfPeerId (close s fires).1) ∧
      ∀ id, find (close s fires).1.peers id = none := by
  obtain ⟨hclosed, hremoval, hfind⟩ := @removeLoop _ _ _ _ s log
    (fun s id => removePeer s fires id) fires (fun _ => false) (fun _ _ => rfl) h
    (s.peers.map Prod.fst)
  have hnone (id : Id) : find (close s fires).1.peers id = none := by
    refine (hfind id).trans ?_
    by_cases hmem : id ∈ s.peers.map Prod.fst
    · exact if_pos ⟨hmem, rfl⟩
    · rw [if_neg fun hboth => hmem hboth.1, find_eq_none_iff]
      exact hmem
  have hheld (id : Id) (conn : ℕ) (hconn : find (close s fires).1.peers id = some conn) :
      ∃ c, (close s fires).1.connections[conn]? = some c ∧ c.peer = id ∧ c.closed = false ∧
        c.tracks = (close s fires).1.publishedTracks :=
    nomatch (hnone id).symm.trans hconn
  refine ⟨⟨hclosed.nodup, hheld, hclosed.current, hclosed.alternates, hclosed.parity⟩, ?_, hnone⟩
  intro hmembers id
  exact hmembers.removal hremoval h hclosed id

theorem getElem?_foldl_modify {α : Type} (f : α → α) (xs : List α) {ns : List ℕ} (h : ns.Nodup)
    (i : ℕ) : (ns.foldl (fun xs n => xs.modify n f) xs)[i]? =
      if i ∈ ns then xs[i]?.map f else xs[i]? := by
  induction ns generalizing xs with
  | nil => exact (if_neg List.not_mem_nil).symm
  | cons n ns ih =>
    obtain ⟨hn, hns⟩ := List.nodup_cons.mp h
    rw [List.foldl_cons, ih _ hns, List.getElem?_modify]
    by_cases hi : i = n
    · subst hi
      rw [if_neg hn, if_pos List.mem_cons_self]
      simp
    · have hne : n ≠ i := fun hsame => hi hsame.symm
      simp only [if_neg hne, List.mem_cons, hi, false_or, id_map']

omit [LinearOrder Id] in
theorem map_peer_foldl_modify {f : Connection Id τ σ → Connection Id τ σ}
    (hf : ∀ c, (f c).peer = c.peer) (connections : List (Connection Id τ σ)) (ns : List ℕ) :
    (ns.foldl (fun connections n => connections.modify n f) connections).map Connection.peer =
      connections.map Connection.peer := by
  induction ns generalizing connections with
  | nil => rfl
  | cons n ns ih => rw [List.foldl_cons, ih, map_peer_modify hf]

theorem Settled.nodup_values (h : Settled s log) : (s.peers.map Prod.snd).Nodup := by
  refine List.Nodup.map_on ?_ (List.Nodup.of_map _ h.nodup)
  rintro ⟨id, conn⟩ hmem ⟨id', conn'⟩ hmem' rfl
  by_contra hne
  have hfind := (find_eq_some_iff h.nodup).mpr hmem
  have hfind' := (find_eq_some_iff h.nodup).mpr hmem'
  refine h.ne_of_ne hfind hfind' (fun hid => hne ?_) rfl
  rw [hid]

theorem publishTrack_settled (h : Settled s log) (published : Published τ σ) :
    Settled (publishTrack s published) log ∧
      (Members selfPeerId s → Members selfPeerId (publishTrack s published)) := by
  have hcurrent (id : Id) : (publishTrack s published).current id = s.current id :=
    current_congr (@map_peer_foldl_modify _ _ _ (Connection.addTrack published) (fun _ => rfl)
      s.connections (s.peers.map Prod.snd)) id
  have hget (i : ℕ) : (publishTrack s published).connections[i]? =
      if i ∈ s.peers.map Prod.snd then s.connections[i]?.map (Connection.addTrack published)
      else s.connections[i]? :=
    getElem?_foldl_modify (Connection.addTrack published) s.connections h.nodup_values i
  have hclosed (i : ℕ) : (publishTrack s published).IsClosed i ↔ s.IsClosed i := by
    rw [State.IsClosed, State.IsClosed, hget]
    split
    · cases s.connections[i]? with
      | none => exact Iff.rfl
      | some c =>
        simp only [Option.map_some, Option.some_inj, exists_eq_left']
        exact Iff.rfl
    · exact Iff.rfl
  constructor
  · constructor
    · exact h.nodup
    · intro id conn hconn
      obtain ⟨c, hc, hpeer, hopen, htracks⟩ := h.held id conn hconn
      have hmem : conn ∈ s.peers.map Prod.snd :=
        List.mem_map_of_mem ((find_eq_some_iff h.nodup).mp hconn)
      refine ⟨c.addTrack published, ?_, hpeer, hopen, congrArg (· ++ [published]) htracks⟩
      rw [hget, if_pos hmem, hc, Option.map_some]
    · intro id conn hconn
      rw [hcurrent, h.current id conn hconn]
    · exact h.alternates
    · exact h.parity
  · intro hmembers id
    simp only [hcurrent, hclosed]
    exact hmembers id

end Operations

/-! ### Runs -/

/-- No track was published twice, as long as there are peers. -/
def Distinct (s : State Id τ σ) : Prop :=
  s.peers = [] ∨ (s.publishedTracks.map Published.track).Nodup

/-- The condition on a step: a connection that reports that it is closed is the one by which its
peer is in the mesh, and no connection gets a track twice. -/
def Meets [LinearOrder Id] (selfPeerId : Id) (s : State Id τ σ) : Event Id τ σ → Prop
  | .setParticipants ids _ => (s.publishedTracks.map Published.track).Nodup ∨
      ∀ id ∈ ids, id = selfPeerId ∨ (find s.peers id).isSome
  | .publishTrack published =>
    s.peers = [] ∨ published.track ∉ s.publishedTracks.map Published.track
  | .onClose conn => ∀ c ∈ s.connections[conn]?, find s.peers c.peer = some conn
  | .close _ | .onTrack .. => True

/-- What holds of a mesh after each step that meets the condition. -/
structure Valid [LinearOrder Id] (selfPeerId : Id) (s : State Id τ σ)
    (log : List (Callback Id τ σ)) : Prop where
  settled : Settled s log
  members : Members selfPeerId s
  distinct : Distinct s

section Runs

variable [LinearOrder Id] {selfPeerId : Id} {s s' : State Id τ σ} {log : List (Callback Id τ σ)}

theorem peers_eq_nil_iff : s.peers = [] ↔ ∀ id, find s.peers id = none := by
  constructor
  · intro h id
    rw [h, find_nil]
  · intro h
    rw [List.eq_nil_iff_forall_not_mem]
    intro e he
    exact find_eq_none_iff.mp (h e.1) (List.mem_map_of_mem he)

variable [DecidableEq τ]

theorem coherent_iff_of_settled (h : Settled s log) :
    Coherent selfPeerId s log ↔ Members selfPeerId s ∧ Distinct s := by
  constructor
  · intro hcoherent
    refine ⟨hcoherent.members, ?_⟩
    rw [Distinct, or_iff_not_imp_left, peers_eq_nil_iff, not_forall]
    rintro ⟨id, hid⟩
    obtain ⟨conn, hconn⟩ := Option.ne_none_iff_exists'.mp hid
    obtain ⟨c, hc, -, -, htracks⟩ := h.held id conn hconn
    rw [List.nodup_iff_count_eq_one, ← htracks]
    exact fun t ht => hcoherent.tracks id conn c hconn hc t (htracks ▸ ht)
  · rintro ⟨hmembers, hdistinct⟩
    refine ⟨h.current, hmembers, fun id conn c hconn hc t ht => ?_, h.alternates⟩
    obtain ⟨c', hc', -, -, htracks⟩ := h.held id conn hconn
    obtain rfl := Option.some.inj (hc'.symm.trans hc)
    have hnodup : (s.publishedTracks.map Published.track).Nodup :=
      hdistinct.resolve_left fun hnil =>
        Option.some_ne_none conn (hconn.symm.trans (peers_eq_nil_iff.mp hnil id))
    rw [htracks]
    exact List.nodup_iff_count_eq_one.mp hnodup t ht

omit [DecidableEq τ] in
theorem distinct_setParticipants_iff (h : Valid selfPeerId s log) (ids : List Id)
    (fires : ℕ → Bool) : Distinct (setParticipants selfPeerId s ids fires).1 ↔
      Meets selfPeerId s (.setParticipants ids fires) := by
  obtain ⟨-, htracks, -, hsome⟩ := setParticipants_settled h.settled ids fires
  rw [Distinct, Meets, htracks, or_comm]
  refine or_congr_right' fun hnodup => ?_
  have hnil : s.peers = [] := h.distinct.resolve_right hnodup
  have hnone (id : Id) : ¬(find s.peers id).isSome := by
    rw [hnil]
    exact Bool.false_ne_true
  rw [peers_eq_nil_iff]
  constructor
  · intro hall id hmem
    by_contra hnot
    have hthere := (hsome id).mpr ⟨hmem, fun hself => hnot (.inl hself)⟩
    rw [hall id] at hthere
    exact Bool.false_ne_true hthere
  · intro hall id
    rw [← Option.not_isSome_iff_eq_none, hsome]
    rintro ⟨hmem, hself⟩
    exact (hall id hmem).elim hself (hnone id)

omit [DecidableEq τ] in
theorem distinct_publishTrack_iff (h : Valid selfPeerId s log) (published : Published τ σ) :
    Distinct (publishTrack s published) ↔ Meets selfPeerId s (.publishTrack published) := by
  rw [Distinct, Meets, publishTrack]
  refine or_congr_right' fun hpeers => ?_
  rw [List.map_append, List.map_singleton, ← List.concat_eq_append, List.nodup_concat]
  exact and_iff_left (h.distinct.resolve_left hpeers)

omit [DecidableEq τ] in
theorem Valid.dropped (h : Valid selfPeerId s log) {id : Id} {conn : ℕ}
    (hfind : find s.peers id = some conn) :
    Valid selfPeerId (s.dropped id conn) (log ++ [.peerRemoved id]) where
  settled := h.settled.dropped hfind
  members := h.members.removal (.dropped h.settled hfind) h.settled (h.settled.dropped hfind)
  distinct := by
    refine h.distinct.imp_left fun hnil => ?_
    rw [hnil] at hfind
    exact nomatch hfind

/-- Another connection of a peer takes it out, or tells that it is gone when it is not there. -/
theorem not_coherent_onClose (h : Valid selfPeerId s log) {conn : ℕ} {c : Connection Id τ σ}
    (hc : s.connections[conn]? = some c) (hother : find s.peers c.peer ≠ some conn) :
    ¬Coherent selfPeerId (onClose s conn).1 (log ++ (onClose s conn).2) := by
  intro hcoherent
  have hstep : onClose s conn = (s.dropped c.peer conn, [.peerRemoved c.peer]) := by
    rw [onClose, hc]
    rfl
  rw [hstep] at hcoherent
  cases hfind : find s.peers c.peer with
  | none =>
    have halternates := hcoherent.alternates c.peer
    have hparity := h.settled.parity c.peer
    rw [notices_append, notices_peerRemoved, if_pos rfl, alternates_concat] at halternates
    have heven : (notices c.peer log).length % 2 = 0 := by
      rw [hparity, hfind]
      rfl
    rw [decide_eq_true heven] at halternates
    exact Bool.false_ne_true halternates.2
  | some conn' =>
    -- the newer connection is open, but its peer is not in the mesh any more
    have hne : conn ≠ conn' := fun hsame => hother (hsame ▸ hfind)
    obtain ⟨hroster, hself, -⟩ := (h.members c.peer).mp (Option.isSome_iff_exists.mpr ⟨_, hfind⟩)
    have hthere : (find (s.dropped c.peer conn).peers c.peer).isSome := by
      refine (hcoherent.members c.peer).mpr ⟨hroster, hself, ?_⟩
      have hcurrent : (s.dropped c.peer conn).current c.peer = s.current c.peer := current_congr
        (@map_peer_modify _ _ _ Connection.markClosed (fun _ => rfl) s.connections conn) _
      rw [hcurrent, h.settled.current _ _ hfind]
      rintro conn'' hsame ⟨c', hc', hclosed⟩
      obtain rfl := Option.some.inj hsame
      obtain ⟨open', hopen', -, hopen, -⟩ := h.settled.held _ _ hfind
      rw [State.dropped, State.markClosed, List.getElem?_modify_ne _ _ hne, hopen'] at hc'
      obtain rfl := Option.some.inj hc'
      exact Bool.noConfusion (hopen.symm.trans hclosed)
    rw [State.dropped, find_remove, if_pos rfl] at hthere
    exact Bool.false_ne_true hthere

omit [DecidableEq τ] in
/-- A peer that has a connection in the mesh is a member, since the connection is open. -/
theorem members_setParticipants (h : Valid selfPeerId s log) (ids : List Id) (fires : ℕ → Bool) :
    Members selfPeerId (setParticipants selfPeerId s ids fires).1 := by
  obtain ⟨hsettled, -, hroster, hsome⟩ := setParticipants_settled h.settled ids fires
  intro id
  rw [hroster, hsome, ← and_assoc]
  refine (and_iff_left_of_imp ?_).symm
  rintro hthere conn hcurrent ⟨c, hc, hclosed⟩
  obtain ⟨conn', hfind⟩ := Option.isSome_iff_exists.mp ((hsome id).mpr hthere)
  obtain rfl := Option.some.inj ((hsettled.current id conn' hfind).symm.trans hcurrent)
  obtain ⟨c', hc', -, hopen, -⟩ := hsettled.held id conn' hfind
  obtain rfl := Option.some.inj (hc'.symm.trans hc)
  exact Bool.noConfusion (hopen.symm.trans hclosed)

omit [DecidableEq τ] in
theorem settled_onTrack (h : Settled s log) (conn : ℕ) (track : τ) (streams : List σ) :
    Settled s (log ++ (step selfPeerId s (.onTrack conn track streams)).2) := by
  have hnotices (id : Id) :
      notices id (log ++ (step selfPeerId s (.onTrack conn track streams)).2) = notices id log := by
    rw [notices_append, step]
    split
    · exact List.append_nil _
    · exact List.append_nil _
  exact ⟨h.nodup, h.held, h.current, fun id => (hnotices id).symm ▸ h.alternates id,
    fun id => (hnotices id).symm ▸ h.parity id⟩

theorem Valid.coherent (h : Valid selfPeerId s log) : Coherent selfPeerId s log :=
  (coherent_iff_of_settled h.settled).mpr ⟨h.members, h.distinct⟩

theorem valid_iff_of_settled {P : Prop} (hsettled : Settled s log)
    (hmembers : Members selfPeerId s) (hdistinct : Distinct s ↔ P) :
    (Coherent selfPeerId s log ↔ P) ∧ (P → Valid selfPeerId s log) := by
  rw [coherent_iff_of_settled hsettled, hdistinct, and_iff_right hmembers]
  exact ⟨Iff.rfl, fun h => ⟨hsettled, hmembers, hdistinct.mpr h⟩⟩

/-- A connection closes: the one of a member, or one that is not in the mesh any more. -/
theorem valid_onClose (h : Valid selfPeerId s log) (conn : ℕ) :
    (Coherent selfPeerId (onClose s conn).1 (log ++ (onClose s conn).2) ↔
        Meets selfPeerId s (.onClose conn)) ∧
      (Meets selfPeerId s (.onClose conn) →
        Valid selfPeerId (onClose s conn).1 (log ++ (onClose s conn).2)) := by
  rw [Meets]
  cases hc : s.connections[conn]? with
  | none =>
    rw [onClose, hc, List.append_nil]
    have hmeets : ∀ c ∈ (none : Option (Connection Id τ σ)), find s.peers c.peer = some conn :=
      fun _ hmem => nomatch hmem
    exact ⟨iff_of_true h.coherent hmeets, fun _ => h⟩
  | some c =>
    have hmeets : (∀ c' ∈ some c, find s.peers c'.peer = some conn) ↔
        find s.peers c.peer = some conn := by
      simp
    rw [hmeets]
    by_cases hfind : find s.peers c.peer = some conn
    · have hvalid := h.dropped hfind
      have hstep : onClose s conn = (s.dropped c.peer conn, [.peerRemoved c.peer]) := by
        rw [onClose, hc]
        rfl
      rw [hstep]
      exact ⟨iff_of_true hvalid.coherent hfind, fun _ => hvalid⟩
    · exact ⟨iff_of_false (not_coherent_onClose h hc hfind) hfind, fun hyes => absurd hyes hfind⟩

theorem valid_step (h : Valid selfPeerId s log) (e : Event Id τ σ) :
    (Coherent selfPeerId (step selfPeerId s e).1 (log ++ (step selfPeerId s e).2) ↔
        Meets selfPeerId s e) ∧
      (Meets selfPeerId s e →
        Valid selfPeerId (step selfPeerId s e).1 (log ++ (step selfPeerId s e).2)) := by
  cases e with
  | setParticipants ids fires =>
    exact valid_iff_of_settled (setParticipants_settled h.settled ids fires).1
      (members_setParticipants h ids fires) (distinct_setParticipants_iff h ids fires)
  | publishTrack published =>
    obtain ⟨hsettled, hmembers⟩ := @publishTrack_settled _ _ _ _ selfPeerId _ _ h.settled published
    rw [step, List.append_nil]
    exact valid_iff_of_settled hsettled (hmembers h.members) (distinct_publishTrack_iff h published)
  | close fires =>
    obtain ⟨hsettled, hmembers, hnone⟩ := @close_settled _ _ _ _ selfPeerId _ _ h.settled fires
    have hempty : Distinct (close s fires).1 := .inl (peers_eq_nil_iff.mpr hnone)
    exact valid_iff_of_settled hsettled (hmembers h.members) (iff_of_true hempty trivial)
  | onClose conn => exact valid_onClose h conn
  | onTrack conn track streams =>
    have hstate : (step selfPeerId s (.onTrack conn track streams)).1 = s := by
      rw [step]
      split <;> rfl
    rw [hstate]
    exact valid_iff_of_settled (settled_onTrack h.settled conn track streams) h.members
      (iff_of_true h.distinct trivial)

omit [DecidableEq τ] in
theorem valid_init : Valid selfPeerId ({} : State Id τ σ) [] where
  settled := .init
  members := fun _ => iff_of_false Bool.false_ne_true fun h => nomatch h.1
  distinct := .inl rfl

theorem valid_after {es : List (Event Id τ σ)}
    (h : (mesh selfPeerId).Along (fun _ s e => Meets selfPeerId s e) es) :
    Valid selfPeerId ((mesh selfPeerId).after es) ((mesh selfPeerId).log es) :=
  (mesh selfPeerId).invariant_of_along (fun _ s log => Valid selfPeerId s log) valid_init
    (fun _ e hvalid hmeets => (valid_step hvalid e).2 hmeets) h

/-- **Who is in a mesh**: it is the participants, each with all tracks and announced in turn, in
each state of a run, exactly if each step meets the condition. -/
theorem coherent_iff (es : List (Event Id τ σ)) :
    (∀ past, past <+: es →
      Coherent selfPeerId ((mesh selfPeerId).after past) ((mesh selfPeerId).log past)) ↔
      (mesh selfPeerId).Along (fun _ s e => Meets selfPeerId s e) es := by
  induction es using List.reverseRecOn with
  | nil =>
    refine iff_of_true (fun past hpast => ?_) ((mesh selfPeerId).along_nil _)
    have hvalid : Valid selfPeerId ({} : State Id τ σ) [] := valid_init
    rw [List.prefix_nil.mp hpast]
    exact hvalid.coherent
  | append_singleton es e ih =>
    rw [Transition.System.along_snoc, ← ih]
    constructor
    · intro hall
      have hbefore : ∀ past, past <+: es → _ := fun past hpast =>
        hall past (hpast.trans (List.prefix_append es [e]))
      have hvalid := valid_after (ih.mp hbefore)
      have hlast := hall (es ++ [e]) (List.prefix_refl _)
      rw [Transition.System.after_snoc, Transition.System.log_snoc] at hlast
      exact ⟨hbefore, (valid_step hvalid e).1.mp hlast⟩
    · rintro ⟨hbefore, hmeets⟩ past hpast
      rcases List.prefix_concat_iff.mp hpast with rfl | hpast
      · have hvalid := valid_after (ih.mp hbefore)
        rw [Transition.System.after_snoc, Transition.System.log_snoc]
        exact (valid_step hvalid e).1.mpr hmeets
      · exact hbefore past hpast

end Runs

/-- A peer is removed and added again, and then its old connection reports that it is closed. -/
def lateClose : List (Event String ℕ ℕ) :=
  [.setParticipants ["peer"] fun _ => true, .setParticipants [] fun _ => true,
    .setParticipants ["peer"] fun _ => true, .onClose 0]

/-- The newer connection is open, but not in the mesh. -/
theorem lateClose_not_coherent :
    ¬Coherent "self" ((mesh "self").after lateClose) ((mesh "self").log lateClose) := by
  intro h
  have hnewest : ((mesh "self").after lateClose).current "peer" = some 1 ∧
      ((mesh "self").after lateClose).connections[1]? = some { peer := "peer", tracks := [] } := by
    decide +kernel
  have hthere := (h.members "peer").mpr ⟨by decide +kernel, by decide, fun conn hconn => ?_⟩
  · exact absurd hthere (by decide +kernel)
  · rw [hnewest.1] at hconn
    obtain rfl := Option.some.inj hconn
    rintro ⟨c, hc, hclosed⟩
    rw [hnewest.2] at hc
    obtain rfl := Option.some.inj hc
    exact Bool.false_ne_true hclosed

end Rapidly.P2p.Mesh
