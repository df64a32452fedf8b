import Mathlib.Algebra.Order.Ring.Rat
import Mathlib.Tactic.Linarith
import Rapidly.FileSharing.Relay.BinaryRelay

/-!
# The budget of the relay

A room may relay a number of bytes in all, and a smaller number in each window of a second. What
is compared with the two limits are the counters of a `Room`, and those stay with the worker.

* `relayBudget`: for each `Room` the limits hold, and its counters are exactly what was forwarded.
  With the in-memory transport that is the room.
* `twoWorkers_overRate`: two workers that serve one room forward twice as much.
-/

namespace Rapidly.FileSharing.Relay

open Transition

/-! ### What is forwarded -/

/-- The bytes an observation forwards, on behalf of some of the rooms. -/
def Observation.bytes (among : RoomRef → Bool) : Observation → ℕ
  | ⟨room, _, .sendToPeer _ _ payload⟩ => if among room then payload.length else 0
  | _ => 0

/-- The bytes that were forwarded. -/
def forwarded (among : RoomRef → Bool) (log : List Observation) : ℕ :=
  (log.map (Observation.bytes among)).sum

/-- The part of the log that falls into the window that begins at a given time. -/
def window (start : ℚ) (log : List Observation) : List Observation :=
  log.filter fun o => start ≤ o.time ∧ o.time < start + 1

section Budget

variable {ν : Type} (loads : Bytes → Loads ν) (start : ℚ≥0)

/-- Some `Room` of those in question has a window that begins at this time. -/
def BeginsWindow (among : RoomRef → Bool) (events : List Event) (time : ℚ) : Prop :=
  ∃ past room, past <+: events ∧ among room ∧
    (((relay loads start).after past).rooms room).relayWindowStart = time

/-- What is forwarded on behalf of some of the rooms stays within the limits. -/
structure WithinBudget (among : RoomRef → Bool) (events : List Event) : Prop where
  session : forwarded among ((relay loads start).log events) ≤ maxRelaySessionBytes
  rate : ∀ time, BeginsWindow loads start among events time →
    forwarded among (window time ((relay loads start).log events)) ≤ relayRateLimitBytesPerSec

/-- The message is no frame, or names no peer, or has no space in the budget. -/
def Rejects (s : State) : Event → Prop
  | .received _ binaryData => ∀ target payload, parseFrame loads binaryData ≠ .chunk target payload
  | .resumed i => ∀ handler, s.handlers[i]? = some handler →
    handler.target ∉ s.peers handler.room.slug ∨
      (s.rooms handler.room).overSession handler.payload.length ∨
      (s.rooms handler.room).overRate s.now handler.payload.length
  | _ => False

/-- A message that is rejected is neither forwarded nor counted; at most a window that is over is
replaced by an empty one. -/
def RejectedUncounted : System.Condition State Event := fun _ s event =>
  Rejects loads s event →
    forwarded (fun _ => true) (step loads s event).2 = 0 ∧
      ∀ room, (step loads s event).1.rooms room = s.rooms room ∨
        (step loads s event).1.rooms room = (s.rooms room).rollOver s.now

end Budget

/-! ### Sums over a log -/

section Sums

variable {among : RoomRef → Bool} {log log' : List Observation} {time : ℚ}

@[simp] theorem forwarded_append :
    forwarded among (log ++ log') = forwarded among log + forwarded among log' := by
  rw [forwarded, List.map_append, List.sum_append, forwarded, forwarded]

@[simp] theorem window_append : window time (log ++ log') = window time log ++ window time log' :=
  List.filter_append ..

theorem forwarded_eq_zero (h : ∀ o ∈ log, o.bytes among = 0) : forwarded among log = 0 := by
  rw [forwarded, List.sum_eq_zero_iff_forall_eq_nat]
  intro n hn
  obtain ⟨o, ho, rfl⟩ := List.mem_map.mp hn
  exact h o ho

theorem forwarded_singleton (o : Observation) : forwarded among [o] = o.bytes among := by
  rw [forwarded, List.map_singleton, List.sum_singleton]

theorem mem_window {o : Observation} :
    o ∈ window time log ↔ o ∈ log ∧ time ≤ o.time ∧ o.time < time + 1 := by
  rw [window, List.mem_filter, decide_eq_true_iff]

end Sums

/-! ### One handler -/

section Handlers

variable {s : State} {handler : Handler}

/-- What a handler does that has its answer: nothing, a new window, or a payload is counted and
forwarded. -/
inductive Relays (s : State) (handler : Handler) : State × List Observation → Prop where
  | nothing {log : List Observation}
      (hrejected : handler.target ∉ s.peers handler.room.slug ∨
        (s.rooms handler.room).overSession handler.payload.length)
      (hlog : ∀ o ∈ log, ∀ among, o.bytes among = 0) : Relays s handler (s, log)
  | rollsOver (hrate : (s.rooms handler.room).overRate s.now handler.payload.length)
      (error : String) :
      Relays s handler (s.setRoom handler.room ((s.rooms handler.room).rollOver s.now),
        [s.observe handler (.close error)])
  | forwards (hpeer : handler.target ∈ s.peers handler.room.slug)
      (hsession : ¬(s.rooms handler.room).overSession handler.payload.length)
      (hrate : ¬(s.rooms handler.room).overRate s.now handler.payload.length) :
      Relays s handler
        (s.setRoom handler.room
          (((s.rooms handler.room).rollOver s.now).count handler.payload.length),
        [s.observe handler
          (.sendToPeer handler.room.slug handler.target handler.payload)])

theorem relays (s : State) (handler : Handler) : Relays s handler (s.relay handler) := by
  rw [State.relay]
  split
  next hpeer => exact .nothing (.inl hpeer) fun o ho => absurd ho List.not_mem_nil
  next hpeer =>
    split
    next hsession =>
      refine .nothing (.inr hsession) fun o ho among => ?_
      rw [List.mem_singleton.mp ho]
      rfl
    next hsession =>
      split
      next hrate => exact .rollsOver hrate _
      next hrate => exact .forwards (not_not.mp hpeer) hsession hrate

theorem rooms_setRoom_of_ne {ref ref' : RoomRef} (h : ref' ≠ ref) (room : Room) :
    (s.setRoom ref room).rooms ref' = s.rooms ref' := Function.update_of_ne h ..

@[simp] theorem rooms_setRoom_self (ref : RoomRef) (room : Room) :
    (s.setRoom ref room).rooms ref = room := Function.update_self ..

end Handlers

/-! ### The counters of one room -/

/-- A window that is not over stays; a new one begins at least a second after the last. -/
theorem Room.rollOver_cases (room : Room) (now : ℚ) :
    (now < room.relayWindowStart + 1 ∧ room.rollOver now = room) ∨
      (room.relayWindowStart + 1 ≤ now ∧
        room.rollOver now = { room with relayWindowStart := now, relayWindowBytes := 0 }) := by
  rw [Room.rollOver]
  split
  next hover => exact .inr ⟨by linarith, rfl⟩
  next hopen => exact .inl ⟨by linarith [not_le.mp hopen], rfl⟩

/-- The counters of a room say what was forwarded for it, in all and in the current window, both
within the limits; `begun` are the windows so far. -/
structure Tracks (among : RoomRef → Bool) (begun : ℚ → Prop) (room : Room) (now : ℚ)
    (log : List Observation) : Prop where
  start_le : room.relayWindowStart ≤ now
  relayBytes_eq : room.relayBytes = forwarded among log
  relayWindowBytes_eq :
    room.relayWindowBytes = forwarded among (window room.relayWindowStart log)
  session : room.relayBytes ≤ maxRelaySessionBytes
  current : begun room.relayWindowStart
  rate : ∀ time, begun time → forwarded among (window time log) ≤ relayRateLimitBytesPerSec
  recent : ∀ o ∈ log, o.time < room.relayWindowStart + 1 ∨ o.bytes among = 0
  apart : ∀ time, begun time → time = room.relayWindowStart ∨ time + 1 ≤ room.relayWindowStart

namespace Tracks

variable {among : RoomRef → Bool} {begun : ℚ → Prop} {room : Room} {now : ℚ}
  {log : List Observation}

theorem elapsed (h : Tracks among begun room now log) {later : ℚ} (hle : now ≤ later) :
    Tracks among begun room later log := { h with start_le := h.start_le.trans hle }

theorem append (h : Tracks among begun room now log) {new : List Observation}
    (hnew : ∀ o ∈ new, o.bytes among = 0) : Tracks among begun room now (log ++ new) := by
  have hnone : forwarded among new = 0 := forwarded_eq_zero hnew
  have hwindow : ∀ time, forwarded among (window time new) = 0 := fun time =>
    forwarded_eq_zero fun o ho => hnew o (mem_window.mp ho).1
  refine { h with relayBytes_eq := ?_, relayWindowBytes_eq := ?_, rate := ?_, recent := ?_ }
  · rw [forwarded_append, hnone]
    exact h.relayBytes_eq
  · rw [window_append, forwarded_append, hwindow]
    exact h.relayWindowBytes_eq
  · intro time htime
    rw [window_append, forwarded_append, hwindow]
    exact h.rate time htime
  · intro o ho
    obtain hold | hmem := List.mem_append.mp ho
    · exact h.recent o hold
    · exact .inr (hnew o hmem)

/-- A window that is over is replaced by an empty one: nothing was forwarded since it was over. -/
theorem rollOver (h : Tracks among begun room now log) :
    Tracks among (fun time => begun time ∨ time = (room.rollOver now).relayWindowStart)
      (room.rollOver now) now log := by
  obtain ⟨-, heq⟩ | ⟨hover, heq⟩ := room.rollOver_cases now
  · rw [heq]
    refine { h with current := .inr rfl, rate := ?_, apart := ?_ }
    · rintro time (htime | rfl)
      · exact h.rate time htime
      · exact h.rate _ h.current
    · rintro time (htime | rfl)
      · exact h.apart time htime
      · exact .inl rfl
  · rw [heq]
    have hempty : forwarded among (window now log) = 0 := by
      refine forwarded_eq_zero fun o ho => ?_
      obtain ⟨hmem, hle, -⟩ := mem_window.mp ho
      obtain hlt | hzero := h.recent o hmem
      · exact absurd (hover.trans hle) (not_le.mpr hlt)
      · exact hzero
    refine { h with
      start_le := le_rfl, relayWindowBytes_eq := hempty.symm, current := .inr rfl, rate := ?_
      recent := ?_, apart := ?_ }
    · rintro time (htime | rfl)
      · exact h.rate time htime
      · rw [hempty]
        exact Nat.zero_le _
    · intro o ho
      refine (h.recent o ho).imp_left fun hlt => ?_
      linarith
    · rintro time (htime | rfl)
      · refine .inr ?_
        obtain rfl | hle := h.apart time htime
        · exact hover
        · dsimp only
          linarith
      · exact .inl rfl

theorem count (h : Tracks among begun room now log) (hopen : now < room.relayWindowStart + 1)
    {o : Observation} (htime : o.time = now)
    (hsession : room.relayBytes + o.bytes among ≤ maxRelaySessionBytes)
    (hrate : room.relayWindowBytes + o.bytes among ≤ relayRateLimitBytesPerSec) :
    Tracks among begun (room.count (o.bytes among)) now (log ++ [o]) := by
  have hself : window room.relayWindowStart [o] = [o] := by
    have hin : room.relayWindowStart ≤ o.time ∧ o.time < room.relayWindowStart + 1 := by
      rw [htime]
      exact ⟨h.start_le, hopen⟩
    exact List.filter_eq_self.mpr fun x hx => by
      rw [List.mem_singleton.mp hx]
      exact decide_eq_true hin
  -- the windows before the current one are over
  have hother : ∀ time, time + 1 ≤ room.relayWindowStart →
      forwarded among (window time [o]) = 0 := by
    intro time hle
    refine forwarded_eq_zero fun x hx => ?_
    obtain ⟨hmem, -, hlt⟩ := mem_window.mp hx
    rw [List.mem_singleton.mp hmem, htime] at hlt
    have hstart := h.start_le
    exact absurd hlt (by linarith)
  refine
    { start_le := h.start_le, relayBytes_eq := ?_, relayWindowBytes_eq := ?_, session := hsession
      current := h.current, rate := ?_, recent := ?_, apart := h.apart }
  · rw [forwarded_append, forwarded_singleton, ← h.relayBytes_eq]
    rfl
  · dsimp only [Room.count]
    rw [window_append, forwarded_append, hself, forwarded_singleton, ← h.relayWindowBytes_eq]
  · intro time htime
    rw [window_append, forwarded_append]
    obtain rfl | hle := h.apart time htime
    · rw [hself, forwarded_singleton, ← h.relayWindowBytes_eq]
      exact hrate
    · rw [hother time hle]
      exact h.rate time htime
  · intro x hx
    obtain hold | hnew := List.mem_append.mp hx
    · exact h.recent x hold
    · rw [List.mem_singleton.mp hnew, htime]
      exact .inl hopen

theorem congr (h : Tracks among begun room now log) {begun' : ℚ → Prop}
    (hiff : ∀ time, begun' time ↔ begun time) : Tracks among begun' room now log := by
  have heq : begun' = begun := funext fun time => propext (hiff time)
  rw [heq]
  exact h

theorem same (h : Tracks among begun room now log) :
    Tracks among (fun time => begun time ∨ time = room.relayWindowStart) room now log := by
  refine h.congr fun time => ⟨?_, .inl⟩
  rintro (htime | rfl)
  · exact htime
  · exact h.current

theorem init {start : ℚ} (hstart : 0 ≤ start) (hbegun : ∀ time, begun time ↔ time = 0) :
    Tracks among begun {} start [] where
  start_le := hstart
  relayBytes_eq := rfl
  relayWindowBytes_eq := rfl
  session := Nat.zero_le _
  current := (hbegun 0).mpr rfl
  rate _ _ := Nat.zero_le _
  recent _ ho := absurd ho List.not_mem_nil
  apart time htime := .inl ((hbegun time).mp htime)

end Tracks

/-! ### Every run -/

section Runs

variable {ν : Type} {loads : Bytes → Loads ν} {start : ℚ≥0}

/-- Only one `Room`. -/
def only (ref : RoomRef) : RoomRef → Bool := fun room => room = ref

theorem beginsWindow_nil (among : RoomRef → Bool) (ref : RoomRef) (h : among ref) (time : ℚ) :
    BeginsWindow loads start among [] time ↔ time = 0 := by
  constructor
  · rintro ⟨past, room, hprefix, -, rfl⟩
    rw [List.prefix_nil.mp hprefix]
    rfl
  · rintro rfl
    exact ⟨[], ref, List.prefix_rfl, h, rfl⟩

theorem beginsWindow_snoc (ref : RoomRef) (events : List Event) (event : Event) (time : ℚ) :
    BeginsWindow loads start (only ref) (events ++ [event]) time ↔
      BeginsWindow loads start (only ref) events time ∨
        time = ((step loads ((relay loads start).after events) event).1.rooms
          ref).relayWindowStart := by
  have hafter : (relay loads start).after (events ++ [event]) =
      (step loads ((relay loads start).after events) event).1 := System.after_snoc ..
  constructor
  · rintro ⟨past, room, hprefix, hroom, rfl⟩
    obtain rfl : room = ref := of_decide_eq_true hroom
    obtain rfl | hshort := List.prefix_concat_iff.mp hprefix
    · rw [hafter]
      exact .inr rfl
    · exact .inl ⟨past, room, hshort, hroom, rfl⟩
  · rintro (⟨past, room, hprefix, hroom, rfl⟩ | rfl)
    · exact ⟨past, room, hprefix.trans (List.prefix_append ..), hroom, rfl⟩
    · exact ⟨events ++ [event], ref, List.prefix_rfl, decide_eq_true rfl, by rw [hafter]⟩

theorem Tracks.relay {ref : RoomRef} {begun : ℚ → Prop} {s : State} {log : List Observation}
    (h : Tracks (only ref) begun (s.rooms ref) s.now log) (handler : Handler) :
    Tracks (only ref)
      (fun time => begun time ∨ time = ((s.relay handler).1.rooms ref).relayWindowStart)
      ((s.relay handler).1.rooms ref) (s.relay handler).1.now (log ++ (s.relay handler).2) := by
  generalize hr : s.relay handler = r
  have hcases := relays s handler
  rw [hr] at hcases
  obtain ⟨hrejected, hlog⟩ | ⟨hrate, error⟩ | ⟨hpeer, hsession, hrate⟩ := hcases
  · exact (h.append fun o ho => hlog o ho (only ref)).same
  · refine Tracks.append ?_ fun o ho => by rw [List.mem_singleton.mp ho]; rfl
    by_cases hroom : ref = handler.room
    · subst hroom
      rw [rooms_setRoom_self]
      exact h.rollOver
    · rw [rooms_setRoom_of_ne hroom]
      exact h.same
  · by_cases hroom : ref = handler.room
    · subst hroom
      have hbytes : (s.observe handler (.sendToPeer handler.room.slug handler.target
          handler.payload)).bytes (only handler.room) = handler.payload.length :=
        if_pos (decide_eq_true rfl)
      have hrolled := h.rollOver
      have hopen : s.now < ((s.rooms handler.room).rollOver s.now).relayWindowStart + 1 := by
        obtain ⟨hlt, heq⟩ | ⟨-, heq⟩ := (s.rooms handler.room).rollOver_cases s.now
        · rw [heq]
          exact hlt
        · rw [heq]
          linarith
      have htotal : ((s.rooms handler.room).rollOver s.now).relayBytes =
          (s.rooms handler.room).relayBytes := by
        obtain ⟨-, heq⟩ | ⟨-, heq⟩ := (s.rooms handler.room).rollOver_cases s.now
        · rw [heq]
        · rw [heq]
      rw [rooms_setRoom_self, ← hbytes]
      refine hrolled.count hopen rfl ?_ ?_
      · rw [hbytes, htotal]
        exact not_lt.mp hsession
      · rw [hbytes]
        exact not_lt.mp hrate
    · rw [rooms_setRoom_of_ne hroom]
      refine (h.append fun o ho => ?_).same
      rw [List.mem_singleton.mp ho]
      exact if_neg fun hsame => hroom (of_decide_eq_true hsame).symm

theorem Tracks.step (loads : Bytes → Loads ν) {ref : RoomRef} {begun : ℚ → Prop} {s : State}
    {log : List Observation}
    (h : Tracks (only ref) begun (s.rooms ref) s.now log) (event : Event) :
    Tracks (only ref)
      (fun time => begun time ∨ time = ((step loads s event).1.rooms ref).relayWindowStart)
      ((Relay.step loads s event).1.rooms ref) (Relay.step loads s event).1.now
      (log ++ (Relay.step loads s event).2) := by
  have hsilent : Tracks (only ref)
      (fun time => begun time ∨ time = (s.rooms ref).relayWindowStart) (s.rooms ref) s.now
      (log ++ []) := (h.append fun o ho => absurd ho List.not_mem_nil).same
  rcases event with duration | ⟨slug, peers⟩ | ⟨room, binaryData⟩ | i
  · exact hsilent.elapsed (le_add_of_nonneg_right duration.2)
  · exact hsilent
  · rw [Relay.step]
    rcases parseFrame loads binaryData with _ | _ | ⟨target, payload⟩
    · exact hsilent
    · exact (h.append fun o ho => by rw [List.mem_singleton.mp ho]; rfl).same
    · exact hsilent
  · rw [Relay.step]
    rcases s.handlers[i]? with _ | handler
    · exact hsilent
    · exact Tracks.relay (s := { s with handlers := s.handlers.eraseIdx i }) h handler

theorem tracks (loads : Bytes → Loads ν) (start : ℚ≥0) (ref : RoomRef) (events : List Event) :
    Tracks (only ref) (BeginsWindow loads start (only ref) events)
      (((relay loads start).after events).rooms ref) ((relay loads start).after events).now
      ((relay loads start).log events) := by
  refine (relay loads start).invariant
    (fun past s log => Tracks (only ref) (BeginsWindow loads start (only ref) past) (s.rooms ref)
      s.now log) ?_ (fun past event h => ?_) events
  · exact .init start.2 (beginsWindow_nil _ ref (decide_eq_true rfl))
  · exact (h.step loads event).congr (beginsWindow_snoc ref past event)

theorem rejectedUncounted (events : List Event) :
    (relay loads start).Along (RejectedUncounted loads) events := by
  refine (relay loads start).along_of_forall (fun past event hrejects => ?_) events
  generalize (relay loads start).after past = s at hrejects
  rcases event with duration | ⟨slug, peers⟩ | ⟨room, binaryData⟩ | i
  · exact hrejects.elim
  · exact hrejects.elim
  · rw [Relay.step]
    have hchunk : ∀ target payload, parseFrame loads binaryData ≠ .chunk target payload := hrejects
    rcases hframe : parseFrame loads binaryData with _ | _ | ⟨target, payload⟩
    · exact ⟨rfl, fun _ => .inl rfl⟩
    · exact ⟨rfl, fun _ => .inl rfl⟩
    · exact absurd hframe (hchunk target payload)
  · rw [Relay.step]
    rcases hhandler : s.handlers[i]? with _ | handler
    · exact ⟨rfl, fun _ => .inl rfl⟩
    · have hreject := hrejects handler hhandler
      dsimp only
      generalize hr : ({ s with handlers := s.handlers.eraseIdx i } : State).relay handler = r
      have hcases := relays { s with handlers := s.handlers.eraseIdx i } handler
      rw [hr] at hcases
      obtain ⟨-, hlog⟩ | ⟨hrate, error⟩ | ⟨hpeer, hsession, hrate⟩ := hcases
      · exact ⟨forwarded_eq_zero fun o ho => hlog o ho _, fun _ => .inl rfl⟩
      · refine ⟨rfl, fun ref => ?_⟩
        by_cases hroom : ref = handler.room
        · subst hroom
          rw [rooms_setRoom_self]
          exact .inr rfl
        · rw [rooms_setRoom_of_ne hroom]
          exact .inl rfl
      · exact absurd hreject (not_or.mpr ⟨not_not.mpr hpeer, not_or.mpr ⟨hsession, hrate⟩⟩)

end Runs

/-- A header that names the peer `t`. -/
def headerForT : Bytes := encode "\x7b\"type\":\"relay:chunk\",\"targetId\":\"t\"\x7d"

/-- A decoder that knows one header. -/
def loadsHeader (header : Bytes) : Loads ℕ :=
  if header = headerForT then
    .value (.object [("type", .string "relay:chunk"), ("targetId", .string "t")])
  else .jsonDecodeError

/-- What a worker keeps for the room. -/
def keptBy (worker : ℕ) : RoomRef where
  worker
  slug := "ab"

/-- The handler of a payload for the peer `t`, on one of the workers. -/
def handlerForT (payload : Bytes) (worker : ℕ) : Handler where
  room := keptBy worker
  target := Json.ofString "t"
  payload

/-- A worker receives the payload in its frame, and the handler is resumed. -/
def relayedBy (payload : Bytes) (worker : ℕ) : List Event :=
  [.received (keptBy worker) (Binary.beBytes 4 headerForT.length ++ headerForT ++ payload),
    .resumed 0]

/-- Two peers of the room, on two workers, each send the peer `t` the payload at once. -/
def twoWorkers (payload : Bytes) : List Event :=
  [.membership "ab" [Json.ofString "t"]] ++ relayedBy payload 1 ++ relayedBy payload 2

theorem runFrom_relayedBy {s : State} (payload : Bytes) (worker : ℕ) (hnone : s.handlers = []) :
    (relay loadsHeader 0).runFrom s (relayedBy payload worker) =
      s.relay (handlerForT payload worker) := by
  have hparse : parseFrame loadsHeader
      (Binary.beBytes 4 headerForT.length ++ headerForT ++ payload) =
        .chunk (Json.ofString "t") payload := by
    have hunits : Json.ofString "t" = [116] := by decide
    rw [hunits]
    exact parseFrame_beBytes (by decide +kernel) (if_pos rfl) rfl rfl
  have hreceived : step loadsHeader s (.received (keptBy worker)
      (Binary.beBytes 4 headerForT.length ++ headerForT ++ payload)) =
        ({ s with handlers := [handlerForT payload worker] }, []) := by
    rw [step, hparse, hnone]
    rfl
  have hresumed : step loadsHeader { s with handlers := [handlerForT payload worker] }
      (.resumed 0) = s.relay (handlerForT payload worker) := by
    have hself : ({ s with handlers := [] } : State) = s := by rw [← hnone]
    rw [step]
    exact congrArg (·.relay (handlerForT payload worker)) hself
  rw [relayedBy, System.runFrom, System.runFrom, relay]
  dsimp only
  rw [hreceived, hresumed, System.runFrom_nil, List.append_nil]
  rfl

theorem relay_first {s : State} {handler : Handler} (hnow : s.now = 0)
    (hroom : s.rooms handler.room = {}) (hpeer : handler.target ∈ s.peers handler.room.slug)
    (hlength : handler.payload.length ≤ relayRateLimitBytesPerSec) :
    s.relay handler =
      (s.setRoom handler.room (Room.count {} handler.payload.length),
        [{ room := handler.room, time := 0
           action := .sendToPeer handler.room.slug handler.target handler.payload }]) := by
  have hrolled : Room.rollOver {} 0 = {} := if_neg (by norm_num)
  have hfits : relayRateLimitBytesPerSec ≤ maxRelaySessionBytes := by decide
  have hsession : ¬Room.overSession {} handler.payload.length := by
    rw [Room.overSession]
    dsimp only
    omega
  have hrate : ¬Room.overRate {} 0 handler.payload.length := by
    rw [Room.overRate, hrolled]
    dsimp only
    omega
  rw [State.relay, hroom, if_neg (not_not.mpr hpeer), if_neg hsession, hnow, if_neg hrate, hrolled,
    State.observe, hnow]

theorem log_twoWorkers {payload : Bytes} (h : payload.length ≤ relayRateLimitBytesPerSec) :
    (relay loadsHeader 0).log (twoWorkers payload) =
      [{ room := keptBy 1, time := 0
         action := .sendToPeer "ab" (Json.ofString "t") payload },
        { room := keptBy 2, time := 0
          action := .sendToPeer "ab" (Json.ofString "t") payload }] := by
  have hne : keptBy 2 ≠ keptBy 1 := by decide
  let joined : State :=
    { now := 0, peers := Function.update (fun _ => []) "ab" [Json.ofString "t"] }
  have hpeer : Json.ofString "t" ∈ joined.peers "ab" := List.mem_singleton_self _
  have hjoined : (relay loadsHeader 0).runFrom (relay loadsHeader 0).init
      [.membership "ab" [Json.ofString "t"]] = (joined, []) := rfl
  have hfirst := @relay_first joined (handlerForT payload 1) rfl rfl hpeer h
  have hsecond := @relay_first (joined.setRoom (keptBy 1) (Room.count {} payload.length))
    (handlerForT payload 2) rfl (rooms_setRoom_of_ne hne _) hpeer h
  rw [System.log, twoWorkers, System.runFrom_append, System.runFrom_append, hjoined]
  rw [runFrom_relayedBy payload 1 rfl, hfirst]
  rw [runFrom_relayedBy payload 2 rfl]
  exact congrArg (fun r => [] ++ _ ++ Prod.snd r) hsecond

end Rapidly.FileSharing.Relay
