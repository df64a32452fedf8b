import Mathlib.Algebra.BigOperators.Group.List.Basic
import Mathlib.Algebra.Order.Group.Multiset
import Rapidly.KeyValue.Store
import Rapidly.Transition.Tasks

/-!
# The public share counter

`get_public_stats` adds up three Redis counters, which `create_channel` and the creation of
secrets increment, and caches the total for a few seconds; every increment is followed by a
deletion of the cached total. The channel counter is younger than the channels: the first call
that finds no marker counts the rows of the channels in a replica of the database, sets the
marker and adds the count to the counter.

Each command is a step, so that any number of calls, on any number of workers, interleave as
they like, and an exception may end a call in front of any of its commands. The row of a channel
is written in the transaction of its request, which is committed after the handler has returned,
and reaches the replica at any later time.

The counters are numbers, and each share adds one. The model is over any additive monoid and any
weight of the shares: over `ℕ`, where a share weighs one, it computes what the code computes
(`numbers`); over multisets of shares, where a share weighs itself, it also says which shares
have been counted (`shares`). `numbers_eq_map` relates the two.
-/

namespace Rapidly.FileSharing.Stats

open KeyValue Transition

/-- The Redis counters that `get_public_stats` adds up. -/
inductive Counter where
  | channelsTotal
  | secretsCreated
  | noServerCreated
deriving DecidableEq

/-- `_STATS_CACHE_TTL`, in seconds. -/
def statsCacheTtl : ℕ := 15

universe u v w

variable {Share : Type u} {N : Type v}

/-- Redis and the database. -/
structure State (Share : Type u) (N : Type v) where
  /-- The time, in milliseconds. -/
  now : ℕ := 0
  /-- The counters; a missing key reads as `0`. -/
  counter : Counter → N
  /-- `_CHANNELS_INITIALIZED_KEY` exists. -/
  initialized : Bool := false
  /-- `_STATS_CACHE_KEY`. -/
  cache : Store Unit N := Store.empty
  /-- The committed rows of the channels, in the order of their commits. -/
  rows : List Share
  /-- How many of the commits have reached the replica. -/
  replicated : ℕ := 0

/-- What a call does next: its next command, with what it remembers. -/
inductive Call (Share : Type u) (N : Type v) where
  /-- `_pg_create_session`: insert the row of a channel. -/
  | pgCreateSession (share : Share)
  /-- `INCR`; `row` says that a row waits to be committed. -/
  | incrementing (counter : Counter) (share : Share) (row : Bool)
  /-- `DEL` of the cached total. -/
  | invalidating (counter : Counter) (share : Share) (row : Bool)
  /-- The end of the request: the transaction is committed. -/
  | committing (share : Share)
  /-- `get_cached_total`, the first command of `get_public_stats`. -/
  | getCachedTotal
  | channelsTotalInitialized
  | getTotalCount
  /-- `seed_channels_total_if_needed`: the `SET NX` of the marker. -/
  | settingInitialized (pgBaseline : N)
  /-- `seed_channels_total_if_needed`: the `INCRBY` of the winner. -/
  | seeding (pgBaseline : N)
  | getChannelsTotal
  | getCreatedCount (channelsCount : N)
  | getNoServerCreatedCount (channelsCount secretCount : N)
  | setCachedTotal (total : N)
  | finished
deriving DecidableEq

/-- What happens outside of the calls. -/
inductive Event (Share : Type u) where
  /-- `create_channel` is called, with a database session or without. -/
  | createChannel (share : Share) (session : Bool)
  /-- `increment_created_count` is called. -/
  | incrementCreatedCount (share : Share)
  /-- `increment_no_server_created_count` is called. -/
  | incrementNoServerCreatedCount (share : Share)
  /-- `get_public_stats` is called. -/
  | getPublicStats
  /-- One more commit reaches the replica. -/
  | replicate
  | elapse (milliseconds : ℕ)
deriving DecidableEq

/-- What is observed of a run. -/
inductive Observation (Share : Type u) (N : Type v) where
  /-- A counter has been incremented for a share. -/
  | counted (counter : Counter) (share : Share)
  /-- The cached total has been deleted after the increment. -/
  | settled (counter : Counter) (share : Share)
  /-- The call has set the marker. -/
  | won (i : ℕ)
  /-- The count of the rows has been added to the channel counter. -/
  | seeded
  /-- `get_public_stats` has been called: this is the call with the number `i`. -/
  | asked (i : ℕ)
  /-- Call `i` returns a total. -/
  | returned (i : ℕ) (total : N)
deriving DecidableEq

section Model

variable [AddCommMonoid N] (weigh : Share → N)

namespace State

variable (s : State Share N)

/-- `INCR` and `INCRBY`. -/
def incrby (c : Counter) (n : N) : State Share N :=
  { s with counter := Function.update s.counter c (s.counter c + n) }

/-- `get_total_count` on the replica. -/
def totalCount : N := ((s.rows.take s.replicated).map weigh).sum

end State

/-- An event. -/
def arrive (s : State Share N) (i : ℕ) :
    Event Share → State Share N × List (Call Share N) × List (Observation Share N)
  | .createChannel share true => (s, [.pgCreateSession share], [])
  | .createChannel share false => (s, [.incrementing .channelsTotal share false], [])
  | .incrementCreatedCount share => (s, [.incrementing .secretsCreated share false], [])
  | .incrementNoServerCreatedCount share => (s, [.incrementing .noServerCreated share false], [])
  | .getPublicStats => (s, [.getCachedTotal], [.asked i])
  | .replicate => ({ s with replicated := s.replicated + 1 }, [], [])
  | .elapse milliseconds => ({ s with now := s.now + milliseconds }, [], [])

/-- The next command of call `i`. -/
def execute (s : State Share N) (i : ℕ) :
    Call Share N → State Share N × Call Share N × List (Observation Share N)
  | .pgCreateSession share => (s, .incrementing .channelsTotal share true, [])
  | .incrementing c share row =>
    (s.incrby c (weigh share), .invalidating c share row, [.counted c share])
  | .invalidating c share row =>
    ({ s with cache := s.cache.delete () }, if row then .committing share else .finished,
      [.settled c share])
  | .committing share => ({ s with rows := s.rows ++ [share] }, .finished, [])
  | .getCachedTotal =>
    match s.cache.get s.now () with
    | some total => (s, .finished, [.returned i total])
    | none => (s, .channelsTotalInitialized, [])
  | .channelsTotalInitialized =>
    (s, if s.initialized then .getChannelsTotal else .getTotalCount, [])
  | .getTotalCount => (s, .settingInitialized (s.totalCount weigh), [])
  | .settingInitialized pgBaseline =>
    if s.initialized then (s, .getChannelsTotal, [])
    else ({ s with initialized := true }, .seeding pgBaseline, [.won i])
  | .seeding pgBaseline => (s.incrby .channelsTotal pgBaseline, .getChannelsTotal, [.seeded])
  | .getChannelsTotal => (s, .getCreatedCount (s.counter .channelsTotal), [])
  | .getCreatedCount channelsCount =>
    (s, .getNoServerCreatedCount channelsCount (s.counter .secretsCreated), [])
  | .getNoServerCreatedCount channelsCount secretCount =>
    (s, .setCachedTotal (channelsCount + secretCount + s.counter .noServerCreated), [])
  | .setCachedTotal total =>
    ({ s with cache := s.cache.setex s.now () statsCacheTtl total }, .finished,
      [.returned i total])
  | .finished => (s, .finished, [])

/-- One step of a call. An exception ends it, and the transaction of its request is rolled
back. -/
def advance (s : State Share N) (i : ℕ) (answer : Outcome) (call : Call Share N) :
    State Share N × Call Share N × List (Observation Share N) :=
  match answer with
  | .executed => execute weigh s i call
  | .raised => (s, .finished, [])

/-- The calls and the stores they share. The channels that were created before the counter was
introduced have their rows in the database. -/
def calls (legacy : List Share) :
    Tasks (State Share N) (Call Share N) (Event Share) Outcome (Observation Share N) where
  init := { counter := fun _ => 0, rows := legacy }
  arrive := arrive
  advance := advance weigh

end Model

/-- What the code computes: every share counts one. -/
def numbers (legacy : List Share) :
    Tasks (State Share ℕ) (Call Share ℕ) (Event Share) Outcome (Observation Share ℕ) :=
  calls (fun _ => 1) legacy

/-- Which shares it counts. -/
def shares (legacy : List Share) :
    Tasks (State Share (Multiset Share)) (Call Share (Multiset Share)) (Event Share) Outcome
      (Observation Share (Multiset Share)) :=
  calls (fun share => {share}) legacy

/-! ### What a command does -/

section Execute

variable [AddCommMonoid N] {weigh : Share → N} {s : State Share N} {i j : ℕ} {call : Call Share N}
  {c : Counter} {share : Share}

@[simp] theorem State.incrby_self (n : N) : (s.incrby c n).counter c = s.counter c + n :=
  Function.update_self ..

theorem State.incrby_of_ne {c' : Counter} (h : c' ≠ c) (n : N) :
    (s.incrby c n).counter c' = s.counter c' := Function.update_of_ne h ..

/-- What is added to a counter by a command. -/
def added (weigh : Share → N) (call : Call Share N) (c : Counter) : N :=
  match call with
  | .incrementing c' share _ => if c = c' then weigh share else 0
  | .seeding pgBaseline => if c = .channelsTotal then pgBaseline else 0
  | _ => 0

theorem counter_execute :
    (execute weigh s i call).1.counter c = s.counter c + added weigh call c := by
  have hincrby (c' : Counter) (n : N) :
      (s.incrby c' n).counter c = s.counter c + if c = c' then n else 0 := by
    split
    next h => rw [h, State.incrby_self]
    next h => rw [State.incrby_of_ne h, add_zero]
  have hsame : s.counter c = s.counter c + 0 := (add_zero _).symm
  rcases call with _ | ⟨c', share, row⟩ | _ | _ | _ | _ | _ | _ | pgBaseline | _ | _ | _ | _ | _
  case incrementing => exact hincrby c' (weigh share)
  case seeding => exact hincrby .channelsTotal pgBaseline
  case getCachedTotal =>
    rw [execute]
    split <;> exact hsame
  case settingInitialized =>
    rw [execute]
    split <;> exact hsame
  all_goals exact hsame

end Execute

/-! ### The numbers are the sizes of the multisets -/

section Map

universe x

variable {N' : Type x} (f : N → N')

/-- Apply a function to all counts. -/
def State.map (s : State Share N) : State Share N' where
  now := s.now
  counter c := f (s.counter c)
  initialized := s.initialized
  cache := s.cache.map f
  rows := s.rows
  replicated := s.replicated

/-- Apply a function to all counts. -/
def Call.map : Call Share N → Call Share N'
  | .pgCreateSession share => .pgCreateSession share
  | .incrementing c share row => .incrementing c share row
  | .invalidating c share row => .invalidating c share row
  | .committing share => .committing share
  | .getCachedTotal => .getCachedTotal
  | .channelsTotalInitialized => .channelsTotalInitialized
  | .getTotalCount => .getTotalCount
  | .settingInitialized pgBaseline => .settingInitialized (f pgBaseline)
  | .seeding pgBaseline => .seeding (f pgBaseline)
  | .getChannelsTotal => .getChannelsTotal
  | .getCreatedCount channelsCount => .getCreatedCount (f channelsCount)
  | .getNoServerCreatedCount channelsCount secretCount =>
    .getNoServerCreatedCount (f channelsCount) (f secretCount)
  | .setCachedTotal total => .setCachedTotal (f total)
  | .finished => .finished

/-- Apply a function to all counts. -/
def Observation.map : Observation Share N → Observation Share N'
  | .counted c share => .counted c share
  | .settled c share => .settled c share
  | .won i => .won i
  | .seeded => .seeded
  | .asked i => .asked i
  | .returned i total => .returned i (f total)

end Map

section Image

universe x

variable [AddCommMonoid N] {N' : Type x} [AddCommMonoid N'] (f : N →+ N') (weigh : Share → N)
  (s : State Share N)

theorem State.incrby_map (c : Counter) (n : N) :
    (s.map f).incrby c (f n) = (s.incrby c n).map f := by
  have hcounter : Function.update (fun c => f (s.counter c)) c (f (s.counter c) + f n) =
      fun c' => f (Function.update s.counter c (s.counter c + n) c') := by
    funext c'
    rw [Function.update_apply, Function.update_apply]
    split
    · rw [map_add]
    · rfl
  rw [incrby, incrby, map, map]
  rw [hcounter]

theorem State.totalCount_map :
    (s.map f).totalCount (fun share => f (weigh share)) = f (s.totalCount weigh) := by
  rw [totalCount, totalCount, map_list_sum, List.map_map]
  rfl

theorem execute_map (i : ℕ) (call : Call Share N) :
    execute (fun share => f (weigh share)) (s.map f) i (call.map f) =
      ((execute weigh s i call).1.map f, (execute weigh s i call).2.1.map f,
        (execute weigh s i call).2.2.map (Observation.map f)) := by
  rcases call with share | ⟨c, share, row⟩ | ⟨c, share, row⟩ | share | _ | _ | _ | pgBaseline |
    pgBaseline | _ | channelsCount | ⟨channelsCount, secretCount⟩ | total | _
  case incrementing =>
    rw [Call.map, execute, execute, State.incrby_map]
    rfl
  case invalidating =>
    have hcache : (s.map f).cache.delete () = (s.cache.delete ()).map f := s.cache.delete_map f ()
    rw [Call.map, execute, execute, hcache]
    rcases row with _ | _ <;> rfl
  case getCachedTotal =>
    have hcache : (s.map f).cache.get (s.map f).now () = (s.cache.get s.now ()).map f :=
      s.cache.get_map f s.now ()
    rw [Call.map, execute, execute, hcache]
    rcases s.cache.get s.now () with _ | total <;> rfl
  case channelsTotalInitialized =>
    rw [Call.map, execute, execute]
    have hinitialized : (s.map f).initialized = s.initialized := rfl
    rw [hinitialized]
    rcases s.initialized with _ | _ <;> rfl
  case getTotalCount =>
    rw [Call.map, execute, execute, State.totalCount_map]
    rfl
  case settingInitialized =>
    rw [Call.map, execute, execute]
    have hinitialized : (s.map f).initialized = s.initialized := rfl
    rw [hinitialized]
    rcases s.initialized with _ | _ <;> rfl
  case seeding =>
    rw [Call.map, execute, execute, State.incrby_map]
    rfl
  case getNoServerCreatedCount =>
    rw [Call.map, execute, execute]
    dsimp only [State.map, Call.map]
    rw [map_add, map_add]
    rfl
  case setCachedTotal =>
    have hcache : (s.map f).cache.setex (s.map f).now () statsCacheTtl (f total) =
        (s.cache.setex s.now () statsCacheTtl total).map f :=
      s.cache.setex_map f s.now () statsCacheTtl total
    rw [Call.map, execute, execute, hcache]
    rfl
  all_goals rfl

theorem isImage_calls (legacy : List Share) :
    Tasks.IsImage (calls weigh legacy) (calls (fun share => f (weigh share)) legacy)
      (State.map f) (Call.map f) (Observation.map f) where
  init := by
    have hzero : (fun _ : Counter => (0 : N')) = fun _ => f 0 := by rw [map_zero]
    rw [calls, calls]
    rw [hzero]
    rfl
  arrive s i e := by
    rcases e with ⟨share, session⟩ | _ | _ | _ | _ | _
    case createChannel => rcases session with _ | _ <;> rfl
    all_goals rfl
  advance s i answer call := by
    rcases answer with _ | _
    case executed => exact execute_map f weigh s i call
    case raised => rfl

end Image

/-- The numbers in the stores are the sizes of the multisets of shares that have been counted. -/
theorem numbers_eq_map (legacy : List Share) (ls : List (Turn (Event Share) Outcome)) :
    (numbers legacy).system.after ls =
        ((shares legacy).system.after ls).map (State.map Multiset.card) (Call.map Multiset.card) ∧
      (numbers legacy).system.log ls =
        ((shares legacy).system.log ls).map (Observation.map Multiset.card) := by
  have himage := isImage_calls Multiset.cardHom (fun share : Share => {share}) legacy
  exact himage.run ls

end Rapidly.FileSharing.Stats
