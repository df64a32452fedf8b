import Mathlib.Data.List.Nodup
import Rapidly.KeyValue.Store
import Rapidly.Transition.Tasks

/-!
# The state of the OAuth flow

`core/oauth.py`: the state payload that `store_oauth_state` keeps in Redis between the redirect to
the provider and the callback, and `validate_callback`, which loads it and deletes it. Any number
of callbacks of the three providers run side by side, one Redis command a step.

* `validateRequest` is what `validate_callback` checks before it turns to Redis.
* `callbacks` is the system: states are stored under new nonces, callbacks come in and execute
  their commands, and time passes. What is observed is a callback that passes.
* `singleUse_iff` says which runs use every state once.
-/

namespace Rapidly.Identity.OAuthState

open KeyValue Transition

/-- `OAuthStateType`. -/
inductive OAuthStateType where
  | microsoft
  | google
  | apple
deriving DecidableEq

/-- `_cache_key`, of a provider and a nonce. -/
structure CacheKey where
  provider : OAuthStateType
  nonce : String
deriving DecidableEq

/-- How `validate_callback` fails. -/
inductive CallbackError where
  | oauthCallbackError (message : String)
  /-- `secrets.compare_digest` of strings that are not ASCII. -/
  | typeError
  /-- A command to Redis fails. -/
  | redisError
deriving DecidableEq

/-- What a callback comes with. -/
structure CallbackRequest where
  provider : OAuthStateType
  /-- `token_data.get("error_description")`. -/
  errorDescription : Option String := none
  state : Option String := none
  /-- The nonce cookie. -/
  cookie : Option String := none
  crossSite : Bool := false
deriving DecidableEq

/-- `secrets.compare_digest`. -/
def compareDigest (a b : String) : Except CallbackError Bool :=
  if (a.toList ++ b.toList).all (·.toNat < 128) then .ok (a = b) else .error .typeError

/-- The cookie is checked unless the flow is cross-site. -/
def CallbackRequest.checkCookie (request : CallbackRequest) (state : String) :
    Except CallbackError Unit :=
  if request.crossSite then .ok ()
  else
    match request.cookie with
    | none => .error (.oauthCallbackError "Invalid session cookie")
    | some cookie =>
      match compareDigest state cookie with
      | .error e => .error e
      | .ok false => .error (.oauthCallbackError "Invalid session cookie")
      | .ok true => .ok ()

/-- What `validate_callback` checks first: the key of the state that it goes on with. -/
def validateRequest (request : CallbackRequest) : Except CallbackError CacheKey :=
  match request.errorDescription.filter (· ≠ ""), request.state.filter (· ≠ "") with
  | some description, _ => .error (.oauthCallbackError description)
  | none, none => .error (.oauthCallbackError "No state")
  | none, some state =>
    match request.checkCookie state with
    | .error e => .error e
    | .ok _ => .ok ⟨request.provider, state⟩

/-! ### Callbacks side by side -/

/-- `_TTL_SECONDS`, of the default setting: ten minutes. -/
def ttlSeconds : ℕ := 600

section System

variable {Data : Type*}

/-- Redis, and the keys under which a state has been stored. -/
structure Shared (Data : Type*) where
  redis : Store CacheKey Data := .empty
  /-- In milliseconds. -/
  now : ℕ := 0
  issued : List CacheKey := []

/-- A callback at the command that it executes next. -/
inductive Callback (Data : Type*) where
  /-- `GET` of `retrieve_oauth_state`. -/
  | retrieving (key : CacheKey)
  /-- `DEL` of `delete_oauth_state`. -/
  | deleting (key : CacheKey) (payload : Data)
  | passed (payload : Data)
  | failed (error : CallbackError)
deriving DecidableEq

inductive Event (Data : Type*) where
  /-- A flow begins: a state is stored under a nonce that `secrets.token_urlsafe` has generated. -/
  | authorized (key : CacheKey) (stateData : Data)
  | callback (request : CallbackRequest)
  | elapsed (milliseconds : ℕ)
deriving DecidableEq

/-- `store_oauth_state`. A nonce that is generated is new. -/
def Shared.store (s : Shared Data) (key : CacheKey) (stateData : Data) : Shared Data :=
  if key.nonce ∈ s.issued.map CacheKey.nonce then s
  else
    { s with
      redis := s.redis.setex s.now key ttlSeconds stateData
      issued := key :: s.issued }

/-- Where a callback starts. -/
def Callback.start (request : CallbackRequest) : Callback Data :=
  match validateRequest request with
  | .error e => .failed e
  | .ok key => .retrieving key

/-- The next command of a callback. -/
def Callback.advance (s : Shared Data) : Outcome → Callback Data →
    Shared Data × Callback Data × List CacheKey
  | .executed, .retrieving key =>
    match s.redis.get s.now key with
    | none => (s, .failed (.oauthCallbackError "Invalid state"), [])
    | some payload => (s, .deleting key payload, [])
  | .executed, .deleting key payload =>
    ({ s with redis := s.redis.delete key }, .passed payload, [key])
  | .raised, .retrieving _ => (s, .failed .redisError, [])
  | .raised, .deleting _ _ => (s, .failed .redisError, [])
  | _, .passed payload => (s, .passed payload, [])
  | _, .failed e => (s, .failed e, [])

variable (Data) in
/-- All callbacks side by side. -/
def callbacks : Tasks (Shared Data) (Callback Data) (Event Data) Outcome CacheKey where
  init := {}
  arrive s _
    | .authorized key stateData => (s.store key stateData, [], [])
    | .callback request => (s, [.start request], [])
    | .elapsed milliseconds => ({ s with now := s.now + milliseconds }, [], [])
  advance s _ := Callback.advance s

/-- No two callbacks that present the same state pass. -/
def SingleUse (passed : List CacheKey) : Prop := (passed.map CacheKey.nonce).Nodup

instance (passed : List CacheKey) : Decidable (SingleUse passed) :=
  inferInstanceAs (Decidable (List.Nodup _))

/-- A callback that comes to execute its `DEL` finds that no other one has deleted the state: there
still is an entry, which may have expired. -/
def Undeleted : System.Condition (Pool (Shared Data) (Callback Data)) (Turn (Event Data) Outcome)
  | _, p, .resumed i .executed =>
    match p.tasks[i]? with
    | some (.deleting key _) => p.shared.redis.entry key ≠ none
    | _ => True
  | _, _, _ => True

/-- A step that passes does so with a state with which nobody has passed. -/
def PassesFirst : System.Condition (Pool (Shared Data) (Callback Data))
    (Turn (Event Data) Outcome) := fun past p l =>
  ∀ key ∈ ((callbacks Data).step p l).2,
    key.nonce ∉ ((callbacks Data).system.log past).map CacheKey.nonce

/-! ### What is deleted stays deleted -/

/-- Nonces are issued once, entries are under issued keys, and a state with which a callback has
passed has no entry. -/
structure Sound (passed : List CacheKey) (s : Shared Data) : Prop where
  issued : (s.issued.map CacheKey.nonce).Nodup
  entry : ∀ key, s.redis.entry key ≠ none → key ∈ s.issued
  passed_issued : ∀ key ∈ passed, key ∈ s.issued
  passed_deleted : ∀ key ∈ passed, s.redis.entry key = none

/-- A state that a callback is about to delete was issued, and is there unless somebody has passed
with it. -/
def Assertion (passed : List CacheKey) (s : Shared Data) : Callback Data → Prop
  | .deleting key _ => key ∈ s.issued ∧ (s.redis.entry key = none → key ∈ passed)
  | _ => True

variable {s s' : Shared Data} {passed : List CacheKey} {key : CacheKey}

theorem Sound.eq_of_nonce (h : Sound passed s) {key' : CacheKey} (hkey : key ∈ s.issued)
    (hkey' : key' ∈ s.issued) (hnonce : key.nonce = key'.nonce) : key = key' :=
  List.inj_on_of_nodup_map h.issued hkey hkey' hnonce

theorem Assertion.mono {passed' : List CacheKey} {t : Callback Data} (h : Assertion passed s t)
    (hissued : ∀ key ∈ s.issued, key ∈ s'.issued) (hpassed : ∀ key ∈ passed, key ∈ passed')
    (hentry : ∀ key ∈ s.issued, s'.redis.entry key = none →
      s.redis.entry key = none ∨ key ∈ passed') : Assertion passed' s' t := by
  rcases t with key | ⟨key, payload⟩ | payload | e
  · trivial
  · refine ⟨hissued key h.1, fun hnone => ?_⟩
    rcases hentry key h.1 hnone with hold | hnew
    · exact hpassed key (h.2 hold)
    · exact hnew
  · trivial
  · trivial

theorem Sound.store (h : Sound passed s) (stateData : Data) :
    Sound passed (s.store key stateData) ∧
      (∀ key' ∈ s.issued, key' ∈ (s.store key stateData).issued ∧
        (s.store key stateData).redis.entry key' = s.redis.entry key') := by
  rw [Shared.store]
  split
  · exact ⟨h, fun key' hkey' => ⟨hkey', rfl⟩⟩
  next hnew =>
    have hne : ∀ key' ∈ s.issued, key' ≠ key := by
      rintro key' hkey' rfl
      exact hnew (List.mem_map_of_mem hkey')
    have hentry : ∀ key' ∈ s.issued,
        (s.redis.setex s.now key ttlSeconds stateData).entry key' = s.redis.entry key' :=
      fun key' hkey' => Store.put_of_ne (hne key' hkey') _ _
    refine ⟨⟨List.nodup_cons.mpr ⟨hnew, h.issued⟩, fun key' hkey' => ?_, fun key' hkey' => ?_,
      fun key' hkey' => ?_⟩, fun key' hkey' => ⟨List.mem_cons_of_mem key hkey', hentry key' hkey'⟩⟩
    · by_cases heq : key' = key
      · exact heq ▸ List.mem_cons_self
      · dsimp only at hkey'
        rw [Store.setex, Store.put_of_ne heq] at hkey'
        exact List.mem_cons_of_mem key (h.entry key' hkey')
    · exact List.mem_cons_of_mem key (h.passed_issued key' hkey')
    · exact (hentry key' (h.passed_issued key' hkey')).trans (h.passed_deleted key' hkey')

/-- **What a command can do**: nothing that others see, or pass with a state and delete it. -/
theorem advance_cases (s : Shared Data) (answer : Outcome) (t : Callback Data) :
    ((t.advance s answer).1 = s ∧ (t.advance s answer).2.2 = [] ∧
        ∀ key payload, (t.advance s answer).2.1 = .deleting key payload →
          s.redis.entry key ≠ none) ∨
      ∃ key payload, answer = .executed ∧ t = .deleting key payload ∧
        t.advance s answer =
          ({ s with redis := s.redis.delete key }, .passed payload, [key]) := by
  rcases answer with _ | _
  · rcases t with key | ⟨key, payload⟩ | payload | e
    · refine .inl ?_
      rw [Callback.advance]
      rcases hget : s.redis.get s.now key with _ | payload
      · exact ⟨rfl, rfl, fun _ _ h => by simp at h⟩
      · refine ⟨rfl, rfl, ?_⟩
        rintro _ _ ⟨⟩ hnone
        rw [Store.get, Store.entryAt, hnone] at hget
        exact absurd hget (by simp)
    · exact .inr ⟨key, payload, rfl, rfl, rfl⟩
    · exact .inl ⟨rfl, rfl, fun _ _ h => by simp [Callback.advance] at h⟩
    · exact .inl ⟨rfl, rfl, fun _ _ h => by simp [Callback.advance] at h⟩
  · rcases t with key | ⟨key, payload⟩ | payload | e
    · exact .inl ⟨rfl, rfl, fun _ _ h => by simp [Callback.advance] at h⟩
    · exact .inl ⟨rfl, rfl, fun _ _ h => by simp [Callback.advance] at h⟩
    · exact .inl ⟨rfl, rfl, fun _ _ h => by simp [Callback.advance] at h⟩
    · exact .inl ⟨rfl, rfl, fun _ _ h => by simp [Callback.advance] at h⟩

theorem Sound.delete (h : Sound passed s) (hkey : key ∈ s.issued) :
    Sound (passed ++ [key]) { s with redis := s.redis.delete key } := by
  have hnone : ∀ key', (s.redis.delete key).entry key' ≠ none → s.redis.entry key' ≠ none := by
    intro key' hentry
    by_cases heq : key' = key
    · rw [heq, Store.delete, Store.put_self] at hentry
      exact absurd rfl hentry
    · rwa [Store.delete, Store.put_of_ne heq] at hentry
  refine ⟨h.issued, fun key' hentry => h.entry key' (hnone key' hentry), ?_, ?_⟩
  · intro key' hmem
    rcases List.mem_append.mp hmem with hold | hnew
    · exact h.passed_issued key' hold
    · rwa [List.mem_singleton.mp hnew]
  · intro key' hmem
    by_contra hentry
    rcases List.mem_append.mp hmem with hold | hnew
    · exact hnone key' hentry (h.passed_deleted key' hold)
    · rw [List.mem_singleton.mp hnew] at hentry
      exact hentry (Store.put_self _ _ _)

theorem Assertion.delete {t : Callback Data} (h : Assertion passed s t) :
    Assertion (passed ++ [key]) { s with redis := s.redis.delete key } t := by
  refine h.mono (fun _ hmem => hmem) (fun _ hmem => List.mem_append_left _ hmem) ?_
  intro key' _ hnone
  by_cases heq : key' = key
  · exact .inr (List.mem_append_right _ (List.mem_singleton.mpr heq))
  · rw [Store.delete, Store.put_of_ne heq] at hnone
    exact .inl hnone

theorem Assertion.start (request : CallbackRequest) :
    Assertion passed s (.start request : Callback Data) := by
  rw [Callback.start]
  split <;> trivial

variable (Data) in
theorem outline : (callbacks Data).Outline (fun _ _ _ => True) Sound
    (fun log s _ t => Assertion log s t) where
  init := ⟨List.nodup_nil, fun _ h => absurd rfl h, fun _ h => absurd h List.not_mem_nil,
    fun _ h => absurd h List.not_mem_nil⟩
  event {_ _ e} h _ := by
    rcases e with ⟨key, stateData⟩ | request | milliseconds
    · rw [callbacks, List.append_nil]
      exact (h.shared.store stateData).1
    · rw [callbacks, List.append_nil]
      exact h.shared
    · rw [callbacks, List.append_nil]
      exact ⟨h.shared.issued, h.shared.entry, h.shared.passed_issued, h.shared.passed_deleted⟩
  started {_ _ e} h _ k t ht := by
    rcases e with ⟨key, stateData⟩ | request | milliseconds
    · exact absurd (List.mem_of_getElem? ht) List.not_mem_nil
    · have hstart : t = .start request := List.mem_singleton.mp (List.mem_of_getElem? ht)
      rw [hstart]
      exact Assertion.start request
    · exact absurd (List.mem_of_getElem? ht) List.not_mem_nil
  undisturbed {_ _ e} h _ i t hi := by
    rcases e with ⟨key, stateData⟩ | request | milliseconds
    · rw [callbacks, List.append_nil]
      have hstore := (@Sound.store _ _ _ key h.shared stateData).2
      refine (h.task i t hi).mono (fun key' hkey' => (hstore key' hkey').1) (fun _ hmem => hmem) ?_
      intro key' hkey' hnone
      exact .inl ((hstore key' hkey').2.symm.trans hnone)
    · rw [callbacks, List.append_nil]
      exact h.task i t hi
    · rw [callbacks, List.append_nil]
      exact (h.task i t hi).mono (fun _ hmem => hmem) (fun _ hmem => hmem)
        fun _ _ hnone => .inl hnone
  resumed {_ p _ answer t} h _ hi := by
    rcases advance_cases p.shared answer t with
      ⟨hsame, hobs, hdeleting⟩ | ⟨key, payload, rfl, rfl, hpass⟩
    · change Sound (_ ++ (t.advance p.shared answer).2.2) (t.advance p.shared answer).1 ∧
        Assertion (_ ++ (t.advance p.shared answer).2.2) (t.advance p.shared answer).1
          (t.advance p.shared answer).2.1
      rw [hobs, hsame, List.append_nil]
      refine ⟨h.shared, ?_⟩
      rcases ht : (t.advance p.shared answer).2.1 with key | ⟨key, payload⟩ | payload | e
      · trivial
      · have hentry := hdeleting key payload ht
        exact ⟨h.shared.entry key hentry, fun hnone => absurd hnone hentry⟩
      · trivial
      · trivial
    · -- the callback passes, and its state is deleted with that
      exact ⟨h.shared.delete (h.task _ _ hi).1, trivial⟩
  interferes {_ p _ answer t} h _ hi j other hj _ := by
    rcases advance_cases p.shared answer t with
      ⟨hsame, hobs, -⟩ | ⟨key, payload, rfl, rfl, hpass⟩
    · change Assertion (_ ++ (t.advance p.shared answer).2.2) (t.advance p.shared answer).1 other
      rw [hobs, hsame, List.append_nil]
      exact h.task j other hj
    · exact (h.task j other hj).delete

/-- A callback is the first to pass with its state exactly if it finds the state undeleted. -/
theorem passesFirst_iff {past : List (Turn (Event Data) Outcome)}
    {p : Pool (Shared Data) (Callback Data)}
    (h : Tasks.Holds Sound (fun log s _ t => Assertion log s t)
      ((callbacks Data).system.log past) p) (l : Turn (Event Data) Outcome) :
    PassesFirst past p l ↔ Undeleted past p l := by
  have hsilent (hobs : ((callbacks Data).step p l).2 = []) : PassesFirst past p l := by
    intro key hmem
    rw [hobs] at hmem
    exact absurd hmem List.not_mem_nil
  rcases l with e | ⟨i, answer⟩
  · exact iff_of_true (hsilent (by rcases e with _ | _ | _ <;> rfl)) trivial
  · rcases hi : p.tasks[i]? with _ | t
    · refine iff_of_true (hsilent (by rw [Tasks.step_resumed_none hi])) ?_
      cases answer
      · rw [Undeleted, hi]
        trivial
      · trivial
    · have hstep : ((callbacks Data).step p (.resumed i answer)).2 =
          (t.advance p.shared answer).2.2 := by
        rw [Tasks.step_resumed hi]
        rfl
      rcases advance_cases p.shared answer t with
        ⟨-, hobs, -⟩ | ⟨key, payload, rfl, rfl, hpass⟩
      · refine iff_of_true (hsilent (hstep.trans hobs)) ?_
        cases answer with
        | raised => trivial
        | executed =>
          rw [Undeleted, hi]
          rcases t with key | ⟨key, payload⟩ | payload | e
          · trivial
          · exact absurd hobs (List.cons_ne_nil _ _)
          · trivial
          · trivial
      · obtain ⟨hissued, hdeleted⟩ := h.task i _ hi
        rw [Undeleted, hi]
        constructor
        · intro hfirst hnone
          have hnew := hfirst key (by rw [hstep, hpass]; exact List.mem_cons_self)
          exact hnew (List.mem_map_of_mem (hdeleted hnone))
        · intro hentry key' hmem hold
          rw [hstep, hpass] at hmem
          obtain rfl : key' = key := List.mem_singleton.mp hmem
          obtain ⟨key, hkey, hnonce⟩ := List.mem_map.mp hold
          have heq : key = key' :=
            h.shared.eq_of_nonce (h.shared.passed_issued key hkey) hissued hnonce
          exact hentry (heq ▸ h.shared.passed_deleted key hkey)

theorem passed_step (p : Pool (Shared Data) (Callback Data)) (l : Turn (Event Data) Outcome) :
    ((callbacks Data).step p l).2 = [] ∨ ∃ key, ((callbacks Data).step p l).2 = [key] := by
  rcases l with e | ⟨i, answer⟩
  · exact .inl (by rcases e with _ | _ | _ <;> rfl)
  · rcases hi : p.tasks[i]? with _ | t
    · exact .inl (by rw [Tasks.step_resumed_none hi])
    · rw [Tasks.step_resumed hi]
      rcases advance_cases p.shared answer t with ⟨-, hobs, -⟩ | ⟨key, _, -, -, hpass⟩
      · exact .inl hobs
      · exact .inr ⟨key, congrArg (·.2.2) hpass⟩

/-- A run uses every state once exactly if each of its passes is the first one. -/
theorem singleUse_iff_along (ls : List (Turn (Event Data) Outcome)) :
    SingleUse ((callbacks Data).system.log ls) ↔
      (callbacks Data).system.Along PassesFirst ls := by
  induction ls using List.reverseRecOn with
  | nil => exact iff_of_true List.nodup_nil (System.along_nil _ _)
  | append_singleton ls l ih =>
    rw [System.along_snoc, System.log_snoc, ← ih, PassesFirst, Tasks.system_step]
    rcases passed_step ((callbacks Data).system.after ls) l with hobs | ⟨key, hobs⟩
    · rw [hobs, List.append_nil]
      exact (and_iff_left fun _ h => absurd h List.not_mem_nil).symm
    · rw [hobs, SingleUse, List.map_append, List.nodup_append_comm, List.map_singleton,
        List.singleton_append, List.nodup_cons, and_comm]
      refine and_congr_right fun _ => ⟨fun hnew key' hmem => ?_, fun h => h key List.mem_cons_self⟩
      rwa [List.mem_singleton.mp hmem]

/-- **States are used once.** In a run no two callbacks that present the same state pass exactly if
each callback that executes its `DEL` finds that no other one has deleted the state. -/
theorem singleUse_iff (ls : List (Turn (Event Data) Outcome)) :
    SingleUse ((callbacks Data).system.log ls) ↔
      (callbacks Data).system.Along Undeleted ls := by
  rw [singleUse_iff_along]
  refine System.along_congr _ fun past l => passesFirst_iff ?_ l
  exact (outline Data).holds (System.along_of_forall _ (fun _ _ => trivial) past)

end System

/-- Two callbacks read a state before either of them deletes it, and both pass. -/
theorem not_singleUse :
    ¬ SingleUse ((callbacks Unit).system.log
      [.event (.authorized ⟨.google, "n"⟩ ()),
        .event (.callback { provider := .google, state := some "n", cookie := some "n" }),
        .event (.callback { provider := .google, state := some "n", cookie := some "n" }),
        .resumed 0 .executed, .resumed 1 .executed, .resumed 0 .executed,
        .resumed 1 .executed]) := by
  decide

end Rapidly.Identity.OAuthState
