import Rapidly.FileSharing.Payments.Repository
import Rapidly.KeyValue.Hash
import Rapidly.Transition.Tasks

/-!
# The index of paid items

`create_secret` and `create_file` store an item, each kind under its own prefix, and put a paid
item of a workspace into the workspace's index, a hash with a time to live of its own.
`list_paid_secrets` reads the hash, asks which of its items still exist, and removes the others
from the hash.

Each command, pipeline or transaction is a step, so that any number of calls interleave as they
like; an exception may end a call in front of any of its commands. An item is stored by the same
step that draws its identifier, since nothing is awaited in between; what `increment_created_count`
does before the item is indexed does not concern the index.
-/

namespace Rapidly.FileSharing.Payments.PaidIndex

open KeyValue Transition

/-- An entry of the index. Times are in milliseconds. -/
structure PaidSecretEntry where
  id : String
  uuid : String
  title : Option String
  priceCents : Option ℤ
  currency : String
  createdAt : ℕ
  expiresAt : ℕ
deriving DecidableEq

/-- Redis, as far as the index is concerned. -/
structure State where
  /-- The time, in milliseconds. -/
  now : ℕ := 0
  /-- `file-sharing:secret:{item_id}` and `file-sharing:file:{item_id}` -/
  items : Store (Kind × String) SecretData := Store.empty
  /-- `file-sharing:paid-secrets:{workspace_id}` -/
  index : Store String (List (String × PaidSecretEntry)) := Store.empty
  /-- The identifiers that `uuid4` has drawn. -/
  uuids : List String := []

/-- A call at its next command. -/
inductive Call where
  /-- The `TTL` of `index_paid_secret`. -/
  | readingTtl (kind : Kind) (workspaceId : String) (itemId : String) (secret : SecretData)
    (expiration : ℕ)
  /-- The transaction of `index_paid_secret`. -/
  | indexing (kind : Kind) (workspaceId : String) (entry : PaidSecretEntry) (expiration : ℕ)
    (currentTtl : ℤ)
  /-- The `HGETALL` of `list_paid_secrets`. -/
  | gettingAll (workspaceId : String)
  /-- The `EXISTS` pipeline of `list_paid_secrets`. -/
  | checking (workspaceId : String) (entries : List (String × PaidSecretEntry))
  /-- The `HDEL` of `list_paid_secrets`. -/
  | pruning (workspaceId : String) (result : List PaidSecretEntry) (staleKeys : List String)
  | finished
deriving DecidableEq

inductive Event where
  /-- `create_secret` or `create_file` stores an item, under an identifier that was not drawn
  before. The request schema asks for an expiration of at least a minute. -/
  | create (kind : Kind) (itemId : String) (expiration : ℕ) (secret : SecretData)
  /-- `_fetch`: an item is consumed. -/
  | fetch (kind : Kind) (itemId : String)
  /-- `list_paid_secrets` is called. -/
  | listPaidSecrets (workspaceId : String)
  | elapse (milliseconds : ℕ)
deriving DecidableEq

inductive Output where
  /-- The item has been put into the index of the workspace. -/
  | indexed (workspaceId : String) (kind : Kind) (itemId : String)
  /-- `list_paid_secrets` has been called: this is the call with the number `i`. -/
  | asked (i : ℕ)
  /-- Call `i` removes items from the index. -/
  | pruned (i : ℕ) (staleKeys : List String)
  /-- Call `i` returns the listing of a workspace. -/
  | listed (i : ℕ) (workspaceId : String) (result : List PaidSecretEntry)
deriving DecidableEq

/-- The workspace whose index a new item goes into:
`price_cents and price_cents > 0 and workspace_id`. -/
def storefront (secret : SecretData) : Option String :=
  if secret.isPaid then truthy secret.workspaceId else none

/-- An event, with the number of calls so far. -/
def arrive (s : State) (i : ℕ) : Event → State × List Call × List Output
  | .create kind itemId expiration secret =>
    if itemId ∈ s.uuids then (s, [], [])
    else
      ({ s with
          items := s.items.setex s.now (kind, itemId) expiration secret
          uuids := itemId :: s.uuids },
        (storefront secret).toList.map fun workspaceId =>
          .readingTtl kind workspaceId itemId secret expiration, [])
  | .fetch kind itemId => ({ s with items := s.items.delete (kind, itemId) }, [], [])
  | .listPaidSecrets workspaceId => (s, [.gettingAll workspaceId], [.asked i])
  | .elapse milliseconds => ({ s with now := s.now + milliseconds }, [], [])

/-- The entry that `index_paid_secret` makes. -/
def newEntry (now : ℕ) (itemId : String) (secret : SecretData) (expiration : ℕ) :
    PaidSecretEntry where
  id := itemId
  uuid := itemId
  title := secret.title
  priceCents := secret.priceCents
  currency := secret.currency
  createdAt := now
  expiresAt := now + 1000 * expiration

/-- `HSET`, and `EXPIRE` if the index would not have lived long enough. -/
def State.storeEntry (s : State) (workspaceId : String) (entry : PaidSecretEntry)
    (expiration : ℕ) (currentTtl : ℤ) : State :=
  let stored := s.index.hset s.now workspaceId entry.id entry
  { s with
    index := if currentTtl < expiration then stored.expire s.now workspaceId expiration
      else stored }

/-- The next command of call `i`. -/
def execute (s : State) (i : ℕ) : Call → State × Call × List Output
  | .readingTtl kind workspaceId itemId secret expiration =>
    (s, .indexing kind workspaceId (newEntry s.now itemId secret expiration) expiration
      (s.index.ttl s.now workspaceId), [])
  | .indexing kind workspaceId entry expiration currentTtl =>
    (s.storeEntry workspaceId entry expiration currentTtl, .finished,
      [.indexed workspaceId kind entry.id])
  | .gettingAll workspaceId =>
    let entries := s.index.fields s.now workspaceId
    if entries.isEmpty then (s, .finished, [.listed i workspaceId []])
    else (s, .checking workspaceId entries, [])
  | .checking workspaceId entries =>
    let there := fun e : String × PaidSecretEntry => (s.items.get s.now (.secret, e.1)).isSome
    let result := (entries.filter there).map Prod.snd
    let staleKeys := (entries.filter fun e => !there e).map Prod.fst
    if staleKeys.isEmpty then (s, .finished, [.listed i workspaceId result])
    else (s, .pruning workspaceId result staleKeys, [])
  | .pruning workspaceId result staleKeys =>
    ({ s with index := s.index.hdelAll s.now workspaceId staleKeys }, .finished,
      [.pruned i staleKeys, .listed i workspaceId result])
  | .finished => (s, .finished, [])

/-- One step of a call; an exception ends it. -/
def advance (s : State) (i : ℕ) (outcome : Outcome) (call : Call) : State × Call × List Output :=
  match outcome with
  | .executed => execute s i call
  | .raised => (s, .finished, [])

/-- The calls and the stores they share. -/
def calls : Tasks State Call Event Outcome Output where
  init := {}
  arrive := arrive
  advance := advance

end Rapidly.FileSharing.Payments.PaidIndex
