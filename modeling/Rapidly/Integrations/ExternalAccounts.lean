import Mathlib.Data.Rat.Defs
import Rapidly.Fallible.Except
import Rapidly.Relational.Table
import Rapidly.Transition.System

/-!
# External accounts

`get_updated_or_create` and `link_user` of `integrations/google/actions.py`,
`integrations/microsoft/actions.py` and `integrations/apple/actions.py`, with the callbacks that
call them. The three resolve an account in the same way and obtain the profile in three ways.

* `requests` is the system, for any sequence of sign-ins and link requests and any answers of the
  providers.
* `attached_with_proof` says what an account that is attached to an existing user needs, and that
  an attached account stays where it is.
-/

namespace Rapidly.Integrations

open Relational Transition

namespace ExternalAccounts

/-- `OAuthPlatform`. -/
inductive OAuthPlatform where
  | microsoft
  | google
  | apple
deriving DecidableEq

/-- A JSON value as Python reads it; of an array or an object only its truth matters. -/
inductive Value where
  | null
  | bool (b : Bool)
  | number (q : ℚ)
  | string (s : String)
  | other (truthy : Bool)
deriving DecidableEq

/-- `bool(value)`. -/
def Value.truthy : Value → Bool
  | .null => false
  | .bool b => b
  | .number q => q ≠ 0
  | .string s => s ≠ ""
  | .other truthy => truthy

/-- The fields of the answer that has the profile: of the user info, of Microsoft Graph, or of the
identity token. -/
abbrev Fields := List (String × Value)

/-- The answer of a provider, `none` where the request fails or the token is not accepted. -/
abbrev Answer := Option Fields

/-- `OAuth2Token`. -/
structure Token where
  accessToken : String
  expiresAt : Option ℤ
deriving DecidableEq

/-- `GoogleUserProfile`, `MicrosoftUserProfile` and `AppleUserProfile`. `username` is what the
account is called: the display name at Microsoft, the email elsewhere. -/
structure Profile where
  id : Value
  email : Value
  emailVerified : Value
  username : Value
  picture : Value
deriving DecidableEq

structure OAuthAccount where
  platform : OAuthPlatform
  accountId : String
  userId : ℕ
  accountEmail : String
  accountUsername : Option String
  accessToken : String
  expiresAt : Option ℤ
deriving DecidableEq

/-- The unique columns of an account. -/
def OAuthAccount.key (account : OAuthAccount) : OAuthPlatform × String :=
  (account.platform, account.accountId)

/-- The columns that a sign-in renews. -/
def OAuthAccount.renew (account : OAuthAccount) (token : Token) (username : Option String) :
    OAuthAccount :=
  { account with
    accessToken := token.accessToken
    expiresAt := token.expiresAt
    accountUsername := username }

abbrev SignupAttribution := List (String × String)

/-- A user; its number is its place in the table. -/
structure User where
  email : String
  emailVerified : Bool := false
  avatarUrl : Option String := none
  signupAttribution : Option SignupAttribution := none
  /-- `deleted_at` and `blocked_at` are not null. -/
  isDeleted : Bool := false
  isBlocked : Bool := false
deriving DecidableEq

structure Store where
  users : List User
  accounts : Table OAuthAccount.key

/-- `lower` of the database and of Python. -/
structure Env where
  lower : String → String
  pyLower : String → String

inductive Failure where
  | noEmail
  | cannotLinkUnverifiedEmail (email : String)
  | accountLinkedToAnotherUser
  /-- The callback refuses the request. -/
  | notPermitted
  | invalidUserForLinking
  | multipleResultsFound
  /-- An exception that is not handled: of a missing field, of a value of another type, of a
  constraint. -/
  | raised
deriving DecidableEq

def OAuthPlatform.name : OAuthPlatform → String
  | .microsoft => "Microsoft"
  | .google => "Google"
  | .apple => "Apple"

/-- The messages of `NoEmailError`, `CannotLinkUnverifiedEmailError` and
`AccountLinkedToAnotherUserError`, and of the callback. -/
def Failure.message (platform : OAuthPlatform) : Failure → Option String
  | .noEmail =>
    some <| "Your Microsoft account does not have an email address. " ++
      "Please add an email to your Microsoft account and try again."
  | .cannotLinkUnverifiedEmail email =>
    some <| "An account already exists on Rapidly under the email " ++ email ++ ". " ++
      "We cannot automatically link it to your " ++ platform.name ++ " account since " ++
      "this email address is not verified on " ++ platform.name ++ ". " ++
      "Either verify your email address on " ++ platform.name ++ " and try again " ++
      "or sign in using your email."
  | .accountLinkedToAnotherUser =>
    some <| "This " ++ platform.name ++ " account is already linked to another user on Rapidly. " ++
      "You may have already created another account with a different email address."
  | .invalidUserForLinking => some "Invalid user for linking"
  | _ => none

/-! ### Profiles -/

/-- `data[name]`. -/
def Fields.item (fields : Fields) (name : String) : Except Failure Value :=
  match fields.lookup name with
  | some value => .ok value
  | none => .error .raised

/-- `data.get(name)`. -/
def Fields.getItem (fields : Fields) (name : String) : Value := (fields.lookup name).getD .null

/-- A value that a column for text takes, which may be null or not. -/
def Value.text : Value → Except Failure String
  | .string s => .ok s
  | _ => .error .raised

def Value.nullableText : Value → Except Failure (Option String)
  | .null => .ok none
  | .string s => .ok (some s)
  | _ => .error .raised

/-- A value that a Boolean column takes. -/
def Value.boolean : Value → Except Failure Bool
  | .bool b => .ok b
  | .number q => if q = 0 then .ok false else if q = 1 then .ok true else .error .raised
  | _ => .error .raised

/-- `data.get("mail") or data.get("userPrincipalName") or ""`. -/
def microsoftEmail (fields : Fields) : Value :=
  if (fields.getItem "mail").truthy then fields.getItem "mail"
  else if (fields.getItem "userPrincipalName").truthy then fields.getItem "userPrincipalName"
  else .string ""

/-- `_get_profile` of Microsoft. -/
def getMicrosoftProfile (fields : Fields) : Except Failure Profile := do
  let email := microsoftEmail fields
  if email.truthy = false then
    throw .noEmail
  let id ← fields.item "id"
  return {
    id
    email
    -- registration at Microsoft is taken to verify the address
    emailVerified := .bool true
    username := fields.getItem "displayName"
    picture := .null
  }

/-- `_get_profile` of Google. -/
def getGoogleProfile (fields : Fields) : Except Failure Profile := do
  let id ← fields.item "sub"
  let email ← fields.item "email"
  let emailVerified ← fields.item "email_verified"
  return { id, email, emailVerified, username := email, picture := fields.getItem "picture" }

/-- `_decode_profile` of Apple. -/
def decodeAppleProfile (fields : Fields) : Except Failure Profile := do
  let id ← fields.item "sub"
  let email ← fields.item "email"
  let emailVerified ← fields.item "email_verified"
  return { id, email, emailVerified, username := email, picture := .null }

def getProfile (platform : OAuthPlatform) (answer : Answer) : Except Failure Profile :=
  match answer with
  | none => .error .raised
  | some fields =>
    match platform with
    | .microsoft => getMicrosoftProfile fields
    | .google => getGoogleProfile fields
    | .apple => decodeAppleProfile fields

/-! ### Account resolution -/

namespace Store

variable (env : Env) (s : Store)

/-- A user that a query finds. -/
def active (user : ℕ) : Bool := (s.users[user]?).any fun u => !u.isDeleted && !u.isBlocked

/-- `get_by_oauth_account`. -/
def getByOAuthAccount (platform : OAuthPlatform) (accountId : String) : Option ℕ :=
  ((s.accounts.get (platform, accountId)).map OAuthAccount.userId).filter s.active

/-- `get_by_email`. -/
def getByEmail (email : String) : Except Failure (Option ℕ) :=
  match (s.users.zipIdx.filter fun (u, user) =>
    env.lower u.email = env.pyLower email ∧ s.active user).map Prod.snd with
  | [] => .ok none
  | [user] => .ok (some user)
  | _ => .error .multipleResultsFound

/-- `User.get_oauth_account`. -/
def getOAuthAccount (user : ℕ) (platform : OAuthPlatform) : Option OAuthAccount :=
  s.accounts.rows.find? fun a => a.userId = user ∧ a.platform = platform

/-- The tokens and the name of an account are written. -/
def update (account : OAuthAccount) (token : Token) (username : Option String) : Store :=
  { s with
    accounts := s.accounts.modify (fun a => a.key = account.key) (·.renew token username)
      fun _ => rfl }

/-- The account is inserted, under the unique constraint. -/
def attach (account : OAuthAccount) : Except Failure Store :=
  if h : account.key ∈ s.accounts.rows.map OAuthAccount.key then .error .raised
  else .ok { s with accounts := s.accounts.add account h }

/-- The user is inserted, under the unique index on the lower-cased address. -/
def create (user : User) : Except Failure Store :=
  if ∃ u ∈ s.users, env.lower u.email = env.lower user.email then .error .raised
  else .ok { s with users := s.users ++ [user] }

def newAccount (platform : OAuthPlatform) (accountId : String) (user : ℕ) (email : String)
    (username : Option String) (token : Token) : OAuthAccount where
  platform := platform
  accountId := accountId
  userId := user
  accountEmail := email
  accountUsername := username
  accessToken := token.accessToken
  expiresAt := token.expiresAt

/-- `get_updated_or_create`: the user, and whether it is a new one. -/
def getUpdatedOrCreate (platform : OAuthPlatform) (token : Token) (answer : Answer)
    (signupAttribution : Option SignupAttribution) : Except Failure (Store × ℕ × Bool) := do
  let profile ← getProfile platform answer
  let accountId ← profile.id.text
  match s.getByOAuthAccount platform accountId with
  | some user =>
    match s.getOAuthAccount user platform with
    | none => throw .raised
    | some account =>
      let username ← profile.username.nullableText
      return (s.update account token username, user, false)
  | none =>
    let email ← profile.email.text
    match ← s.getByEmail env email with
    | some user =>
      if profile.emailVerified.truthy = false then
        throw (.cannotLinkUnverifiedEmail email)
      let username ← profile.username.nullableText
      return (← s.attach (newAccount platform accountId user email username token), user, false)
    | none =>
      let emailVerified ← profile.emailVerified.boolean
      let avatarUrl ← profile.picture.nullableText
      let username ← profile.username.nullableText
      let created ← s.create env { email, emailVerified, avatarUrl, signupAttribution }
      let user := s.users.length
      let account := newAccount platform accountId user email username token
      return (← created.attach account, user, true)

/-- `link_user`. -/
def linkUser (platform : OAuthPlatform) (user : ℕ) (token : Token) (answer : Answer) :
    Except Failure Store := do
  let profile ← getProfile platform answer
  let accountId ← profile.id.text
  match s.accounts.get (platform, accountId) with
  | some account =>
    if account.userId ≠ user then
      throw .accountLinkedToAnotherUser
    let username ← profile.username.nullableText
    return s.update account token username
  | none =>
    let email ← profile.email.text
    let username ← profile.username.nullableText
    s.attach (newAccount platform accountId user email username token)

end Store

/-- A callback, with the user who is signed in. -/
inductive Request where
  | login (principal : Option ℕ) (platform : OAuthPlatform) (token : Token) (answer : Answer)
    (signupAttribution : Option SignupAttribution)
  /-- The state that the link request was begun with has the user who asked for it. No route calls
  the `link_user` of Apple. -/
  | link (principal : ℕ) (stateUserId : Option ℕ) (platform : OAuthPlatform) (token : Token)
    (answer : Answer)
deriving DecidableEq

/-- `login_callback` and `apple_callback`, and `link_callback`. -/
def Store.handle (env : Env) (s : Store) : Request → Except Failure Store
  | .login (some _) .apple _ _ _ => .error .notPermitted
  | .login (some _) _ _ _ _ => .ok s
  | .login none platform token answer signupAttribution =>
    Prod.fst <$> s.getUpdatedOrCreate env platform token answer signupAttribution
  | .link principal stateUserId platform token answer =>
    if stateUserId = some principal then s.linkUser platform principal token answer
    else .error .invalidUserForLinking

/-- The requests, one after the other: one that fails is rolled back. -/
def requests (env : Env) (start : Store) : System Store Request (Option Failure) where
  init := start
  step s request :=
    match s.handle env request with
    | .ok s' => (s', [none])
    | .error failure => (s, [some failure])

/-! ### Proof -/

/-- The address of the answer is that of the user, up to the case of letters. -/
def SameAddress (env : Env) (s : Store) (user : ℕ) (email : String) : Prop :=
  ∃ u ∈ s.users[user]?, env.lower u.email = env.pyLower email

/-- The answer says itself that the address of the user is verified. -/
def Asserts (env : Env) (s : Store) (user : ℕ) (_ : OAuthPlatform) (fields : Fields) : Prop :=
  ∃ email, fields.lookup "email" = some (.string email) ∧ SameAddress env s user email ∧
    (fields.lookup "email_verified" = some (.bool true) ∨
      fields.lookup "email_verified" = some (.string "true"))

/-- What a platform vouches for. The answers of Google and Apple have the address, and do not say
that it is not verified; of Microsoft every address that is the `mail` or, without one, the
`userPrincipalName` of the account is accepted. -/
def VouchesFor (env : Env) (s : Store) (user : ℕ) : OAuthPlatform → Fields → Prop
  | .microsoft, fields =>
    ∃ email, microsoftEmail fields = .string email ∧ SameAddress env s user email
  | _, fields =>
    ∃ email v, fields.lookup "email" = some (.string email) ∧ SameAddress env s user email ∧
      fields.lookup "email_verified" = some v ∧ v ≠ .bool false ∧ v ≠ .null

section

variable (env : Env) (vouches : Env → Store → ℕ → OAuthPlatform → Fields → Prop)

/-- The user is signed in and has asked for the link, or the provider vouches for the address. -/
def Proven (s : Store) (user : ℕ) : Request → Prop
  | .login _ platform _ answer _ => ∃ fields ∈ answer, vouches env s user platform fields
  | .link principal stateUserId _ _ _ => principal = user ∧ stateUserId = some user

/-- An account that a step attaches to an existing user is attached with proof, and one that is
attached stays with its user. -/
structure AttachesWithProof (start : Store) (_ : List Request) (s : Store) (request : Request) :
    Prop where
  proven : ∀ a ∈ ((requests env start).step s request).1.accounts,
    (∀ b ∈ s.accounts, b.key ≠ a.key) → a.userId < s.users.length →
    Proven env vouches s a.userId request
  stays : ∀ b ∈ s.accounts, ∃ a ∈ ((requests env start).step s request).1.accounts,
    a.key = b.key ∧ a.userId = b.userId

end

variable {env : Env} {s s' : Store}

/-- What a request that succeeds has done. -/
inductive Handled (env : Env) (s : Store) : Request → Store → Prop
  | nothing (request : Request) : Handled env s request s
  | updated (request : Request) (account : OAuthAccount) (token : Token)
    (username : Option String) : Handled env s request (s.update account token username)
  | attached (request : Request) (account : OAuthAccount)
    (hnew : account.key ∉ s.accounts.rows.map OAuthAccount.key)
    (hproven : Proven env VouchesFor s account.userId request) :
    Handled env s request { s with accounts := s.accounts.add account hnew }
  | created (request : Request) (user : User) (account : OAuthAccount)
    (hnew : account.key ∉ s.accounts.rows.map OAuthAccount.key)
    (huser : account.userId = s.users.length) :
    Handled env s request
      { users := s.users ++ [user], accounts := s.accounts.add account hnew }

theorem Store.attach_eq_ok {account : OAuthAccount} (h : s.attach account = .ok s') :
    ∃ hnew : account.key ∉ s.accounts.rows.map OAuthAccount.key,
      s' = { s with accounts := s.accounts.add account hnew } := by
  unfold Store.attach at h
  split at h
  · exact absurd h (by simp)
  next hnew => exact ⟨hnew, (Except.ok.inj h).symm⟩

theorem Store.create_eq_ok {user : User} (h : s.create env user = .ok s') :
    s' = { s with users := s.users ++ [user] } := by
  unfold Store.create at h
  split at h
  · exact absurd h (by simp)
  · exact (Except.ok.inj h).symm

theorem Value.text_eq_ok {v : Value} {text : String} (h : v.text = .ok text) :
    v = .string text := by
  cases v <;> simp_all [Value.text]

theorem Fields.item_eq_ok {fields : Fields} {name : String} {v : Value}
    (h : fields.item name = .ok v) : fields.lookup name = some v := by
  unfold Fields.item at h
  split at h
  next hlookup => rw [hlookup, Except.ok.inj h]
  · exact absurd h (by simp)

variable {user : ℕ} {platform : OAuthPlatform} {answer : Answer} {token : Token}

theorem Store.getByEmail_eq_some {email : String}
    (h : s.getByEmail env email = .ok (some user)) : SameAddress env s user email := by
  unfold Store.getByEmail at h
  split at h
  · exact absurd h (by simp)
  next user' hfound =>
    obtain rfl := Option.some.inj (Except.ok.inj h)
    have hmem : user' ∈ (s.users.zipIdx.filter fun (u, user) =>
        env.lower u.email = env.pyLower email ∧ s.active user).map Prod.snd := by
      rw [hfound]
      exact List.mem_singleton_self _
    obtain ⟨⟨u, k⟩, hu, rfl⟩ := List.mem_map.mp hmem
    obtain ⟨hu, hfilter⟩ := List.mem_filter.mp hu
    have hsame := of_decide_eq_true hfilter
    exact ⟨u, List.mem_zipIdx_iff_getElem?.mp hu, hsame.1⟩
  · exact absurd h (by simp)

/-- A profile whose address counts as verified is one that the platform vouches for. -/
theorem vouchesFor_of_profile {profile : Profile} {email : String}
    (h : getProfile platform answer = .ok profile) (hemail : profile.email = .string email)
    (hverified : profile.emailVerified.truthy = true) (hsame : SameAddress env s user email) :
    ∃ fields ∈ answer, VouchesFor env s user platform fields := by
  unfold getProfile at h
  split at h
  · cases h
  next fields =>
  refine ⟨fields, rfl, ?_⟩
  have hnot : ∀ v : Value, v.truthy = true → v ≠ .bool false ∧ v ≠ .null := by
    intro v hv
    constructor <;> rintro rfl <;> exact absurd hv (by simp [Value.truthy])
  split at h
  next =>
    simp only [getMicrosoftProfile] at h
    split at h
    · cases h
    · obtain ⟨id, -, h⟩ := Fallible.bind_eq_ok.mp h
      obtain rfl := Except.ok.inj h
      exact ⟨email, hemail, hsame⟩
  next =>
    obtain ⟨id, -, h⟩ := Fallible.bind_eq_ok.mp h
    obtain ⟨email', hemail', h⟩ := Fallible.bind_eq_ok.mp h
    obtain ⟨v, hv, h⟩ := Fallible.bind_eq_ok.mp h
    obtain rfl := Except.ok.inj h
    obtain rfl : email' = .string email := hemail
    exact ⟨email, v, Fields.item_eq_ok hemail', hsame, Fields.item_eq_ok hv, hnot v hverified⟩
  next =>
    obtain ⟨id, -, h⟩ := Fallible.bind_eq_ok.mp h
    obtain ⟨email', hemail', h⟩ := Fallible.bind_eq_ok.mp h
    obtain ⟨v, hv, h⟩ := Fallible.bind_eq_ok.mp h
    obtain rfl := Except.ok.inj h
    obtain rfl : email' = .string email := hemail
    exact ⟨email, v, Fields.item_eq_ok hemail', hsame, Fields.item_eq_ok hv, hnot v hverified⟩

theorem Handled.of_getUpdatedOrCreate {principal : Option ℕ}
    {attribution : Option SignupAttribution} {r : Store × ℕ × Bool}
    (h : s.getUpdatedOrCreate env platform token answer attribution = .ok r) :
    Handled env s (.login principal platform token answer attribution) r.1 := by
  unfold Store.getUpdatedOrCreate at h
  obtain ⟨profile, hprofile, h⟩ := Fallible.bind_eq_ok.mp h
  obtain ⟨accountId, -, h⟩ := Fallible.bind_eq_ok.mp h
  split at h
  · split at h
    · cases h
    · obtain ⟨username, -, h⟩ := Fallible.bind_eq_ok.mp h
      obtain rfl := Except.ok.inj h
      exact .updated ..
  · obtain ⟨email, hemail, h⟩ := Fallible.bind_eq_ok.mp h
    obtain ⟨found, hfound, h⟩ := Fallible.bind_eq_ok.mp h
    split at h
    next user =>
      split at h
      · cases h
      next hverified =>
        obtain ⟨username, -, h⟩ := Fallible.bind_eq_ok.mp h
        obtain ⟨attached, hattached, h⟩ := Fallible.bind_eq_ok.mp h
        obtain rfl := Except.ok.inj h
        obtain ⟨hnew, rfl⟩ := Store.attach_eq_ok hattached
        exact .attached _ _ hnew (vouchesFor_of_profile hprofile (Value.text_eq_ok hemail)
          (by simpa using hverified) (Store.getByEmail_eq_some hfound))
    next =>
      obtain ⟨emailVerified, -, h⟩ := Fallible.bind_eq_ok.mp h
      obtain ⟨avatarUrl, -, h⟩ := Fallible.bind_eq_ok.mp h
      obtain ⟨username, -, h⟩ := Fallible.bind_eq_ok.mp h
      obtain ⟨created, hcreated, h⟩ := Fallible.bind_eq_ok.mp h
      obtain rfl := Store.create_eq_ok hcreated
      obtain ⟨attached, hattached, h⟩ := Fallible.bind_eq_ok.mp h
      obtain rfl := Except.ok.inj h
      obtain ⟨hnew, rfl⟩ := Store.attach_eq_ok hattached
      exact @Handled.created env s _ _ _ hnew rfl

theorem Handled.of_linkUser (h : s.linkUser platform user token answer = .ok s') :
    Handled env s (.link user (some user) platform token answer) s' := by
  unfold Store.linkUser at h
  obtain ⟨profile, -, h⟩ := Fallible.bind_eq_ok.mp h
  obtain ⟨accountId, -, h⟩ := Fallible.bind_eq_ok.mp h
  split at h
  · dsimp only at h
    split at h
    · cases h
    · obtain ⟨username, -, h⟩ := Fallible.bind_eq_ok.mp h
      obtain rfl := Except.ok.inj h
      exact .updated ..
  · obtain ⟨email, -, h⟩ := Fallible.bind_eq_ok.mp h
    obtain ⟨username, -, h⟩ := Fallible.bind_eq_ok.mp h
    obtain ⟨hnew, rfl⟩ := Store.attach_eq_ok h
    exact .attached _ _ hnew ⟨rfl, rfl⟩

theorem Store.handled {request : Request} (h : s.handle env request = .ok s') :
    Handled env s request s' := by
  unfold Store.handle at h
  split at h
  · cases h
  · obtain rfl := Except.ok.inj h
    exact .nothing _
  · obtain ⟨r, hr, rfl⟩ := Fallible.map_eq_ok.mp h
    exact .of_getUpdatedOrCreate hr
  · split at h
    next hstate =>
      rw [hstate]
      exact .of_linkUser h
    · cases h

theorem Store.mem_update {account a : OAuthAccount} {username : Option String}
    (h : a ∈ (s.update account token username).accounts) :
    ∃ b ∈ s.accounts, a.key = b.key ∧ a.userId = b.userId := by
  obtain ⟨b, hb, rfl⟩ :=
    (Table.mem_modify (f := fun a : OAuthAccount => a.renew token username) fun _ => rfl).mp h
  refine ⟨b, hb, ?_⟩
  split <;> exact ⟨rfl, rfl⟩

theorem Handled.proven {request : Request} (h : Handled env s request s') {a : OAuthAccount}
    (ha : a ∈ s'.accounts) (hnew : ∀ b ∈ s.accounts, b.key ≠ a.key)
    (huser : a.userId < s.users.length) : Proven env VouchesFor s a.userId request := by
  cases h with
  | nothing => exact absurd rfl (hnew a ha)
  | updated =>
    obtain ⟨b, hb, hkey, -⟩ := Store.mem_update ha
    exact absurd hkey.symm (hnew b hb)
  | attached account hfree hproven =>
    rcases (Table.mem_add (h := hfree)).mp ha with rfl | hold
    · exact hproven
    · exact absurd rfl (hnew a hold)
  | created user account hfree hlast =>
    rcases (Table.mem_add (h := hfree)).mp ha with rfl | hold
    · omega
    · exact absurd rfl (hnew a hold)

theorem Handled.stays {request : Request} (h : Handled env s request s') {b : OAuthAccount}
    (hb : b ∈ s.accounts) : ∃ a ∈ s'.accounts, a.key = b.key ∧ a.userId = b.userId := by
  cases h with
  | nothing => exact ⟨b, hb, rfl, rfl⟩
  | updated account token username =>
    refine ⟨_, Table.mem_modify_of_mem hb
      (f := fun a : OAuthAccount => a.renew token username) fun _ => rfl, ?_⟩
    split <;> exact ⟨rfl, rfl⟩
  | attached _ hfree => exact ⟨b, (Table.mem_add (h := hfree)).mpr (.inr hb), rfl, rfl⟩
  | created _ _ hfree => exact ⟨b, (Table.mem_add (h := hfree)).mpr (.inr hb), rfl, rfl⟩

variable {start : Store} {request : Request} {ls ms : List Request}

theorem handled_step (start s : Store) (request : Request) :
    Handled env s request ((requests env start).step s request).1 := by
  simp only [requests]
  split
  next h => exact Store.handled h
  · exact .nothing _

theorem attachesWithProof (past : List Request) (s : Store) (request : Request) :
    AttachesWithProof env VouchesFor start past s request where
  proven _ ha hnew huser := (handled_step start s request).proven ha hnew huser
  stays _ hb := (handled_step start s request).stays hb

theorem stays_after {b : OAuthAccount} (ms : List Request)
    (hb : b ∈ ((requests env start).after ls).accounts) :
    ∃ a ∈ ((requests env start).after (ls ++ ms)).accounts,
      a.key = b.key ∧ a.userId = b.userId := by
  induction ms using List.reverseRecOn with
  | nil =>
    rw [List.append_nil]
    exact ⟨b, hb, rfl, rfl⟩
  | append_singleton ms request ih =>
    obtain ⟨a, ha, hkey, huser⟩ := ih
    rw [← List.append_assoc, System.after_snoc]
    obtain ⟨a', ha', hkey', huser'⟩ := (handled_step start _ request).stays ha
    exact ⟨a', ha', hkey'.trans hkey, huser'.trans huser⟩

/-- **External accounts attach with proof.** In every sequence of sign-ins and link requests, with
any answers of the providers and from any users and accounts, an account is attached to an existing
user only if that user is signed in and has asked for it, or the platform vouches for an address
that is the user's up to the case of letters; and an account that is attached to a user is attached
to no other later on. -/
theorem attached_with_proof {env : Env} {start : Store} {ls ms : List Request} :
    (requests env start).Along (AttachesWithProof env VouchesFor start) ls ∧
      ∀ b ∈ ((requests env start).after ls).accounts,
        ∀ a ∈ ((requests env start).after (ls ++ ms)).accounts,
          a.key = b.key → a.userId = b.userId := by
  refine ⟨System.along_of_forall _ (fun past request => attachesWithProof past _ request) ls,
    fun b hb a ha hkey => ?_⟩
  · obtain ⟨a', ha', hkey', huser⟩ := stays_after ms hb
    rwa [Table.eq_of_key_eq ha ha' (hkey.trans hkey'.symm)]

/-- A user, and a Microsoft account that has been given the user's address. -/
def registered : Store := { users := [{ email := "ann@example.com" }], accounts := .empty }

def claimed : Request :=
  .login none .microsoft ⟨"token", none⟩
    (some [("id", .string "m1"), ("mail", .string "ann@example.com")]) none

/-- The account is attached to the user although the answer says nothing of a verification. -/
theorem not_attachesWithProof :
    ¬(requests ⟨id, id⟩ registered).Along (AttachesWithProof ⟨id, id⟩ Asserts registered)
      [claimed] := by
  intro h
  have hproven := h.1.proven (Store.newAccount .microsoft "m1" 0 "ann@example.com" none
    ⟨"token", none⟩) (by decide) (by decide) (by decide)
  obtain ⟨fields, hfields, email, hemail, -⟩ := hproven
  obtain rfl := Option.some.inj hfields
  have hnone : List.lookup "email" [("id", Value.string "m1"),
      ("mail", Value.string "ann@example.com")] = none := by decide
  exact absurd (hnone.symm.trans hemail) (by simp)

end ExternalAccounts

end Rapidly.Integrations
