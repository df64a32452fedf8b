import Rapidly.Integrations.ExternalAccounts

/-!
# Tokens of providers

Where `get_updated_or_create` and `link_user` of the three providers store the token that a user
came with. A sign-in finds the user by the platform and the id of the account, and then looks the
account up a second time, by the platform alone: `User.get_oauth_account` takes the first account
of the platform in the order in which the rows are loaded. `link_user` writes to the account that
it has found.

* `landsOn_iff`: a token lands on its own account exactly if this account is loaded first, or if
  nothing would change on either of the two.
-/

namespace Rapidly.Integrations

open Relational

namespace ExternalAccounts

/-- The account that a provider answers for, and what it is called. -/
structure Subject (platform : OAuthPlatform) (answer : Answer) (accountId : String)
    (username : Option String) : Prop where
  profile : ∃ profile, getProfile platform answer = .ok profile ∧
    profile.id = .string accountId ∧ profile.username.nullableText = .ok username

/-- The token has been stored on the account with the key, and on no other. -/
structure LandsOn (s s' : Store) (key : OAuthPlatform × String) (token : Token)
    (username : Option String) : Prop where
  stored : ∃ a ∈ s'.accounts, a.key = key ∧ a.accessToken = token.accessToken ∧
    a.expiresAt = token.expiresAt ∧ a.accountUsername = username
  others : ∀ a, a.key ≠ key → (a ∈ s'.accounts ↔ a ∈ s.accounts)

/-- Of the accounts that its user has on the platform, the account is the first one that is
loaded; or the token is there already, on both accounts. -/
def LoadedFirst (s : Store) (key : OAuthPlatform × String) (token : Token)
    (username : Option String) : Prop :=
  ∀ account ∈ s.accounts, account.key = key → s.active account.userId →
    ∀ first, s.getOAuthAccount account.userId key.1 = some first → first = account ∨
      first.renew token username = first ∧ account.renew token username = account

variable {env : Env} {s s' : Store} {platform : OAuthPlatform} {accountId : String}
  {token : Token} {answer : Answer} {username : Option String}

theorem OAuthAccount.renew_eq_self_iff {a : OAuthAccount} : a.renew token username = a ↔
    a.accessToken = token.accessToken ∧ a.expiresAt = token.expiresAt ∧
      a.accountUsername = username := by
  cases a
  simp only [OAuthAccount.renew, OAuthAccount.mk.injEq, true_and]
  constructor
  · rintro ⟨rfl, rfl, rfl⟩
    exact ⟨rfl, rfl, rfl⟩
  · rintro ⟨rfl, rfl, rfl⟩
    exact ⟨rfl, rfl, rfl⟩

theorem mem_update {first a : OAuthAccount} : a ∈ (s.update first token username).accounts ↔
    a ∈ s.accounts ∧ a.key ≠ first.key ∨
      ∃ b ∈ s.accounts, b.key = first.key ∧ a = b.renew token username :=
  Table.mem_modify_key (f := fun b : OAuthAccount => b.renew token username) fun _ => rfl

theorem landsOn_add {users : List User} {user : ℕ} {email : String}
    {hnew : (Store.newAccount platform accountId user email username token).key ∉
      s.accounts.rows.map OAuthAccount.key} :
    LandsOn s ⟨users, s.accounts.add _ hnew⟩ (platform, accountId) token username where
  stored := ⟨_, (Table.mem_add (h := hnew)).mpr (.inl rfl), rfl, rfl, rfl, rfl⟩
  others a ha := by
    rw [Table.mem_add (h := hnew)]
    exact or_iff_right fun heq => ha (heq ▸ rfl)

theorem landsOn_update {account : OAuthAccount} (haccount : account ∈ s.accounts) :
    LandsOn s (s.update account token username) account.key token username where
  stored := ⟨account.renew token username, mem_update.mpr (.inr ⟨_, haccount, rfl, rfl⟩),
    rfl, rfl, rfl, rfl⟩
  others a ha := by
    rw [mem_update]
    refine ⟨fun h => h.elim And.left ?_, fun h => .inl ⟨h, ha⟩⟩
    rintro ⟨b, -, hb, rfl⟩
    exact absurd hb ha

theorem landsOn_update_iff {account first : OAuthAccount} (haccount : account ∈ s.accounts)
    (hfirst : first ∈ s.accounts) :
    LandsOn s (s.update first token username) account.key token username ↔
      first = account ∨
        first.renew token username = first ∧ account.renew token username = account := by
  by_cases hsame : first = account
  · subst hsame
    exact iff_of_true (landsOn_update hfirst) (.inl rfl)
  have hkey : first.key ≠ account.key := fun h => hsame (Table.eq_of_key_eq hfirst haccount h)
  rw [or_iff_right hsame]
  constructor
  · intro h
    constructor
    · have hmem := (h.others first hkey).mpr hfirst
      rcases mem_update.mp hmem with ⟨-, hne⟩ | ⟨b, hb, hbkey, heq⟩
      · exact absurd rfl hne
      · rw [Table.eq_of_key_eq hb hfirst hbkey] at heq
        exact heq.symm
    · obtain ⟨a, ha, hakey, hdata⟩ := h.stored
      rcases mem_update.mp ha with ⟨hmem, -⟩ | ⟨b, -, hbkey, rfl⟩
      · rw [Table.eq_of_key_eq hmem haccount hakey] at hdata
        exact OAuthAccount.renew_eq_self_iff.mpr hdata
      · exact absurd (hbkey.symm.trans hakey) hkey
  · rintro ⟨hstays, hthere⟩
    -- no row is changed
    have hmem : ∀ a, a ∈ (s.update first token username).accounts ↔ a ∈ s.accounts := by
      intro a
      rw [mem_update]
      constructor
      · rintro (⟨ha, -⟩ | ⟨b, hb, hbkey, rfl⟩)
        · exact ha
        · rw [Table.eq_of_key_eq hb hfirst hbkey, hstays]
          exact hfirst
      · intro ha
        by_cases hakey : a.key = first.key
        · obtain rfl := Table.eq_of_key_eq ha hfirst hakey
          exact .inr ⟨a, ha, rfl, hstays.symm⟩
        · exact .inl ⟨ha, hakey⟩
    exact ⟨⟨account, (hmem account).mpr haccount, rfl, OAuthAccount.renew_eq_self_iff.mp hthere⟩,
      fun a _ => hmem a⟩

theorem getOAuthAccount_eq_some {user : ℕ} {first : OAuthAccount}
    (h : s.getOAuthAccount user platform = some first) : first ∈ s.accounts :=
  List.mem_of_find?_eq_some h

theorem loadedFirst_of_getByOAuthAccount
    (h : s.getByOAuthAccount platform accountId = none) :
    LoadedFirst s (platform, accountId) token username := by
  intro account haccount hkey hactive
  have hget := Table.get_eq_some_iff.mpr ⟨haccount, hkey⟩
  rw [Store.getByOAuthAccount, hget, Option.map_some, Option.filter_some, if_pos hactive] at h
  cases h

theorem getByOAuthAccount_eq_some {user : ℕ}
    (h : s.getByOAuthAccount platform accountId = some user) :
    ∃ account ∈ s.accounts, account.key = (platform, accountId) ∧ account.userId = user ∧
      s.active user := by
  obtain ⟨hget, hactive⟩ := Option.filter_eq_some_iff.mp h
  obtain ⟨account, haccount, rfl⟩ := Option.map_eq_some_iff.mp hget
  obtain ⟨hmem, hkey⟩ := Table.get_eq_some_iff.mp haccount
  exact ⟨account, hmem, hkey, rfl, hactive⟩

theorem landsOn_getUpdatedOrCreate_iff {attribution : Option SignupAttribution} {user : ℕ}
    {isNew : Bool} (hsubject : Subject platform answer accountId username)
    (h : s.getUpdatedOrCreate env platform token answer attribution = .ok (s', user, isNew)) :
    LandsOn s s' (platform, accountId) token username ↔
      LoadedFirst s (platform, accountId) token username := by
  obtain ⟨profile, hprofile, hid, husername⟩ := hsubject.profile
  have haccountId : profile.id.text = .ok accountId := congrArg _ hid
  simp only [Store.getUpdatedOrCreate, hprofile, haccountId, husername, Fallible.ok_bind] at h
  split at h
  next found hfound =>
    obtain ⟨account, haccount, hkey, rfl, hactive⟩ := getByOAuthAccount_eq_some hfound
    split at h
    · cases h
    next first hfirst =>
      obtain ⟨rfl, -⟩ := Prod.mk.inj (Except.ok.inj h)
      rw [← hkey, landsOn_update_iff haccount (getOAuthAccount_eq_some hfirst)]
      constructor
      · intro hright a ha hakey _ first' hfirst'
        obtain rfl := Table.eq_of_key_eq ha haccount hakey
        rw [hkey] at hfirst'
        obtain rfl := Option.some_inj.mp (hfirst.symm.trans hfirst')
        exact hright
      · intro hfirstLoaded
        exact hfirstLoaded account haccount rfl hactive first (by rw [hkey]; exact hfirst)
  next hfound =>
    refine iff_of_true ?_ (loadedFirst_of_getByOAuthAccount hfound)
    obtain ⟨email, -, h⟩ := Fallible.bind_eq_ok.mp h
    obtain ⟨known, -, h⟩ := Fallible.bind_eq_ok.mp h
    split at h
    next =>
      split at h
      · cases h
      · obtain ⟨attached, hattached, h⟩ := Fallible.bind_eq_ok.mp h
        obtain ⟨rfl, -⟩ := Prod.mk.inj (Except.ok.inj h)
        obtain ⟨hnew, rfl⟩ := Store.attach_eq_ok hattached
        exact landsOn_add
    next =>
      obtain ⟨emailVerified, -, h⟩ := Fallible.bind_eq_ok.mp h
      obtain ⟨avatarUrl, -, h⟩ := Fallible.bind_eq_ok.mp h
      obtain ⟨created, hcreated, h⟩ := Fallible.bind_eq_ok.mp h
      obtain rfl := Store.create_eq_ok hcreated
      obtain ⟨attached, hattached, h⟩ := Fallible.bind_eq_ok.mp h
      obtain ⟨rfl, -⟩ := Prod.mk.inj (Except.ok.inj h)
      obtain ⟨hnew, rfl⟩ := Store.attach_eq_ok hattached
      exact landsOn_add

theorem landsOn_linkUser {user : ℕ} (hsubject : Subject platform answer accountId username)
    (h : s.linkUser platform user token answer = .ok s') :
    LandsOn s s' (platform, accountId) token username := by
  obtain ⟨profile, hprofile, hid, husername⟩ := hsubject.profile
  have haccountId : profile.id.text = .ok accountId := congrArg _ hid
  simp only [Store.linkUser, hprofile, haccountId, husername, Fallible.ok_bind] at h
  split at h
  next account hget =>
    obtain ⟨haccount, hkey⟩ := Table.get_eq_some_iff.mp hget
    split at h
    · cases h
    · obtain rfl := Except.ok.inj h
      rw [← hkey]
      exact landsOn_update haccount
  next =>
    obtain ⟨email, -, h⟩ := Fallible.bind_eq_ok.mp h
    obtain ⟨hnew, rfl⟩ := Store.attach_eq_ok h
    exact landsOn_add

/-- **Provider tokens.** -/
theorem landsOn_iff (env : Env) (s : Store) (token : Token)
    (hsubject : Subject platform answer accountId username) :
    (∀ attribution s' user isNew,
      s.getUpdatedOrCreate env platform token answer attribution = .ok (s', user, isNew) →
        (LandsOn s s' (platform, accountId) token username ↔
          LoadedFirst s (platform, accountId) token username)) ∧
      ∀ user s', s.linkUser platform user token answer = .ok s' →
        LandsOn s s' (platform, accountId) token username :=
  ⟨fun _ _ _ _ => landsOn_getUpdatedOrCreate_iff hsubject, fun _ _ => landsOn_linkUser hsubject⟩

/-- The account that is loaded first. -/
def privateAccount : OAuthAccount :=
  Store.newAccount .google "private" 0 "ann@example.com" none ⟨"t1", none⟩

/-- A user with two accounts at Google. -/
def twoAccounts : Store where
  users := [{ email := "ann@example.com" }]
  accounts := ⟨[privateAccount,
    Store.newAccount .google "work" 0 "ann@work.example" none ⟨"t2", none⟩], by decide⟩

def googleAnswer (id email : String) : Answer :=
  some [("sub", .string id), ("email", .string email), ("email_verified", .bool true)]

/-- The token of the other account is stored on the one that is loaded first. -/
theorem not_landsOn_work : ∃ s', twoAccounts.getUpdatedOrCreate ⟨id, id⟩ .google ⟨"t3", none⟩
      (googleAnswer "work" "ann@work.example") none = .ok (s', 0, false) ∧
    ¬LandsOn twoAccounts s' (.google, "work") ⟨"t3", none⟩ (some "ann@work.example") := by
  refine ⟨twoAccounts.update privateAccount ⟨"t3", none⟩ (some "ann@work.example"), rfl,
    fun h => ?_⟩
  have hmem := (h.others privateAccount (by decide)).mpr (by decide)
  exact absurd hmem (by decide)

/-- Signing in with the account that is loaded first, and asking for a link to it. -/
theorem landsOn_private :
    (∃ s', twoAccounts.getUpdatedOrCreate ⟨id, id⟩ .google ⟨"t3", none⟩
        (googleAnswer "private" "ann@example.com") none = .ok (s', 0, false) ∧
      LandsOn twoAccounts s' (.google, "private") ⟨"t3", none⟩ (some "ann@example.com")) ∧
    ∃ s', twoAccounts.linkUser .google 0 ⟨"t3", none⟩
        (googleAnswer "private" "ann@example.com") = .ok s' ∧
      LandsOn twoAccounts s' (.google, "private") ⟨"t3", none⟩ (some "ann@example.com") := by
  have hsubject : Subject .google (googleAnswer "private" "ann@example.com") "private"
      (some "ann@example.com") := ⟨_, rfl, rfl, rfl⟩
  obtain ⟨hlogin, hlink⟩ := landsOn_iff ⟨id, id⟩ twoAccounts ⟨"t3", none⟩ hsubject
  refine ⟨⟨_, rfl, (hlogin none _ _ _ rfl).mpr ?_⟩, _, rfl, hlink 0 _ rfl⟩
  intro account haccount hkey _ first hfirst
  obtain rfl := Table.eq_of_key_eq haccount (by decide : privateAccount ∈ twoAccounts.accounts) hkey
  exact .inl (Option.some_inj.mp hfirst).symm

end ExternalAccounts

end Rapidly.Integrations
