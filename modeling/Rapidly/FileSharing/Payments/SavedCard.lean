import Rapidly.FileSharing.Payments.Checkout

/-!
# Who can charge a saved card

A checkout of a channel may name a saved card, which is then charged at once. The action
`create_checkout` compares the card's owner with a customer its caller vouches for; the route,
its only caller, takes that customer from the card itself. The comparison therefore never
fails, and the identity of the caller matters only in that it is not anonymous.

* `charges_createCheckoutRoute_iff` says exactly when the route charges which card.
* `strangersCard_charged` is a user paying with another user's card.
* `chargesOwnCardOnly_iff` is the condition under which the route charges nobody else's card.
-/

namespace Rapidly.FileSharing.Payments

open Relational Identity

variable {sha256 : String → String} {stripe : Stripe} {now : ℕ} {redis : Redis}

/-- A PaymentIntent that charges the card was created. -/
def Charges (events : List Event) (pm : PaymentMethod) : Prop :=
  ∃ item params answer, .stripe item (.createPaymentIntent params answer) ∈ events ∧
    params.paymentMethod = pm.processorId

/-- The card the request names is charged only if its owner belongs to the subject. -/
def ChargesOwnCardOnly (belongs : Auth.Subject → Customer → Prop) (session : AsyncSession)
    (subject : Auth.Subject) (paymentMethodId : Option Uuid) (events : List Event) : Prop :=
  ∀ pm ∈ session.db.paymentMethods, ∀ owner ∈ session.db.customers,
    paymentMethodId = some pm.id → owner.id = pm.customerId → Charges events pm →
      belongs subject owner

/-- The channel exists, has terms of payment and has not expired. -/
def Payable (session : AsyncSession) (now : ℕ) (redis : Redis) (slug : Slug) : Prop :=
  ∃ channel terms, redis.fetchChannel now slug = some channel ∧
    checkoutTerms (some session) channel = .ok terms ∧
    0 < redis.channels.ttl now channel.shortSlug

/-- The card can be charged: neither it nor its owner is deleted, and Stripe knows the
owner. -/
structure Chargeable (pm : PaymentMethod) (owner : Customer) : Prop where
  card_live : pm.deletedAt = none
  owner_live : owner.deletedAt = none
  known : (truthy owner.stripeCustomerId).isSome

/-! ### What a checkout charges -/

variable {token : Token} {item : Item} {params : PaymentIntentParams}
  {answer : Except StripeError PaymentIntent} {pm : PaymentMethod} {session : AsyncSession}

theorem paymentIntent_notMem_openCheckoutSession {channel : ChannelData} {terms : Terms}
    {fingerprint : String} :
    .stripe item (.createPaymentIntent params answer) ∉
      (openCheckoutSession stripe now redis channel terms fingerprint token).events := by
  unfold openCheckoutSession
  dsimp only
  split <;> simp

theorem paymentIntent_mem_chargeSavedCard {channel : ChannelData} {terms : Terms}
    {stripeCustomerId fingerprint : String} :
    .stripe item (.createPaymentIntent params answer) ∈
        (chargeSavedCard stripe now redis channel terms pm stripeCustomerId fingerprint
          token).events ↔
      item = .channel channel.shortSlug ∧
        params = paymentIntentParams channel terms pm stripeCustomerId fingerprint ∧
        answer = stripe.createPaymentIntent params := by
  have hiff : item = .channel channel.shortSlug ∧
      params = paymentIntentParams channel terms pm stripeCustomerId fingerprint ∧
      answer = stripe.createPaymentIntent
        (paymentIntentParams channel terms pm stripeCustomerId fingerprint) ↔
      item = .channel channel.shortSlug ∧
        params = paymentIntentParams channel terms pm stripeCustomerId fingerprint ∧
        answer = stripe.createPaymentIntent params := by
    refine and_congr_right fun _ => and_congr_right fun hparams => ?_
    rw [hparams]
  rw [← hiff]
  unfold chargeSavedCard
  dsimp only
  split <;> simp

theorem savedCard_eq_some_iff {request : CheckoutRequest} {stripeCustomerId : String} :
    savedCard (some session) request = some (pm, stripeCustomerId) ↔
      ∃ id owner, request.paymentMethodId = some id ∧ session.getPaymentMethod id = some pm ∧
        request.buyerCustomerId = some pm.customerId ∧
        session.getCustomer pm.customerId = some owner ∧
        truthy owner.stripeCustomerId = some stripeCustomerId := by
  obtain ⟨slug, fingerprint, _ | id, _ | buyer⟩ := request
  · simp [savedCard]
  · simp [savedCard]
  · simp [savedCard]
  · simp only [savedCard, Option.some.injEq]
    constructor
    · intro h
      obtain ⟨pm', hpm, h⟩ := Option.bind_eq_some_iff.mp h
      split at h
      next heq =>
        obtain ⟨owner, howner, h⟩ := Option.bind_eq_some_iff.mp h
        obtain ⟨known, hknown, h⟩ := Option.bind_eq_some_iff.mp h
        obtain ⟨rfl, rfl⟩ := Prod.mk.inj (Option.some.inj h)
        exact ⟨id, owner, rfl, hpm, heq.symm, howner, hknown⟩
      next => cases h
    · rintro ⟨_, owner, rfl, hpm, rfl, howner, hknown⟩
      simp [hpm, howner, hknown]

theorem getPaymentMethod_eq_some_iff {id : Uuid} :
    session.getPaymentMethod id = some pm ↔
      pm ∈ session.db.paymentMethods ∧ pm.id = id ∧ pm.deletedAt = none := by
  simp [AsyncSession.getPaymentMethod, Option.filter_eq_some_iff, Table.get_eq_some_iff,
    and_assoc]

theorem getCustomer_eq_some_iff {id : Uuid} {owner : Customer} :
    session.getCustomer id = some owner ↔
      owner ∈ session.db.customers ∧ owner.id = id ∧ owner.deletedAt = none := by
  simp [AsyncSession.getCustomer, Option.filter_eq_some_iff, Table.get_eq_some_iff, and_assoc]

/-- `create_checkout` creates a PaymentIntent for a payable channel and the saved card. -/
theorem paymentIntent_mem_createCheckout {request : CheckoutRequest} :
    .stripe item (.createPaymentIntent params answer) ∈
        (createCheckout sha256 stripe now redis (some session) request token).events ↔
      ∃ channel terms pm stripeCustomerId, redis.fetchChannel now request.slug = some channel ∧
        checkoutTerms (some session) channel = .ok terms ∧
        0 < redis.channels.ttl now channel.shortSlug ∧
        savedCard (some session) request = some (pm, stripeCustomerId) ∧
        item = .channel channel.shortSlug ∧
        params = paymentIntentParams channel terms pm stripeCustomerId
          request.buyerFingerprint ∧
        answer = stripe.createPaymentIntent params := by
  rw [createCheckout]
  cases hchannel : redis.fetchChannel now request.slug with
  | none => simp
  | some channel =>
    dsimp only
    cases hterms : checkoutTerms (some session) channel with
    | error text => simp [hterms]
    | ok terms =>
      dsimp only
      by_cases httl : redis.channels.ttl now channel.shortSlug ≤ 0
      · rw [if_pos httl]
        have hnot : ¬0 < redis.channels.ttl now channel.shortSlug := by omega
        simp [hnot]
      · rw [if_neg httl]
        have hpos : 0 < redis.channels.ttl now channel.shortSlug := by omega
        cases hcard : savedCard (some session) request with
        | none => simp [paymentIntent_notMem_openCheckoutSession]
        | some card =>
          obtain ⟨pm, stripeCustomerId⟩ := card
          simp [paymentIntent_mem_chargeSavedCard, hterms, hpos, and_assoc]

/-! ### The route -/

theorem namedCard_eq_some_iff {subject : Auth.Subject} {paymentMethodId : Option Uuid} :
    namedCard session subject paymentMethodId = some pm ↔
      subject ≠ .anonymous ∧ paymentMethodId = some pm.id ∧
        pm ∈ session.db.paymentMethods ∧ pm.deletedAt = none := by
  have hlookup : paymentMethodId.bind session.getPaymentMethod = some pm ↔
      paymentMethodId = some pm.id ∧ pm ∈ session.db.paymentMethods ∧ pm.deletedAt = none := by
    simp only [Option.bind_eq_some_iff, getPaymentMethod_eq_some_iff]
    constructor
    · rintro ⟨id, hid, hpm, rfl, hlive⟩
      exact ⟨hid, hpm, hlive⟩
    · rintro ⟨hid, hpm, hlive⟩
      exact ⟨pm.id, hid, hpm, rfl, hlive⟩
  cases subject with
  | anonymous => simp [namedCard]
  | _ => simp [namedCard, hlookup]

/-- **What the route charges.** It charges the card a caller names exactly when the caller is
not anonymous, the channel is payable and the card is chargeable. Who the caller is does not
matter. -/
theorem charges_createCheckoutRoute_iff {subject : Auth.Subject} {slug : Slug}
    {fingerprint : String} {paymentMethodId : Option Uuid} (owner : Customer)
    (hpm : pm ∈ session.db.paymentMethods) (howner : owner ∈ session.db.customers)
    (hid : paymentMethodId = some pm.id) (hcustomer : owner.id = pm.customerId) :
    Charges (createCheckoutRoute sha256 stripe now redis session subject slug fingerprint
        paymentMethodId token).events pm ↔
      validSlug slug ∧ subject ≠ .anonymous ∧ Payable session now redis slug ∧
        Chargeable pm owner := by
  -- the card and the customer are found by their ids, which are keys of their tables
  have hcard : ∀ pm' sid, savedCard (some session)
      { slug, buyerFingerprint := fingerprint,
        paymentMethodId := (namedCard session subject paymentMethodId).bind
          fun _ => paymentMethodId,
        buyerCustomerId := (namedCard session subject paymentMethodId).map
          PaymentMethod.customerId } = some (pm', sid) ↔
      pm' = pm ∧ subject ≠ .anonymous ∧ pm.deletedAt = none ∧ owner.deletedAt = none ∧
        truthy owner.stripeCustomerId = some sid := by
    intro pm' sid
    rw [savedCard_eq_some_iff]
    simp only [Option.bind_eq_some_iff, Option.map_eq_some_iff, namedCard_eq_some_iff,
      getPaymentMethod_eq_some_iff, getCustomer_eq_some_iff]
    constructor
    · rintro ⟨id, owner', ⟨named, ⟨hsub, hnamed, -, -⟩, hid'⟩, ⟨hpm', rfl, hlive⟩, -,
        ⟨howner', hkey, hownerLive⟩, hknown⟩
      have hsame : pm' = pm :=
        Table.eq_of_key_eq hpm' hpm (Option.some.inj (hid'.symm.trans hid))
      subst hsame
      have hsameOwner : owner' = owner :=
        Table.eq_of_key_eq howner' howner (hkey.trans hcustomer.symm)
      subst hsameOwner
      exact ⟨rfl, hsub, hlive, hownerLive, hknown⟩
    · rintro ⟨rfl, hsub, hlive, hownerLive, hknown⟩
      have hnamed : subject ≠ .anonymous ∧ paymentMethodId = some pm'.id ∧
          pm' ∈ session.db.paymentMethods ∧ pm'.deletedAt = none := ⟨hsub, hid, hpm, hlive⟩
      exact ⟨pm'.id, owner, ⟨pm', hnamed, hid⟩, ⟨hpm, rfl, hlive⟩, ⟨pm', hnamed, rfl⟩,
        ⟨howner, hcustomer, hownerLive⟩, hknown⟩
  rw [createCheckoutRoute]
  by_cases hslug : validSlug slug = true
  · rw [if_pos hslug]
    simp only [Charges, paymentIntent_mem_createCheckout, hcard]
    constructor
    · rintro ⟨_, _, _, ⟨channel, terms, _, sid, hchannel, hterms, httl,
        ⟨rfl, hsub, hlive, hownerLive, hknown⟩, -⟩, -⟩
      exact ⟨hslug, hsub, ⟨channel, terms, hchannel, hterms, httl⟩, hlive, hownerLive,
        by rw [hknown]; rfl⟩
    · rintro ⟨-, hsub, ⟨channel, terms, hchannel, hterms, httl⟩, hlive, hownerLive, hknown⟩
      obtain ⟨sid, hsid⟩ := Option.isSome_iff_exists.mp hknown
      exact ⟨_, _, _, ⟨channel, terms, pm, sid, hchannel, hterms, httl,
        ⟨rfl, hsub, hlive, hownerLive, hsid⟩, rfl, rfl, rfl⟩, rfl⟩
  · rw [if_neg hslug]
    simp [Charges, hslug]

/-- **Saved-card ownership.** The route charges only cards that belong to its caller exactly
when a caller who is not anonymous and names a chargeable card for a payable channel names a
card of their own, however one tells which customers belong to a caller. -/
theorem chargesOwnCardOnly_iff (sha256 : String → String) (stripe : Stripe) (now : ℕ)
    (redis : Redis) (belongs : Auth.Subject → Customer → Prop) (session : AsyncSession)
    (subject : Auth.Subject) (slug : Slug) (fingerprint : String)
    (paymentMethodId : Option Uuid) (token : Token) :
    ChargesOwnCardOnly belongs session subject paymentMethodId
        (createCheckoutRoute sha256 stripe now redis session subject slug fingerprint
          paymentMethodId token).events ↔
      (validSlug slug → subject ≠ .anonymous → Payable session now redis slug →
        ∀ pm ∈ session.db.paymentMethods, ∀ owner ∈ session.db.customers,
          paymentMethodId = some pm.id → owner.id = pm.customerId → Chargeable pm owner →
            belongs subject owner) := by
  constructor
  · intro h hslug hsub hpayable pm hpm owner howner hid hcustomer hchargeable
    refine h pm hpm owner howner hid hcustomer ?_
    rw [charges_createCheckoutRoute_iff owner hpm howner hid hcustomer]
    exact ⟨hslug, hsub, hpayable, hchargeable⟩
  · intro h pm hpm owner howner hid hcustomer hcharges
    obtain ⟨hslug, hsub, hpayable, hchargeable⟩ :=
      (charges_createCheckoutRoute_iff owner hpm howner hid hcustomer).mp hcharges
    exact h hslug hsub hpayable pm hpm owner howner hid hcustomer hchargeable

/-! ### Another user's card -/

/-- The customer stands for the user. -/
def standsFor : Auth.Subject → Customer → Prop
  | .user user, owner => owner.legacyUserId = some user.id
  | _, _ => False

/-- A customer who stands for user 1. -/
def cardOwner : Customer :=
  { id := 10, workspaceId := 20, stripeCustomerId := some "cus_1", legacyUserId := some 1 }

/-- The customer's card. -/
def ownersCard : PaymentMethod := { id := 30, customerId := 10, processorId := "pm_1" }

/-- The database with the customer and the card. -/
def oneSavedCard : AsyncSession where
  db :=
    { Database.empty with
      workspaces := Table.singleton { id := 20 }
      customers := Table.singleton cardOwner
      paymentMethods := Table.singleton ownersCard
      customers_workspace := by decide
      members_customer := by decide
      members_workspace := by decide
      workspaceAccessTokens_workspace := by decide
      customerSessions_customer := by decide
      paymentMethods_customer := by decide }

/-- One channel that costs five dollars. -/
def paidChannel : Redis where
  channels := KeyValue.Store.empty.setex 0 "ab" 3600
    { longSlug := "a/b/c", shortSlug := "ab", priceCents := some 500,
      sellerStripeId := some "acct_1" }

/-- A provider that charges every card. -/
def chargingStripe : Stripe where
  createPaymentIntent _ := .ok { id := "pi_1", status := "succeeded" }
  createCheckoutSession _ := .error .mk
  retrieveCheckoutSession _ _ := .error .mk

/-- A user names another user's card, and the card is charged. -/
theorem strangersCard_charged :
    ¬∀ (sha256 : String → String) (stripe : Stripe) (now : ℕ) (redis : Redis)
      (belongs : Auth.Subject → Customer → Prop) (session : AsyncSession)
      (subject : Auth.Subject) (slug : Slug) (fingerprint : String)
      (paymentMethodId : Option Uuid) (token : Token),
      ChargesOwnCardOnly belongs session subject paymentMethodId
        (createCheckoutRoute sha256 stripe now redis session subject slug fingerprint
          paymentMethodId token).events := by
  intro h
  have hcard : ownersCard ∈ oneSavedCard.db.paymentMethods := by decide
  have howner : cardOwner ∈ oneSavedCard.db.customers := by decide
  have hcharges : Charges (createCheckoutRoute id chargingStripe 0 paidChannel oneSavedCard
      (.user { id := 2 }) "ab" "fp" (some ownersCard.id) "token").events ownersCard := by
    refine (charges_createCheckoutRoute_iff cardOwner hcard howner rfl rfl).mpr ?_
    exact ⟨by decide, nofun, ⟨_, _, rfl, rfl, by decide⟩, rfl, rfl, rfl⟩
  have hown := h id chargingStripe 0 paidChannel standsFor oneSavedCard (.user { id := 2 }) "ab"
    "fp" (some ownersCard.id) "token" ownersCard hcard cardOwner howner rfl rfl hcharges
  exact absurd (Option.some.inj hown) (by decide)

end Rapidly.FileSharing.Payments
