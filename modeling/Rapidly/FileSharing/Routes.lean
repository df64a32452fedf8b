import Rapidly.FileSharing.Payments.Repository
import Rapidly.Net.Routing

/-!
# The routes of file sharing

The table of `sharing/file_sharing/api.py`, in the order in which the routes are registered. A slug
may have slashes, so the route that fetches a channel fits everything below `/channels/`.

* `dispatch_subResource_iff`: what is below a channel is found under its slug, except for what is
  fetched with `GET`.
* `dispatch_get_subResource`: that goes to the channel's own route, with a longer slug.
-/

namespace Rapidly.FileSharing.Routes

open Net Payments

inductive Method where
  | get
  | post
  | patch
  | webSocket
deriving DecidableEq

/-- The functions of `api.py` that are routes. -/
inductive Endpoint where
  | getStats
  | pingNoServerSecret
  | listSessions
  | getSession
  | listSessionReports
  | updateReport
  | websocketSignal
  | createSecret
  | getSecretMetadata
  | fetchSecret
  | createFileSecret
  | fetchFileSecret
  | createSecretCheckout
  | claimSecretPaymentToken
  | createChannel
  | fetchChannel
  | createCheckout
  | setReaderToken
  | recordPasswordAttempt
  | claimPaymentToken
  | uploadChecksums
  | fetchChecksums
  | recordDownloadComplete
  | renewChannel
  | destroyChannel
  | reportChannel
  | getIceConfig
deriving DecidableEq

/-- A path below the prefix of the router. -/
def below (path : String) : List Char := "/file-sharing".toList ++ path.toList

/-- A path without a parameter. -/
def fixed (path : String) : PathPattern := .fixed (below path)

/-- A path with an identifier in it. -/
def withId (before after : String) : PathPattern := .param (below before) .str after.toList

/-- A path with a slug in it, as in `{slug:path}`. -/
def withSlug (before after : String) : PathPattern := .param (below before) .path after.toList

/-- The path in front of the slug of a channel. -/
def channels : List Char := below "/channels/"

/-- `router` -/
def router : List (Route Method Endpoint) := [
  ⟨.get, fixed "/stats", .getStats⟩,
  ⟨.post, fixed "/no-server-secrets/ping", .pingNoServerSecret⟩,
  ⟨.get, fixed "/sessions", .listSessions⟩,
  ⟨.get, withId "/sessions/" "", .getSession⟩,
  ⟨.get, withId "/sessions/" "/reports", .listSessionReports⟩,
  ⟨.patch, withId "/reports/" "", .updateReport⟩,
  ⟨.webSocket, withSlug "/signal/" "", .websocketSignal⟩,
  ⟨.post, fixed "/secret", .createSecret⟩,
  ⟨.get, withId "/secret/" "/metadata", .getSecretMetadata⟩,
  ⟨.get, withId "/secret/" "", .fetchSecret⟩,
  ⟨.post, fixed "/file", .createFileSecret⟩,
  ⟨.get, withId "/file/" "", .fetchFileSecret⟩,
  ⟨.post, withId "/secrets/" "/checkout", .createSecretCheckout⟩,
  ⟨.post, withId "/secrets/" "/claim-payment-token", .claimSecretPaymentToken⟩,
  ⟨.post, fixed "/channels", .createChannel⟩,
  ⟨.get, withSlug "/channels/" "", .fetchChannel⟩,
  ⟨.post, withSlug "/channels/" "/checkout", .createCheckout⟩,
  ⟨.post, withSlug "/channels/" "/reader-token", .setReaderToken⟩,
  ⟨.post, withSlug "/channels/" "/password-attempt", .recordPasswordAttempt⟩,
  ⟨.post, withSlug "/channels/" "/claim-payment-token", .claimPaymentToken⟩,
  ⟨.post, withSlug "/channels/" "/checksums", .uploadChecksums⟩,
  ⟨.get, withSlug "/channels/" "/checksums", .fetchChecksums⟩,
  ⟨.post, withSlug "/channels/" "/download-complete", .recordDownloadComplete⟩,
  ⟨.post, withSlug "/channels/" "/renew", .renewChannel⟩,
  ⟨.post, withSlug "/channels/" "/destroy", .destroyChannel⟩,
  ⟨.post, withSlug "/channels/" "/report", .reportChannel⟩,
  ⟨.post, withSlug "/ice/" "", .getIceConfig⟩]

/-- The route is for something below a channel. -/
def IsSubResource (r : Route Method Endpoint) (after : List Char) : Prop :=
  r.pattern = .param channels .path after ∧ after ≠ []

instance (r : Route Method Endpoint) (after : List Char) : Decidable (IsSubResource r after) :=
  inferInstanceAs (Decidable (_ ∧ _))

/-- What a request for it finds. -/
def dispatchBelow (r : Route Method Endpoint) (slug after : List Char) :
    Option (Endpoint × Option (List Char)) :=
  dispatch router r.method (channels ++ slug ++ after)

section Dispatch

variable {r : Route Method Endpoint} {slug after : List Char}

/-- What stands behind the parameter of a pattern. -/
def afterOf : PathPattern → List Char
  | .fixed _ => []
  | .param _ _ after => after

theorem IsSubResource.after_eq (h : IsSubResource r after) : after = afterOf r.pattern := by
  rw [h.1, afterOf]

/-- The first route of a method that can fit a path below a channel is the right one, or fetches
the channel. -/
theorem find?_router (hr : r ∈ router) (h : IsSubResource r after) :
    router.find? (fun q => q.method = r.method ∧ ¬q.pattern.Separate channels after) =
      if r.method = .get then some ⟨.get, withSlug "/channels/" "", .fetchChannel⟩ else some r := by
  have hall : ∀ r ∈ router, IsSubResource r (afterOf r.pattern) →
      router.find? (fun q => q.method = r.method ∧
        ¬q.pattern.Separate channels (afterOf r.pattern)) =
          if r.method = .get then some ⟨.get, withSlug "/channels/" "", .fetchChannel⟩
          else some r := by
    decide +kernel
  have hafter := h.after_eq
  subst hafter
  exact hall r hr h

theorem dispatch_get_subResource (hr : r ∈ router) (h : IsSubResource r after)
    (hget : r.method = .get) : dispatchBelow r slug after =
      some (.fetchChannel, some (slug ++ after)) := by
  have hfirst := find?_router hr h
  rw [if_pos hget] at hfirst
  refine dispatch_eq_some hfirst ?_
  have hne : Convertor.Accepts .path (slug ++ after) := List.append_ne_nil_of_right_ne_nil slug h.2
  have hcapture := @PathPattern.capture_param channels [] _ .path hne
  rwa [List.append_nil, ← List.append_assoc] at hcapture

theorem dispatch_post_subResource (hr : r ∈ router) (h : IsSubResource r after)
    (hget : r.method ≠ .get) (hslug : slug ≠ []) : dispatchBelow r slug after =
      some (r.endpoint, some slug) := by
  have hfirst := find?_router hr h
  rw [if_neg hget] at hfirst
  refine dispatch_eq_some hfirst ?_
  rw [h.1]
  exact PathPattern.capture_param hslug

theorem toList_ne_nil_of_validSlug {slug : Slug} (h : validSlug slug) : slug.toList ≠ [] := by
  intro hnil
  rw [validSlug, hnil] at h
  exact Bool.false_ne_true h

/-- **Routing below a channel.** A request reaches the handler of what it asks for, with the slug
of the channel, exactly if it is no `GET`. -/
theorem dispatch_subResource_iff (hr : r ∈ router) (h : IsSubResource r after) {slug : Slug}
    (hslug : validSlug slug) :
    dispatchBelow r slug.toList after = some (r.endpoint, some slug.toList) ↔ r.method ≠ .get := by
  constructor
  · intro hfound hget
    rw [dispatch_get_subResource hr h hget] at hfound
    obtain ⟨-, hlonger⟩ := Prod.mk.inj (Option.some.inj hfound)
    exact h.2 (List.append_right_eq_self.mp (Option.some.inj hlonger))
  · intro hget
    exact dispatch_post_subResource hr h hget (toList_ne_nil_of_validSlug hslug)

theorem dispatchBelow_destroy :
    dispatchBelow ⟨.post, withSlug "/channels/" "/destroy", .destroyChannel⟩
      "bacon/cheese".toList "/destroy".toList =
        some (.destroyChannel, some "bacon/cheese".toList) :=
  (@dispatch_subResource_iff ⟨.post, withSlug "/channels/" "/destroy", .destroyChannel⟩ _
    (by decide +kernel) ⟨rfl, by decide⟩ "bacon/cheese" (by decide)).mpr (by decide)

theorem dispatchBelow_fetchChecksums : ¬∀ r ∈ router, ∀ (after : List Char) (slug : Slug),
    IsSubResource r after → validSlug slug →
      dispatchBelow r slug.toList after = some (r.endpoint, some slug.toList) := by
  intro h
  have hfound := h ⟨.get, withSlug "/channels/" "/checksums", .fetchChecksums⟩ (by decide +kernel)
    "/checksums".toList "a1b2c3d4" ⟨rfl, by decide⟩ (by decide)
  have hchannel : dispatchBelow ⟨.get, withSlug "/channels/" "/checksums", .fetchChecksums⟩
      "a1b2c3d4".toList "/checksums".toList =
        some (.fetchChannel, some "a1b2c3d4/checksums".toList) := by
    decide +kernel
  rw [hchannel] at hfound
  exact absurd (Prod.mk.inj (Option.some.inj hfound)).1 (by decide)

end Dispatch

end Rapidly.FileSharing.Routes
