import Mathlib.Data.List.Basic
import Rapidly.Fallible.Traversal
import Rapidly.Net.IpAddress

/-!
# Where a webhook request goes

`_resolve_safe_addrs` looks the host of an endpoint up and rejects the URL if one of its
addresses is private, a loopback or a link-local address. Its docstring says that the caller can
connect to the addresses it returns. The caller, `_webhook_event_send`, asks it only whether it
returned any, and posts to the URL: the client looks the host up again, or uses a connection to
the same origin that is still open from an earlier delivery.

The resolver answers every lookup as it likes, and which addresses accept a connection is not
known either. `onlyChecked_iff` says when the request of a delivery can only go to an address
that this delivery has checked.

How `urllib` and `httpx` take a URL apart are parameters. The client is that of
`HTTPXMiddleware`: shared by the deliveries of a worker, without redirects, with a pool of idle
connections.
-/

namespace Rapidly.Messaging.Webhooks

open Net

/-- What `urlparse` makes of a URL. -/
structure ParseResult where
  scheme : String
  hostname : Option String
  /-- `none` where reading the port raises `ValueError`. -/
  port : Option (Option ℕ)
deriving DecidableEq

/-- An answer of `getaddrinfo`: the addresses, or `none` where it raises. -/
abbrev Lookup := Option (List String)

section Check

variable (urlparse : String → Option ParseResult) (getaddrinfo : String → Lookup) (url : String)

/-- An address of the answer, unless it is not public. -/
def safeAddr (port : ℕ) (addr : String) : Option (String × ℕ) :=
  (ipAddress addr.toList).bind fun ip =>
    if ip.isPrivate || ip.isLoopback || ip.isLinkLocal then none else some (addr, port)

/-- `_resolve_safe_addrs`. Every exception it catches makes it answer `None`. -/
def resolveSafeAddrs : Option (List (String × ℕ)) := do
  let parsed ← urlparse url
  let hostname ← parsed.hostname
  let port ← parsed.port
  let default := if parsed.scheme = "https" then 443 else 80
  let port := (port.filter (· ≠ 0)).getD default
  let addrs ← getaddrinfo hostname
  let safeAddrs ← addrs.mapM (safeAddr port)
  if safeAddrs = [] then none else some safeAddrs

/-- The address has passed the check. -/
def Checked (addr : String) : Prop :=
  ∃ safeAddrs ∈ resolveSafeAddrs urlparse getaddrinfo url, addr ∈ safeAddrs.map Prod.fst

/-- What the check asks the resolver. -/
def resolved : Lookup := (urlparse url).bind fun parsed => parsed.hostname.bind getaddrinfo

end Check

/-! ### The request -/

/-- What `httpx` makes of a URL. -/
structure HttpxUrl where
  /-- Scheme, host and port. -/
  origin : String
  host : String
deriving DecidableEq

/-- What a delivery depends on. -/
structure Delivery where
  url : String
  /-- How the resolver answers the first time. -/
  firstLookup : String → Lookup
  /-- How it answers the second time. -/
  secondLookup : String → Lookup
  /-- The idle connections of the client: an origin and the address at the other end. -/
  idle : List (String × String) := []
  /-- `settings.ENV == Environment.development`. -/
  development : Bool := false

namespace Delivery

variable (urlparse : String → Option ParseResult) (httpxUrl : String → Option HttpxUrl)
variable (d : Delivery)

/-- The idle connection to an origin that the client uses. -/
def connection (origin : String) : Option String :=
  (d.idle.find? fun c => c.1 = origin).map Prod.snd

/-- The address `client.post` sends to, given which addresses accept a connection: the one at
the other end of an idle connection to the origin, or else the first one that accepts. -/
def post (accepts : String → Bool) : Option String :=
  (httpxUrl d.url).bind fun url =>
    match d.connection url.origin with
    | some addr => some addr
    | none => (d.secondLookup url.host).bind fun addrs => addrs.find? accepts

/-- The address the delivery sends a request to, if it sends one. -/
def request (accepts : String → Bool) : Option String :=
  match resolveSafeAddrs urlparse d.firstLookup d.url with
  | none => none
  | some _ => if d.development then none else d.post httpxUrl accepts

/-- Whichever addresses accept connections, a request goes to an address that has passed the
check in this delivery. -/
def OnlyChecked : Prop :=
  ∀ accepts, ∀ addr ∈ d.request urlparse httpxUrl accepts,
    Checked urlparse d.firstLookup d.url addr

/-- The client has no way to another address than those of the first lookup: an idle connection
to the origin leads to one of them, and without one the second lookup answers with some of
them. -/
def Pinned : Prop :=
  ∀ url ∈ httpxUrl d.url, ∀ first ∈ resolved urlparse d.firstLookup d.url,
    (∀ addr ∈ d.connection url.origin, addr ∈ first) ∧
      (d.connection url.origin = none →
        ∀ second ∈ d.secondLookup url.host, ∀ addr ∈ second, addr ∈ first)

end Delivery

/-! ### What the check accepts -/

section Accepted

variable {urlparse : String → Option ParseResult} {getaddrinfo : String → Lookup} {url : String}
variable {safeAddrs : List (String × ℕ)}

theorem safeAddr_eq_some {port : ℕ} {addr : String} {safe : String × ℕ}
    (h : safeAddr port addr = some safe) :
    safe.1 = addr ∧ ∃ ip ∈ ipAddress addr.toList,
      ip.isPrivate = false ∧ ip.isLoopback = false ∧ ip.isLinkLocal = false := by
  obtain ⟨ip, hip, h⟩ := Option.bind_eq_some_iff.mp h
  split at h
  · simp at h
  · rename_i hpublic
    obtain rfl := Option.some.inj h
    simp only [Bool.or_eq_true, not_or, Bool.not_eq_true] at hpublic
    exact ⟨rfl, ip, hip, hpublic.1.1, hpublic.1.2, hpublic.2⟩

theorem mapM_safeAddr_eq_some {port : ℕ} {addrs : List String}
    (h : addrs.mapM (safeAddr port) = some safeAddrs) :
    safeAddrs.map Prod.fst = addrs ∧
      ∀ safe ∈ safeAddrs, ∃ addr, safeAddr port addr = some safe := by
  refine ⟨?_, fun safe hsafe => ?_⟩
  · induction addrs generalizing safeAddrs with
    | nil =>
      obtain rfl : safeAddrs = [] := by simpa using h.symm
      rfl
    | cons addr addrs ih =>
      obtain ⟨safe, rest, hsafe, hrest, rfl⟩ := Fallible.mapM_cons_eq_some_iff.mp h
      rw [List.map_cons, ih hrest, (safeAddr_eq_some hsafe).1]
  · obtain ⟨addr, -, haddr⟩ := Fallible.exists_of_mem_mapM h safe hsafe
    exact ⟨addr, haddr⟩

/-- The check returns the addresses the resolver has answered with, and only safe ones. -/
theorem resolveSafeAddrs_eq_some (h : resolveSafeAddrs urlparse getaddrinfo url = some safeAddrs) :
    resolved urlparse getaddrinfo url = some (safeAddrs.map Prod.fst) ∧
      ∀ safe ∈ safeAddrs, ∃ port addr, safeAddr port addr = some safe := by
  simp only [resolveSafeAddrs, Option.bind_eq_bind, Option.bind_eq_some_iff] at h
  obtain ⟨parsed, hparsed, hostname, hhostname, port, -, addrs, haddrs, safe, hsafe, h⟩ := h
  split at h
  · simp at h
  · obtain rfl := Option.some.inj h
    obtain ⟨hmap, hall⟩ := mapM_safeAddr_eq_some hsafe
    refine ⟨?_, fun safe' hmem => ⟨_, hall safe' hmem⟩⟩
    rw [resolved, hparsed, Option.bind_some, hhostname, Option.bind_some, haddrs, hmap]

/-- Once the check has passed, the addresses that have passed it are those of the answer. -/
theorem checked_iff {addrs : List String}
    (h : resolveSafeAddrs urlparse getaddrinfo url = some safeAddrs)
    (haddrs : resolved urlparse getaddrinfo url = some addrs) (addr : String) :
    Checked urlparse getaddrinfo url addr ↔ addr ∈ addrs := by
  have hresolved := (resolveSafeAddrs_eq_some h).1
  obtain rfl := Option.some.inj (haddrs.symm.trans hresolved)
  constructor
  · rintro ⟨safeAddrs', hsafe', hmem⟩
    obtain rfl := Option.some.inj (hsafe'.symm.trans h)
    exact hmem
  · exact fun hmem => ⟨safeAddrs, h, hmem⟩

end Accepted

/-! ### What the client uses -/

namespace Delivery

variable {urlparse : String → Option ParseResult} {httpxUrl : String → Option HttpxUrl}
variable {d : Delivery} {url : HttpxUrl}

theorem post_of_connection {addr : String} (hurl : httpxUrl d.url = some url)
    (h : d.connection url.origin = some addr) (accepts : String → Bool) :
    d.post httpxUrl accepts = some addr := by
  rw [post, hurl, Option.bind_some, h]

theorem post_of_no_connection (hurl : httpxUrl d.url = some url)
    (h : d.connection url.origin = none) (accepts : String → Bool) :
    d.post httpxUrl accepts =
      (d.secondLookup url.host).bind fun addrs => addrs.find? accepts := by
  rw [post, hurl, Option.bind_some, h]

/-- A delivery sends where its client does, unless the check or the environment forbids it. -/
theorem request_eq (accepts : String → Bool)
    (h : d.development = false ∧ (resolveSafeAddrs urlparse d.firstLookup d.url).isSome) :
    d.request urlparse httpxUrl accepts = d.post httpxUrl accepts := by
  obtain ⟨safeAddrs, hsafe⟩ := Option.isSome_iff_exists.mp h.2
  rw [request, hsafe]
  rw [h.1, if_neg Bool.false_ne_true]

theorem request_eq_none (accepts : String → Bool)
    (h : ¬(d.development = false ∧ (resolveSafeAddrs urlparse d.firstLookup d.url).isSome)) :
    d.request urlparse httpxUrl accepts = none := by
  rw [request]
  rcases hsafe : resolveSafeAddrs urlparse d.firstLookup d.url with _ | safeAddrs
  · rfl
  · rw [hsafe] at h
    rw [if_pos]
    simpa using h

/-- **Webhook requests.** The request of a delivery can only go to an address that the delivery
has checked, if and only if nothing is sent at all or the client is pinned to the addresses of
the first lookup. -/
theorem onlyChecked_iff (urlparse : String → Option ParseResult)
    (httpxUrl : String → Option HttpxUrl) (d : Delivery) :
    d.OnlyChecked urlparse httpxUrl ↔
      (d.development = false ∧ (resolveSafeAddrs urlparse d.firstLookup d.url).isSome →
        d.Pinned urlparse httpxUrl) := by
  by_cases hsends : d.development = false ∧ (resolveSafeAddrs urlparse d.firstLookup d.url).isSome
  · obtain ⟨safeAddrs, hsafe⟩ := Option.isSome_iff_exists.mp hsends.2
    have hresolved := (resolveSafeAddrs_eq_some hsafe).1
    have hchecked := checked_iff hsafe hresolved
    rw [imp_iff_right hsends]
    constructor
    · intro h url hurl first hfirst
      obtain rfl := Option.some.inj (hfirst.symm.trans hresolved)
      refine ⟨fun addr haddr => ?_, fun hnone second hsecond addr haddr => ?_⟩
      · refine (hchecked addr).mp (h (fun _ => true) addr ?_)
        rw [request_eq _ hsends]
        exact post_of_connection hurl haddr _
      · -- only this address accepts a connection
        refine (hchecked addr).mp (h (fun addr' => addr' = addr) addr ?_)
        have hsome : (second.find? fun addr' => addr' = addr).isSome :=
          List.find?_isSome.mpr ⟨addr, haddr, decide_eq_true rfl⟩
        have hfind : second.find? (fun addr' => addr' = addr) = some addr := by
          obtain ⟨addr', h'⟩ := Option.isSome_iff_exists.mp hsome
          have heq : addr' = addr := by simpa using List.find?_some h'
          rw [h', heq]
        rw [request_eq _ hsends, post_of_no_connection hurl hnone, hsecond, Option.bind_some]
        exact hfind
    · intro h accepts addr haddr
      rw [request_eq _ hsends] at haddr
      obtain ⟨url, hurl, -⟩ := Option.bind_eq_some_iff.mp haddr
      obtain ⟨hidle, hnew⟩ := h url hurl _ hresolved
      refine (hchecked addr).mpr ?_
      rcases hconnection : d.connection url.origin with _ | addr'
      · rw [post_of_no_connection hurl hconnection] at haddr
        obtain ⟨second, hsecond, hfind⟩ := Option.bind_eq_some_iff.mp haddr
        exact hnew hconnection second hsecond addr (List.mem_of_find?_eq_some hfind)
      · rw [post_of_connection hurl hconnection] at haddr
        obtain rfl := Option.some.inj haddr
        exact hidle _ hconnection
  · refine iff_of_true (fun accepts addr haddr => ?_) fun h => absurd h hsends
    rw [request_eq_none accepts hsends] at haddr
    cases haddr

/-- The host of the endpoint has a public address when it is checked, and the loopback address
when the client connects. -/
def rebinding : Delivery where
  url := "https://hooks.example.com/x"
  firstLookup := fun _ => some ["93.184.216.34"]
  secondLookup := fun _ => some ["127.0.0.1"]

/-- The request goes to the loopback address. -/
theorem rebinding_not_onlyChecked :
    ¬rebinding.OnlyChecked
      (fun _ => some ⟨"https", some "hooks.example.com", some none⟩)
      (fun _ => some ⟨"https://hooks.example.com:443", "hooks.example.com"⟩) := by
  intro h
  obtain ⟨safeAddrs, hsafe, hmem⟩ := h (fun _ => true) "127.0.0.1" (by decide +kernel)
  have hresolved := (resolveSafeAddrs_eq_some hsafe).1
  rw [← Option.some.inj hresolved] at hmem
  revert hmem
  decide

end Delivery

end Rapidly.Messaging.Webhooks
