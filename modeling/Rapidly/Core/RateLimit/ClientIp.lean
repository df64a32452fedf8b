import Rapidly.FileSharing.Payments.BuyerFingerprint

/-!
# The address of a client

`core/rate_limit.py` has two functions for it. `resolve_client_ip` has a request, whose headers
`starlette` decodes as Latin-1; it is `Scope.resolveClientIp`. `resolve_client_ip_from_scope` has
the scope of the connection, and decodes the header as ASCII itself; where that fails it goes on
without the header.

* `resolveClientIp_eq_iff`: when the two agree.
* `sameForAll_iff`: what a client puts into `X-Forwarded-For` makes no difference exactly if there
  are proxies in front of the application and the client has no private address like theirs.
-/

namespace Rapidly.Core.RateLimit

open FileSharing.Payments (Scope isSpace strip isTrustedProxy)

/-! ### The scope of a connection -/

/-- What the server hands over: names and values of headers in bytes, the names in lower case. -/
structure AsgiScope where
  headers : List (List UInt8 × List UInt8) := []
  /-- `client`: host and port. -/
  client : Option (String × ℕ) := none
deriving DecidableEq

/-- `bytes.decode("latin-1")` -/
def latin1 (bytes : List UInt8) : List Char := bytes.map fun b => Char.ofNat b.toNat

/-- `bytes.decode("ascii")`, nothing where it raises `UnicodeDecodeError`. -/
def ascii (bytes : List UInt8) : Option (List Char) :=
  if bytes.all (· < 0x80) then some (latin1 bytes) else none

/-- `b"x-forwarded-for"` -/
def xForwardedFor : List UInt8 := "x-forwarded-for".toList.map fun c => .ofNat c.toNat

/-- The parts between the commas that are not blank. -/
def elements (xff : List Char) : List (List Char) :=
  ((xff.splitOn ',').map strip).filter (· ≠ [])

/-- The last element that is no trusted proxy. -/
def lastUntrusted (xff : List Char) : Option (List Char) :=
  (elements xff).reverse.find? fun raw => !isTrustedProxy raw

namespace AsgiScope

variable (s : AsgiScope)

/-- `Request(scope)`, as far as `resolve_client_ip` reads it. -/
def request : Scope where
  headers := s.headers.map fun h => (String.ofList (latin1 h.1), String.ofList (latin1 h.2))
  client := s.client.map Prod.fst

/-- `resolve_client_ip_from_scope` -/
def resolveClientIpFromScope : String :=
  let xff := match s.headers.lookup xForwardedFor with
    | none => []
    | some xffBytes => (ascii xffBytes).getD []
  match lastUntrusted xff with
  | some raw => String.ofList raw
  | none =>
    match s.client with
    | some (host, _) => host
    | none => "unknown"

end AsgiScope

section Agreement

variable {s : AsgiScope} {bytes bytes' : List UInt8}

theorem ascii_of_forall (h : ∀ b ∈ bytes, b < 0x80) : ascii bytes = some (latin1 bytes) :=
  if_pos (List.all_eq_true.mpr fun b hb => decide_eq_true (h b hb))

theorem ascii_eq_none (h : ¬∀ b ∈ bytes, b < 0x80) : ascii bytes = none :=
  if_neg fun hall => h fun b hb => of_decide_eq_true (List.all_eq_true.mp hall b hb)

theorem latin1_injective : latin1.Injective := by
  refine List.map_injective_iff.mpr fun b b' h => ?_
  have hvalid (b : UInt8) : b.toNat.isValidChar := by
    have hlt := b.toNat_lt
    exact .inl (by omega)
  rw [Char.ofNat, Char.ofNat, dif_pos (hvalid b), dif_pos (hvalid b')] at h
  have hnat : b.toNat = b'.toNat := congrArg Char.toNat h
  exact UInt8.toNat_inj.mp hnat

theorem latin1_xForwardedFor : String.ofList (latin1 xForwardedFor) = "x-forwarded-for" := by
  decide

theorem lookup_request (s : AsgiScope) : s.request.headers.lookup "x-forwarded-for" =
    (s.headers.lookup xForwardedFor).map fun bytes => String.ofList (latin1 bytes) := by
  rw [AsgiScope.request]
  induction s.headers with
  | nil => rfl
  | cons h headers ih =>
    rw [List.map_cons, List.lookup_cons, List.lookup_cons, ih, ← latin1_xForwardedFor]
    have hname : (String.ofList (latin1 xForwardedFor) == String.ofList (latin1 h.1)) =
        (xForwardedFor == h.1) := by
      rw [Bool.eq_iff_iff, beq_iff_eq, beq_iff_eq, String.ofList_inj, latin1_injective.eq_iff]
    rw [hname]
    split
    · rfl
    · rfl

theorem resolveClientIp_request (s : AsgiScope) : s.request.resolveClientIp =
    match (s.headers.lookup xForwardedFor).bind fun bytes => lastUntrusted (latin1 bytes) with
    | some raw => String.ofList raw
    | none => s.request.webSocketIp := by
  have hentries : s.request.forwardedFor =
      ((s.headers.lookup xForwardedFor).map fun bytes => elements (latin1 bytes)).getD [] := by
    rw [Scope.forwardedFor, lookup_request]
    cases s.headers.lookup xForwardedFor with
    | none => rfl
    | some bytes =>
      rw [Option.map_some, Option.map_some]
      dsimp only
      rw [String.toList_ofList]
      rfl
  rw [Scope.resolveClientIp, hentries]
  cases s.headers.lookup xForwardedFor with
  | none => rfl
  | some bytes => rfl

theorem resolveClientIpFromScope_eq (s : AsgiScope) : s.resolveClientIpFromScope =
    match (s.headers.lookup xForwardedFor).bind fun bytes =>
      (ascii bytes).bind lastUntrusted with
    | some raw => String.ofList raw
    | none => s.request.webSocketIp := by
  have hpeer : s.request.webSocketIp = match s.client with
      | some (host, _) => host
      | none => "unknown" := by
    rw [Scope.webSocketIp, AsgiScope.request]
    cases s.client with
    | none => rfl
    | some client => rfl
  rw [AsgiScope.resolveClientIpFromScope, hpeer]
  cases s.headers.lookup xForwardedFor with
  | none => rfl
  | some bytes =>
    dsimp only [Option.bind_some]
    cases ascii bytes with
    | none => rfl
    | some xff => rfl

/-- **Agreement.** The two functions give the same address exactly if the first `X-Forwarded-For`
is ASCII, or reports no other client than the peer. -/
theorem resolveClientIp_eq_iff (s : AsgiScope) :
    s.request.resolveClientIp = s.resolveClientIpFromScope ↔
      (∀ bytes ∈ s.headers.lookup xForwardedFor, ∀ b ∈ bytes, b < 0x80) ∨
        s.request.ReportsPeer id := by
  by_cases hascii : ∀ bytes ∈ s.headers.lookup xForwardedFor, ∀ b ∈ bytes, b < 0x80
  · refine iff_of_true ?_ (.inl hascii)
    rw [resolveClientIp_request, resolveClientIpFromScope_eq]
    cases hxff : s.headers.lookup xForwardedFor with
    | none => rfl
    | some bytes =>
      rw [Option.bind_some, Option.bind_some, ascii_of_forall (hascii bytes hxff)]
      rfl
  · -- the header is not decoded, and what is left is the peer
    have hscope : s.resolveClientIpFromScope = s.request.webSocketIp := by
      rw [resolveClientIpFromScope_eq]
      cases hxff : s.headers.lookup xForwardedFor with
      | none => rfl
      | some bytes =>
        rw [hxff] at hascii
        rw [Option.bind_some, ascii_eq_none fun hall => hascii (by simpa using hall)]
        rfl
    rw [hscope, or_iff_right hascii, ← Scope.hashIp_resolveClientIp_iff]
    rfl

/-- A client in front of a proxy, with a letter outside ASCII in the header. -/
def accented : AsgiScope where
  headers := [(xForwardedFor, 0xe9 :: ", 8.8.8.8".toList.map fun c => .ofNat c.toNat)]
  client := some ("10.0.0.1", 443)

theorem resolveClientIp_accented : ¬∀ s : AsgiScope,
    s.request.resolveClientIp = s.resolveClientIpFromScope := by
  intro h
  have hrequest : accented.request.resolveClientIp = "8.8.8.8" := by decide +kernel
  have hscope : accented.resolveClientIpFromScope = "10.0.0.1" := by decide +kernel
  have hsame := h accented
  rw [hrequest, hscope] at hsame
  exact absurd hsame (by decide)

end Agreement

/-! ### Requests through proxies -/

/-- An address as a proxy writes it into `X-Forwarded-For`. -/
structure Address where
  text : List Char
  nonempty : text ≠ []
  plain : ∀ c ∈ text, c ≠ ',' ∧ isSpace c = false

/-- A trusted proxy, which has a private address. -/
structure Proxy extends Address where
  trusted : isTrustedProxy text

/-- What a proxy makes of `X-Forwarded-For`: it appends the peer that it sees. -/
def forward (xff : Option (List Char)) (peer : Address) : List Char :=
  match xff with
  | none => peer.text
  | some value => value ++ ',' :: ' ' :: peer.text

/-- The request of a peer, as it comes through the proxies to the application. -/
def arrive (others : List (String × String)) (xff : Option (List Char)) (peer : Address) :
    List Proxy → Scope
  | [] =>
    { headers := (xff.map fun value => ("x-forwarded-for", String.ofList value)).toList ++ others
      client := some (String.ofList peer.text) }
  | proxy :: proxies => arrive others (some (forward xff peer)) proxy.toAddress proxies

section Spoofing

variable {others : List (String × String)} {xff : Option (List Char)} {value raw : List Char}
  {client peer : Address} {proxies : List Proxy}

theorem Address.strip_text (peer : Address) : strip peer.text = peer.text := by
  have hspace : ∀ c ∈ peer.text, ¬isSpace c := fun c hc => by simp [(peer.plain c hc).2]
  have hleft : peer.text.dropWhile isSpace = peer.text :=
    List.dropWhile_eq_self_iff.mpr fun h => hspace _ (List.getElem_mem h)
  rw [strip, hleft]
  exact List.rdropWhile_eq_self_iff.mpr fun h => hspace _ (List.getLast_mem h)

theorem Address.strip_cons_text (peer : Address) : strip (' ' :: peer.text) = peer.text := by
  have hblank : (' ' :: peer.text).dropWhile isSpace = peer.text.dropWhile isSpace :=
    List.dropWhile_cons_of_pos (by decide)
  rw [strip, hblank, ← strip, peer.strip_text]

theorem Address.comma_notMem (peer : Address) : ',' ∉ peer.text :=
  fun h => (peer.plain _ h).1 rfl

theorem elements_forward (xff : Option (List Char)) (peer : Address) :
    elements (forward xff peer) = (xff.map elements).getD [] ++ [peer.text] := by
  have hkept : [peer.text].filter (· ≠ []) = [peer.text] :=
    List.filter_eq_self.mpr (by simpa using peer.nonempty)
  cases xff with
  | none =>
    rw [forward, elements, List.splitOn_eq_singleton peer.comma_notMem, List.map_singleton,
      peer.strip_text, hkept]
    rfl
  | some value =>
    have hcomma : ',' ∉ ' ' :: peer.text := by simpa using peer.comma_notMem
    rw [forward, elements, List.splitOn_append_cons_self, List.splitOn_eq_singleton hcomma,
      List.map_append, List.map_singleton, peer.strip_cons_text, List.filter_append, hkept]
    rfl

theorem lastUntrusted_forward_of_trusted (hpeer : isTrustedProxy peer.text) :
    lastUntrusted (forward xff peer) = xff.bind lastUntrusted := by
  rw [lastUntrusted, elements_forward, List.reverse_append, List.reverse_singleton,
    List.singleton_append, List.find?_cons_of_neg (by simp [hpeer])]
  cases xff with
  | none => rfl
  | some value => rfl

theorem lastUntrusted_forward_of_untrusted (hpeer : isTrustedProxy peer.text = false) :
    lastUntrusted (forward xff peer) = some peer.text := by
  rw [lastUntrusted, elements_forward, List.reverse_append, List.reverse_singleton,
    List.singleton_append, List.find?_cons_of_pos (by simp [hpeer])]

theorem resolveClientIp_arrive_of_reported (hvalue : lastUntrusted value = some raw)
    (hpeer : proxies ≠ [] → isTrustedProxy peer.text) :
    (arrive others (some value) peer proxies).resolveClientIp = String.ofList raw := by
  induction proxies generalizing value peer with
  | nil =>
    have hentries : (arrive others (some value) peer []).forwardedFor = elements value := by
      rw [arrive, Scope.forwardedFor]
      dsimp only [Option.map_some, Option.toList_some, List.singleton_append]
      rw [List.lookup_cons_self]
      dsimp only
      rw [String.toList_ofList]
      rfl
    rw [Scope.resolveClientIp, hentries, ← lastUntrusted, hvalue]
  | cons proxy proxies ih =>
    rw [arrive]
    refine ih ?_ fun _ => proxy.trusted
    rw [lastUntrusted_forward_of_trusted (hpeer (List.cons_ne_nil _ _))]
    exact hvalue

theorem resolveClientIp_arrive (hclient : isTrustedProxy client.text = false)
    (hproxies : proxies ≠ []) :
    (arrive others xff client proxies).resolveClientIp = String.ofList client.text := by
  obtain ⟨proxy, proxies, rfl⟩ := List.exists_cons_of_ne_nil hproxies
  exact resolveClientIp_arrive_of_reported (lastUntrusted_forward_of_untrusted hclient)
    fun _ => proxy.trusted

/-- **No spoofing.** What the client itself writes into `X-Forwarded-For` makes no difference
exactly if it comes through a proxy and is not taken for one. -/
theorem sameForAll_iff (others : List (String × String)) (client : Address)
    (proxies : List Proxy) :
    (∀ xff xff', (arrive others xff client proxies).resolveClientIp =
        (arrive others xff' client proxies).resolveClientIp) ↔
      proxies ≠ [] ∧ isTrustedProxy client.text = false := by
  constructor
  · intro h
    by_contra hexposed
    -- the client claims two public addresses
    have hfound (raw : List Char) (hraw : lastUntrusted raw = some raw) :
        (arrive others (some raw) client proxies).resolveClientIp = String.ofList raw :=
      resolveClientIp_arrive_of_reported hraw fun hne => by simpa [hne] using hexposed
    have hsame := h (some "8.8.8.8".toList) (some "1.1.1.1".toList)
    rw [hfound _ (by decide +kernel), hfound _ (by decide +kernel), String.ofList_inj] at hsame
    exact absurd hsame (by decide)
  · rintro ⟨hproxies, hclient⟩ xff xff'
    rw [resolveClientIp_arrive hclient hproxies, resolveClientIp_arrive hclient hproxies]

theorem plain_of_all {text : List Char} (h : text.all fun c => c ≠ ',' ∧ isSpace c = false) :
    ∀ c ∈ text, c ≠ ',' ∧ isSpace c = false :=
  fun c hc => of_decide_eq_true (List.all_eq_true.mp h c hc)

/-- A client inside the network, and the load balancer in front of the application. -/
def insider : Address := ⟨"10.1.2.3".toList, by decide, plain_of_all (by decide)⟩

def loadBalancer : Proxy :=
  ⟨⟨"10.0.0.1".toList, by decide, plain_of_all (by decide)⟩, by decide +kernel⟩

theorem resolveClientIp_insider : ¬∀ (client : Address) (proxies : List Proxy)
    (xff xff' : Option (List Char)), (arrive [] xff client proxies).resolveClientIp =
      (arrive [] xff' client proxies).resolveClientIp := by
  intro h
  have hclaimed : (arrive [] (some "8.8.8.8".toList) insider [loadBalancer]).resolveClientIp =
      "8.8.8.8" := by decide +kernel
  have hplain : (arrive [] none insider [loadBalancer]).resolveClientIp = "10.0.0.1" := by
    decide +kernel
  have hsame := h insider [loadBalancer] (some "8.8.8.8".toList) none
  rw [hclaimed, hplain] at hsame
  exact absurd hsame (by decide)

end Spoofing

end Rapidly.Core.RateLimit
