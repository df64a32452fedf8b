import Rapidly.Net.AddressText

/-!
# Addresses that the server does not fetch

`utils/private-ip.ts` of the web client. `isPrivateIP` compares the text of an address with the
beginnings that addresses of the private ranges have; `resolveAndValidateHostname` gives the caller
the address that the resolver returned, so that the caller does not resolve the name again.

Of an IPv4 address there is one text. An IPv6 address has many, and the function knows three first
groups in lower case and the two shortest texts. If the lookup fails, the name itself is returned
in the place of the address.

* `guard_iff`: for which texts `isPrivateIP` answers as its comment says, and for which names and
  answers of the resolver an address that is let through is outside the ranges.
-/

namespace Rapidly.Clients.Web

open Net

/-! ### `private-ip.ts` -/

/-- `BLOCKED_HOSTNAMES` -/
def blockedHostnames : List (List Char) :=
  ["localhost".toList, "metadata.google.internal".toList, "metadata.google".toList,
    "169.254.169.254".toList]

/-- What `1[6-9]|2\d|3[01]` matches. -/
def sixteenToThirtyOne : List (List Char) :=
  "6789".toList.map (['1', ·]) ++ "0123456789".toList.map (['2', ·]) ++ "01".toList.map (['3', ·])

/-- `isPrivateIP` -/
def isPrivateIP (ip : List Char) : Bool :=
  if ip = "127.0.0.1".toList || "127.".toList.isPrefixOf ip || ip = "0.0.0.0".toList ||
      "10.".toList.isPrefixOf ip || "192.168.".toList.isPrefixOf ip ||
      "169.254.".toList.isPrefixOf ip ||
      sixteenToThirtyOne.any fun octet => ("172.".toList ++ octet ++ ['.']).isPrefixOf ip then
    true
  else if ip = "::1".toList || ip = "::".toList || "fe80:".toList.isPrefixOf ip ||
      "fc00:".toList.isPrefixOf ip || "fd00:".toList.isPrefixOf ip then
    true
  else false

/-- `HostnameResolution` -/
structure HostnameResolution where
  address : List Char
  blocked : Bool
deriving DecidableEq

/-- `resolveAndValidateHostname`; `lookup` is that of `dns.promises`, `none` where it rejects. -/
def resolveAndValidateHostname (toLowerCase : List Char → List Char)
    (lookup : List Char → Option (List Char)) (hostname : List Char) : HostnameResolution :=
  let lower := toLowerCase hostname
  if blockedHostnames.contains lower then ⟨lower, true⟩
  else if isPrivateIP lower then ⟨lower, true⟩
  else
    match lookup lower with
    | some address => if isPrivateIP address then ⟨address, true⟩ else ⟨address, false⟩
    | none => ⟨lower, false⟩

/-! ### The documented ranges -/

/-- The ranges of the comment. -/
def documented4 : List (ℕ × ℕ) :=
  [network4 10 0 0 0 8, network4 172 16 0 0 12, network4 192 168 0 0 16, network4 127 0 0 0 8,
    network4 169 254 0 0 16, network4 0 0 0 0 32]

def documented6 : List (ℕ × ℕ) :=
  [(1, 0), (0, 0), network6 0xfe80 0 0 10, network6 0xfc00 0 0 7]

/-- The address is in one of the ranges, an IPv4-mapped one in that of the IPv4 address. -/
def InRanges : IpAddress → Prop
  | .v4 address => documented4.any (inNetwork address)
  | .v6 address => documented6.any (inNetwork address) ∨
      ∃ mapped ∈ IpAddress.ipv4Mapped address, documented4.any (inNetwork mapped)

/-- The address that a text stands for: as the resolver returns it, or as it stands in the host of
a URL, where an IPv6 address is in brackets. -/
def readAddress : List Char → Option IpAddress
  | '[' :: rest =>
    if rest.getLast? = some ']' then ((splitScopeId rest.dropLast).bind parseV6).map .v6 else none
  | text => ipAddress text

/-- The text of an address. -/
structure AddressText where
  text : List Char
  address : IpAddress
  reads : readAddress text = some address

theorem isPrivateIP_iff {ip : List Char} : isPrivateIP ip ↔
    (ip = "127.0.0.1".toList ∨ "127.".toList <+: ip ∨ ip = "0.0.0.0".toList ∨
      "10.".toList <+: ip ∨ "192.168.".toList <+: ip ∨ "169.254.".toList <+: ip ∨
      ∃ octet ∈ sixteenToThirtyOne, "172.".toList ++ octet ++ ['.'] <+: ip) ∨
    (ip = "::1".toList ∨ ip = "::".toList ∨ "fe80:".toList <+: ip ∨ "fc00:".toList <+: ip ∨
      "fd00:".toList <+: ip) := by
  rw [isPrivateIP]
  simp only [Bool.if_true_left, Bool.or_eq_true, decide_eq_true_eq, List.any_eq_true,
    List.isPrefixOf_iff_prefix, or_assoc, Bool.or_false]

/-! ### IPv4 -/

theorem dot_notMem_toDigits (n : ℕ) : '.' ∉ Nat.toDigits 10 n := fun h =>
  absurd (Nat.isDigit_of_mem_toDigits (by decide) (by decide) h) (by decide)

theorem colon_notMem_toDigits (n : ℕ) : ':' ∉ Nat.toDigits 10 n := fun h =>
  absurd (Nat.isDigit_of_mem_toDigits (by decide) (by decide) h) (by decide)

theorem toDigits_inj {m n : ℕ} : Nat.toDigits 10 m = Nat.toDigits 10 n ↔ m = n := by
  refine ⟨fun h => ?_, fun h => h ▸ rfl⟩
  rw [← @Nat.ofDigitChars_ten_toDigits m, h, Nat.ofDigitChars_ten_toDigits]

variable {a b c d : ℕ}

theorem colon_notMem_dotted (a b c d : ℕ) : ':' ∉ dotted a b c d := by
  have hdot : ':' ≠ '.' := by decide
  simp only [dotted, List.mem_append, List.mem_cons, colon_notMem_toDigits, hdot, or_self,
    not_false_eq_true]

theorem prefix_dotted_iff {octet : List Char} (hdot : '.' ∉ octet) :
    octet ++ ['.'] <+: dotted a b c d ↔ octet = Nat.toDigits 10 a := by
  rw [dotted, List.append_cons_prefix_iff hdot (dot_notMem_toDigits a)]
  exact and_iff_left List.nil_prefix

theorem prefix_dotted_iff₂ {octet octet' : List Char} (hdot : '.' ∉ octet) (hdot' : '.' ∉ octet') :
    octet ++ '.' :: (octet' ++ ['.']) <+: dotted a b c d ↔
      octet = Nat.toDigits 10 a ∧ octet' = Nat.toDigits 10 b := by
  rw [dotted, List.append_cons_prefix_iff hdot (dot_notMem_toDigits a),
    List.append_cons_prefix_iff hdot' (dot_notMem_toDigits b)]
  exact and_congr_right fun _ => and_iff_left List.nil_prefix

theorem dotted_eq_zero_iff : dotted a b c d = "0.0.0.0".toList ↔ a = 0 ∧ b = 0 ∧ c = 0 ∧ d = 0 := by
  have hzero : "0.0.0.0".toList = dotted 0 0 0 0 := by decide
  rw [hzero, dotted, dotted, List.append_cons_inj_left (dot_notMem_toDigits _)
      (dot_notMem_toDigits _), List.append_cons_inj_left (dot_notMem_toDigits _)
      (dot_notMem_toDigits _), List.append_cons_inj_left (dot_notMem_toDigits _)
      (dot_notMem_toDigits _), toDigits_inj, toDigits_inj, toDigits_inj, toDigits_inj]

theorem sixteenToThirtyOne_eq :
    sixteenToThirtyOne = (List.range' 16 16).map (Nat.toDigits 10) := by decide

theorem mem_sixteenToThirtyOne : Nat.toDigits 10 b ∈ sixteenToThirtyOne ↔ 16 ≤ b ∧ b ≤ 31 := by
  rw [sixteenToThirtyOne_eq, List.mem_map]
  simp only [toDigits_inj, exists_eq_right, List.mem_range'_1]
  omega

/-- The numbers that the two functions look at. -/
def Private4 (a b c d : ℕ) : Prop :=
  a = 127 ∨ (a = 0 ∧ b = 0 ∧ c = 0 ∧ d = 0) ∨ a = 10 ∨ (a = 192 ∧ b = 168) ∨
    (a = 169 ∧ b = 254) ∨ a = 172 ∧ 16 ≤ b ∧ b ≤ 31

theorem isPrivateIP_dotted : isPrivateIP (dotted a b c d) ↔ Private4 a b c d := by
  have hcolon := colon_notMem_dotted a b c d
  have hone (n : ℕ) (p : List Char) (hp : p = Nat.toDigits 10 n ++ ['.']) :
      p <+: dotted a b c d ↔ a = n := by
    rw [hp, prefix_dotted_iff (dot_notMem_toDigits n), toDigits_inj, eq_comm]
  have htwo (m n : ℕ) (p : List Char)
      (hp : p = Nat.toDigits 10 m ++ '.' :: (Nat.toDigits 10 n ++ ['.'])) :
      p <+: dotted a b c d ↔ a = m ∧ b = n := by
    rw [hp, prefix_dotted_iff₂ (dot_notMem_toDigits m) (dot_notMem_toDigits n), toDigits_inj,
      toDigits_inj, eq_comm, eq_comm (a := n)]
  have hsixteen : (∃ octet ∈ sixteenToThirtyOne,
      "172.".toList ++ octet ++ ['.'] <+: dotted a b c d) ↔ a = 172 ∧ 16 ≤ b ∧ b ≤ 31 := by
    have hdot : ∀ octet ∈ sixteenToThirtyOne, '.' ∉ octet := by decide
    have hform (octet : List Char) : "172.".toList ++ octet ++ ['.'] =
        Nat.toDigits 10 172 ++ '.' :: (octet ++ ['.']) := rfl
    rw [← mem_sixteenToThirtyOne]
    constructor
    · rintro ⟨octet, hoctet, hp⟩
      rw [hform, prefix_dotted_iff₂ (dot_notMem_toDigits 172) (hdot octet hoctet),
        toDigits_inj] at hp
      exact ⟨hp.1.symm, hp.2 ▸ hoctet⟩
    · rintro ⟨rfl, hb⟩
      refine ⟨_, hb, ?_⟩
      rw [hform, prefix_dotted_iff₂ (dot_notMem_toDigits 172) (dot_notMem_toDigits b)]
      exact ⟨rfl, rfl⟩
  rw [isPrivateIP_iff, hone 127 _ (by decide), hone 10 _ (by decide), htwo 192 168 _ (by decide),
    htwo 169 254 _ (by decide), hsixteen, dotted_eq_zero_iff, Private4]
  constructor
  · rintro ((hloopback | h) | h)
    · refine .inl ((hone 127 "127.".toList (by decide)).mp ?_)
      rw [hloopback]
      exact ⟨"0.0.1".toList, by decide⟩
    · exact h
    · -- the texts of IPv6 addresses have a colon
      refine absurd ?_ hcolon
      obtain h | h | h | h | h := h
      · exact h ▸ (by decide : ':' ∈ "::1".toList)
      · exact h ▸ (by decide : ':' ∈ "::".toList)
      · exact h.subset (by decide)
      · exact h.subset (by decide)
      · exact h.subset (by decide)
  · exact fun h => .inl (.inr h)

theorem documented4_dotted (ha : a ≤ 255) (hb : b ≤ 255) (hc : c ≤ 255) (hd : d ≤ 255) :
    documented4.any (inNetwork (((a * 256 + b) * 256 + c) * 256 + d)) ↔ Private4 a b c d := by
  simp only [documented4, List.any_cons, List.any_nil, Bool.or_false, Bool.or_eq_true,
    inNetwork_iff, network4, Private4]
  omega

theorem isPrivateIP_of_v4 {text : List Char} {address : ℕ} (h : parseV4 text = some address) :
    isPrivateIP text ↔ InRanges (.v4 address) := by
  obtain ⟨a, ha, b, hb, c, hc, d, hd, rfl, rfl⟩ := parseV4_eq_some h
  exact isPrivateIP_dotted.trans (documented4_dotted ha hb hc hd).symm

/-! ### IPv6 -/

/-- The texts of IPv6 addresses that the function knows. -/
def Known (text : List Char) : Prop :=
  text = "::1".toList ∨ text = "::".toList ∨
    text.takeWhile (· ≠ ':') ∈ ["fe80".toList, "fc00".toList, "fd00".toList]

section V6

variable {group rest text : List Char} {address : ℕ}

theorem colon_notMem_of_hex (h : ∀ c ∈ group, isHexDigit c) : ':' ∉ group := fun hmem =>
  absurd (h _ hmem) (by decide)

theorem takeWhile_group (h : ∀ c ∈ group, isHexDigit c) (rest : List Char) :
    (group ++ ':' :: rest).takeWhile (· ≠ ':') = group := by
  have hgroup : ∀ c ∈ group, decide (c ≠ ':') = true := fun c hc =>
    decide_eq_true fun heq => colon_notMem_of_hex h (heq ▸ hc)
  rw [List.takeWhile_append_of_pos hgroup, List.takeWhile_cons_of_neg (by simp), List.append_nil]

theorem not_prefix_of_dot (h : ∀ c ∈ group, isHexDigit c) {p : List Char} (hcolon : ':' ∉ p)
    (hdot : '.' ∈ p) : ¬p <+: group ++ ':' :: rest := fun hp =>
  absurd (h _ ((List.prefix_of_prefix_append_cons hcolon hp).subset hdot)) (by decide)

theorem prefix_group_iff (h : ∀ c ∈ group, isHexDigit c) {p : List Char} (hcolon : ':' ∉ p) :
    p ++ [':'] <+: group ++ ':' :: rest ↔ group = p := by
  rw [List.append_cons_prefix_iff hcolon (colon_notMem_of_hex h), eq_comm]
  exact and_iff_left List.nil_prefix

theorem isPrivateIP_group (h : ∀ c ∈ group, isHexDigit c) :
    isPrivateIP (group ++ ':' :: rest) ↔ Known (group ++ ':' :: rest) := by
  have hcolon : ':' ∈ group ++ ':' :: rest := List.mem_append_right _ List.mem_cons_self
  have hoctet : ∀ octet ∈ sixteenToThirtyOne, ':' ∉ "172.".toList ++ octet ++ ['.'] := by decide
  have hfe80 : "fe80:".toList <+: group ++ ':' :: rest ↔ group = "fe80".toList :=
    prefix_group_iff (p := "fe80".toList) h (by decide)
  have hfc00 : "fc00:".toList <+: group ++ ':' :: rest ↔ group = "fc00".toList :=
    prefix_group_iff (p := "fc00".toList) h (by decide)
  have hfd00 : "fd00:".toList <+: group ++ ':' :: rest ↔ group = "fd00".toList :=
    prefix_group_iff (p := "fd00".toList) h (by decide)
  rw [isPrivateIP_iff, Known, takeWhile_group h, hfe80, hfc00, hfd00]
  simp only [List.mem_cons, List.not_mem_nil, or_false]
  refine or_iff_right ?_
  -- the beginnings of IPv4 addresses have a dot
  rintro (heq | hp | heq | hp | hp | hp | ⟨octet, hmem, hp⟩)
  · exact absurd (heq ▸ hcolon) (by decide)
  · exact not_prefix_of_dot h (by decide) (by decide) hp
  · exact absurd (heq ▸ hcolon) (by decide)
  · exact not_prefix_of_dot h (by decide) (by decide) hp
  · exact not_prefix_of_dot h (by decide) (by decide) hp
  · exact not_prefix_of_dot h (by decide) (by decide) hp
  · exact not_prefix_of_dot h (hoctet octet hmem) List.mem_concat_self hp

theorem inRanges_of_known (hread : readAddress text = some (.v6 address)) (h : Known text)
    (htext : text = group ++ ':' :: rest) (hgroup : ∀ c ∈ group, isHexDigit c)
    (hvalue : group ≠ [] → address / 2 ^ 112 = ofHexDigits group) : InRanges (.v6 address) := by
  obtain rfl | rfl | hknown := h
  · obtain rfl : address = 1 := by
      have hone : readAddress "::1".toList = some (.v6 1) := by decide
      exact IpAddress.v6.inj (Option.some.inj (hread.symm.trans hone))
    exact .inl (by decide)
  · obtain rfl : address = 0 := by
      have hzero : readAddress "::".toList = some (.v6 0) := by decide
      exact IpAddress.v6.inj (Option.some.inj (hread.symm.trans hzero))
    exact .inl (by decide)
  · rw [htext, takeWhile_group hgroup] at hknown
    have hhigh : address / 2 ^ 112 = 0xfe80 ∨ address / 2 ^ 112 = 0xfc00 ∨
        address / 2 ^ 112 = 0xfd00 := by
      simp only [List.mem_cons, List.not_mem_nil, or_false] at hknown
      obtain rfl | rfl | rfl := hknown
      · exact .inl (hvalue (by decide))
      · exact .inr (.inl (hvalue (by decide)))
      · exact .inr (.inr (hvalue (by decide)))
    refine .inl ?_
    simp only [documented6, List.any_cons, List.any_nil, Bool.or_false, Bool.or_eq_true,
      inNetwork_iff, network6]
    omega

end V6

/-! ### Both guards -/

/-- `isPrivateIP` answers as documented. -/
def Judges (t : AddressText) : Prop := isPrivateIP t.text ↔ InRanges t.address

/-- The text is one that the function judges right. -/
def Spelled (t : AddressText) : Prop :=
  match t.address with
  | .v4 _ => True
  | .v6 _ => InRanges t.address → Known t.text

/-- What is not blocked comes with an address outside the ranges. -/
def Guards (toLowerCase : List Char → List Char) (lookup : List Char → Option AddressText)
    (hostname : List Char) : Prop :=
  let r := resolveAndValidateHostname toLowerCase (fun name => (lookup name).map AddressText.text)
    hostname
  r.blocked = false → ∃ address, readAddress r.address = some address ∧ ¬InRanges address

/-- The name is blocked as it stands, or the lookup returns a text that is judged right, or it fails
and the name is itself the text of an address outside the ranges. -/
def Answered (lookup : List Char → Option AddressText) (lower : List Char) : Prop :=
  lower ∈ blockedHostnames ∨ isPrivateIP lower ∨ (∃ t ∈ lookup lower, Spelled t) ∨
    lookup lower = none ∧ ∃ address, readAddress lower = some address ∧ ¬InRanges address

theorem isPrivateIP_bracket (rest : List Char) : isPrivateIP ('[' :: rest) = false := rfl

theorem not_known_bracket (rest : List Char) : ¬Known ('[' :: rest) := by
  rintro (h | h | h)
  · exact absurd (List.cons.inj h).1 (by decide)
  · exact absurd (List.cons.inj h).1 (by decide)
  · rw [List.takeWhile_cons_of_pos (by decide)] at h
    simp only [List.mem_cons, List.not_mem_nil, or_false] at h
    obtain h | h | h := h <;> exact absurd (List.cons.inj h).1 (by decide)

theorem readAddress_cases {text : List Char} {address : IpAddress}
    (h : readAddress text = some address) :
    (∃ rest value, text = '[' :: rest ∧ address = .v6 value) ∨ ipAddress text = some address := by
  rw [readAddress.eq_def] at h
  split at h
  next rest =>
    split at h
    next =>
      obtain ⟨value, -, rfl⟩ := Option.map_eq_some_iff.mp h
      exact .inl ⟨rest, value, rfl, rfl⟩
    next => cases h
  next => exact .inr h

theorem isPrivateIP_iff_of_v4 {text : List Char} {value : ℕ}
    (hread : readAddress text = some (.v4 value)) : isPrivateIP text ↔ InRanges (.v4 value) := by
  obtain ⟨_, _, -, hv6⟩ | hip := readAddress_cases hread
  · cases hv6
  · refine isPrivateIP_of_v4 ?_
    rw [ipAddress] at hip
    split at hip
    next parsed hparsed =>
      obtain rfl := IpAddress.v4.inj (Option.some.inj hip)
      exact hparsed
    next =>
      obtain ⟨_, -, hv6⟩ := Option.map_eq_some_iff.mp hip
      cases hv6

/-- Of the IPv6 addresses the known ones are private, and in one of the ranges. -/
theorem isPrivateIP_iff_of_v6 {text : List Char} {value : ℕ}
    (hread : readAddress text = some (.v6 value)) :
    (isPrivateIP text ↔ Known text) ∧ (Known text → InRanges (.v6 value)) := by
  obtain ⟨rest, _, rfl, -⟩ | hip := readAddress_cases hread
  · have hknown := not_known_bracket rest
    exact ⟨iff_of_false (by rw [isPrivateIP_bracket]; exact Bool.false_ne_true) hknown,
      fun h => absurd h hknown⟩
  · obtain ⟨group, rest, rfl, hgroup, hvalue⟩ := exists_firstGroup_of_ipAddress hip
    exact ⟨isPrivateIP_group hgroup, fun h => inRanges_of_known hread h rfl hgroup hvalue⟩

/-- **No address outside the ranges is taken for private.** -/
theorem inRanges_of_isPrivateIP (t : AddressText) (h : isPrivateIP t.text) :
    InRanges t.address := by
  obtain ⟨text, address, hread⟩ := t
  cases address with
  | v4 value => exact (isPrivateIP_iff_of_v4 hread).mp h
  | v6 value =>
    obtain ⟨hiff, hsound⟩ := isPrivateIP_iff_of_v6 hread
    exact hsound (hiff.mp h)

theorem judges_iff (t : AddressText) : Judges t ↔ Spelled t := by
  obtain ⟨text, address, hread⟩ := t
  cases address with
  | v4 value => exact iff_of_true (isPrivateIP_iff_of_v4 hread) trivial
  | v6 value =>
    obtain ⟨hiff, hsound⟩ := isPrivateIP_iff_of_v6 hread
    rw [Judges, Spelled]
    rw [hiff]
    exact ⟨Iff.mpr, fun h => ⟨hsound, h⟩⟩

section Resolving

variable {toLowerCase : List Char → List Char} {lookup : List Char → Option AddressText}
  {hostname : List Char} {r : HostnameResolution}

theorem guards_iff_of_eq (h : resolveAndValidateHostname toLowerCase
      (fun name => (lookup name).map AddressText.text) hostname = r) :
    Guards toLowerCase lookup hostname ↔
      (r.blocked = false → ∃ address, readAddress r.address = some address ∧ ¬InRanges address) :=
  h ▸ Iff.rfl

theorem guards_iff_answered :
    Guards toLowerCase lookup hostname ↔ Answered lookup (toLowerCase hostname) := by
  rw [Answered, ← List.contains_iff_mem]
  by_cases hlist : blockedHostnames.contains (toLowerCase hostname)
  · rw [guards_iff_of_eq (if_pos hlist)]
    refine iff_of_true (fun h => ?_) (.inl hlist)
    cases h
  by_cases hprivate : isPrivateIP (toLowerCase hostname)
  · rw [guards_iff_of_eq ((if_neg hlist).trans (if_pos hprivate))]
    refine iff_of_true (fun h => ?_) (.inr (.inl hprivate))
    cases h
  rw [or_iff_right hlist, or_iff_right hprivate]
  cases hlookup : lookup (toLowerCase hostname) with
  | none =>
    have hresult : resolveAndValidateHostname toLowerCase
        (fun name => (lookup name).map AddressText.text) hostname =
          ⟨toLowerCase hostname, false⟩ := by
      rw [resolveAndValidateHostname, if_neg hlist, if_neg hprivate, hlookup]
      rfl
    rw [guards_iff_of_eq hresult]
    simp only [forall_const, reduceCtorEq, Option.mem_def, false_and, exists_false, false_or,
      true_and]
  | some answer =>
    have hresult : resolveAndValidateHostname toLowerCase
        (fun name => (lookup name).map AddressText.text) hostname =
          ⟨answer.text, isPrivateIP answer.text⟩ := by
      rw [resolveAndValidateHostname, if_neg hlist, if_neg hprivate, hlookup]
      cases hanswer : isPrivateIP answer.text with
      | true => exact if_pos hanswer
      | false => exact if_neg (Bool.eq_false_iff.mp hanswer)
    rw [guards_iff_of_eq hresult]
    simp only [reduceCtorEq, Option.mem_def, Option.some_inj, exists_eq_left', false_and, or_false,
      answer.reads, ← judges_iff, Judges]
    constructor
    · intro h
      refine ⟨inRanges_of_isPrivateIP answer, fun hin => ?_⟩
      rw [← Bool.not_eq_false]
      exact fun hpublic => h hpublic hin
    · intro h hpublic hin
      rw [h.mpr hin] at hpublic
      cases hpublic

end Resolving

/-- `isPrivateIP` answers as documented exactly for the texts that are spelled as it knows them, and
what is not blocked is outside the ranges exactly where the name or the answer of the resolver is
such a text. -/
theorem guard_iff (t : AddressText) (toLowerCase : List Char → List Char)
    (lookup : List Char → Option AddressText) (hostname : List Char) :
    (Judges t ↔ Spelled t) ∧
      (Guards toLowerCase lookup hostname ↔ Answered lookup (toLowerCase hostname)) :=
  ⟨judges_iff t, guards_iff_answered⟩

/-- A unique local address whose first group is neither `fc00` nor `fd00`. -/
def uniqueLocal : AddressText where
  text := "fd12::1".toList
  address := .v6 (0xfd12 * 2 ^ 112 + 1)
  reads := by decide

/-- It is not taken for private, and a name that the resolver does not know is let through. -/
theorem not_judges_uniqueLocal :
    ¬Judges uniqueLocal ∧ ¬Guards id (fun _ => none) "intranet".toList := by
  constructor
  · intro h
    exact absurd (h.mpr (.inl (by decide))) (by decide)
  · intro h
    obtain ⟨address, hread, -⟩ := h rfl
    have hnone : readAddress "intranet".toList = none := by decide
    cases hnone.symm.trans hread

end Rapidly.Clients.Web
