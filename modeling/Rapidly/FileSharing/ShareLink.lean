import Rapidly.Json.Value
import Rapidly.Text.Pattern
import Rapidly.Text.Separators

/-!
# Share links

The URLs that `buildFileShareURL` of `utils/file-sharing/constants.ts` makes, and `parseHash` of
`utils/file-sharing/url-parser.ts`, which reads their fragments again.

A slug can have segments that look like the markers in front of the key, the salt and the password
hash. But the parts behind the slug have no slash, and so the last markers are the right ones:
`parseHash_hash` says that the slug, the key and the salt come back as they were, and the hash in
lower case.
-/

namespace Rapidly.FileSharing

open Text

/-! ### Building -/

/-- `buildFileShareURL`, with `window.location.origin` for the origin. -/
def buildFileShareURL (origin slug exportedKey exportedSalt : List Char) : List Char :=
  origin ++ ("/#/d/".toList ++ slug ++ "/k/".toList ++ exportedKey ++ "/s/".toList ++ exportedSalt)

/-- The end of a link that carries the hash of its password. -/
def passwordSuffix : Option (List Char) → List Char
  | none => []
  | some password => "/p/".toList ++ password

/-- `window.location.hash` of a URL whose fragment has no characters to escape. -/
def locationHash (url : List Char) : List Char :=
  let hash := url.dropWhile (· ≠ '#')
  if hash = ['#'] then [] else hash

/-! ### Classes of characters -/

/-- `[a-z0-9]` -/
def isSlugStart (c : Char) : Bool := c.isLower || c.isDigit

/-- `[a-z0-9/\-]` -/
def isSlugChar (c : Char) : Bool := c.isLower || c.isDigit || c = '/' || c = '-'

/-- `[A-Za-z0-9_-]` -/
def isBase64url (c : Char) : Bool := c.isAlphanum || c = '_' || c = '-'

/-- `.` -/
def isInLine (c : Char) : Bool :=
  c ≠ '\n' && c ≠ '\r' && c ≠ Char.ofNat 0x2028 && c ≠ Char.ofNat 0x2029

/-- `SAFE_SLUG` -/
def safeSlug : List Repeated := [one isSlugStart, ⟨isSlugChar, 1, some 255⟩]

/-- `[A-Za-z0-9_-]+` -/
def base64url : List Repeated := [many isBase64url]

/-- `[a-fA-F0-9]{64}` -/
def sha256Hex : List Repeated := [⟨Char.isHexDigit, 64, some 64⟩]

def isValidSlugFormat (slug : List Char) : Bool := (captures [.group safeSlug] slug).isSome

/-! ### `atob` -/

/-- Tab, line feed, form feed, carriage return and space. -/
def isAsciiSpace (c : Char) : Bool := c = '\t' || c = '\n' || c = '\x0c' || c = '\r' || c = ' '

/-- The value of a character of the Base64 alphabet. -/
def sixBits (c : Char) : Option Nat :=
  if c.isUpper then some (c.toNat - 65)
  else if c.isLower then some (c.toNat - 71)
  else if c.isDigit then some (c.toNat + 4)
  else if c = '+' then some 62
  else if c = '/' then some 63
  else none

/-- The characters that groups of six bits make up. -/
def octets : List Nat → List Char
  | a :: b :: c :: d :: rest =>
    Char.ofNat (4 * a + b / 16) :: Char.ofNat (b % 16 * 16 + c / 4) ::
      Char.ofNat (c % 4 * 64 + d) :: octets rest
  | [a, b, c] => [Char.ofNat (4 * a + b / 16), Char.ofNat (b % 16 * 16 + c / 4)]
  | [a, b] => [Char.ofNat (4 * a + b / 16)]
  | _ => []

/-- The text without up to two `=` at its end. -/
def withoutPadding (text : List Char) : List Char :=
  match text.reverse with
  | '=' :: '=' :: rest | '=' :: rest => rest.reverse
  | _ => text

/-- `atob`; nothing is returned where it throws. -/
def atob (text : List Char) : Option (List Char) :=
  let data := text.filter (!isAsciiSpace ·)
  let data := if data.length % 4 = 0 then withoutPadding data else data
  if data.length % 4 = 1 then none else (data.mapM sixBits).map octets

/-! ### Parsing -/

inductive ParsedHash where
  | secret (type uuid : List Char) (password : Option (List Char))
  | fileSharing (slug : List Char) (encryptionKey hkdfSalt password : Option (List Char))
  | password (password : List Char)
deriving DecidableEq

/-- `toLowerCase` of a hash. -/
def toLowerCase (hash : List Char) : List Char := hash.map Char.toLower

/-- `#/p/{base64_password}` -/
def passwordPattern : Pattern := [.fixed "#/p/".toList, .group [many isInLine]]

/-- `#/s/{uuid}/{password}` and `#/f/{uuid}/{password}` -/
def secretWithPasswordPattern : Pattern :=
  [.fixed "#/".toList, .group [one fun c => c = 's' || c = 'f'], .fixed "/".toList,
    .group [many (· ≠ '/')], .fixed "/".toList, .group [many isInLine]]

/-- `#/s/{uuid}` and `#/f/{uuid}` -/
def secretPattern : Pattern :=
  [.fixed "#/".toList, .group [one fun c => c = 's' || c = 'f'], .fixed "/".toList,
    .group [many (· ≠ '/')]]

/-- `#/d/{slug}/k/{key}/s/{salt}/p/{sha256_hex}` -/
def keySaltPasswordPattern : Pattern :=
  [.fixed "#/d/".toList, .group safeSlug, .fixed "/k/".toList, .group base64url,
    .fixed "/s/".toList, .group base64url, .fixed "/p/".toList, .group sha256Hex]

/-- `#/d/{slug}/k/{key}/s/{salt}` -/
def keySaltPattern : Pattern :=
  [.fixed "#/d/".toList, .group safeSlug, .fixed "/k/".toList, .group base64url,
    .fixed "/s/".toList, .group base64url]

/-- `#/d/{slug}/k/{base64url_key}/p/{sha256_hex}` -/
def keyPasswordPattern : Pattern :=
  [.fixed "#/d/".toList, .group safeSlug, .fixed "/k/".toList, .group base64url,
    .fixed "/p/".toList, .group sha256Hex]

/-- `#/d/{slug}/k/{base64url_key}` -/
def keyPattern : Pattern :=
  [.fixed "#/d/".toList, .group safeSlug, .fixed "/k/".toList, .group base64url]

/-- `#/d/{slug}/p/{sha256_hex}` -/
def slugPasswordPattern : Pattern :=
  [.fixed "#/d/".toList, .group safeSlug, .fixed "/p/".toList, .group sha256Hex]

/-- `#/d/{slug}` -/
def slugPattern : Pattern := [.fixed "#/d/".toList, .group safeSlug]

/-- The first branch of `parseHash`: what is no Base64 falls through. -/
def parsePassword (hash : List Char) : Option ParsedHash :=
  match captures passwordPattern hash with
  | some [encoded] =>
    if (Json.ofText encoded).length ≤ 1024 then (atob encoded).map .password else none
  | _ => none

def parseHash (hash : List Char) : Option ParsedHash :=
  match parsePassword hash with
  | some parsed => some parsed
  | none =>
  match captures secretWithPasswordPattern hash with
  | some [type, uuid, password] => some (.secret type uuid (some password))
  | _ =>
  match captures secretPattern hash with
  | some [type, uuid] => some (.secret type uuid none)
  | _ =>
  match captures keySaltPasswordPattern hash with
  | some [slug, key, salt, password] =>
    some (.fileSharing slug (some key) (some salt) (some (toLowerCase password)))
  | _ =>
  match captures keySaltPattern hash with
  | some [slug, key, salt] => some (.fileSharing slug (some key) (some salt) none)
  | _ =>
  match captures keyPasswordPattern hash with
  | some [slug, key, password] =>
    some (.fileSharing slug (some key) none (some (toLowerCase password)))
  | _ =>
  match captures keyPattern hash with
  | some [slug, key] => some (.fileSharing slug (some key) none none)
  | _ =>
  match captures slugPasswordPattern hash with
  | some [slug, password] => some (.fileSharing slug none none (some (toLowerCase password)))
  | _ =>
  match captures slugPattern hash with
  | some [slug] => some (.fileSharing slug none none none)
  | _ => none

/-! ### Links -/

/-- What a link is built from. -/
structure ShareLink where
  slug : List Char
  key : List Char
  salt : List Char
  password : Option (List Char)
  valid_slug : isValidSlugFormat slug = true
  valid_key : GroupMatches base64url key
  valid_salt : GroupMatches base64url salt
  valid_password : ∀ hash ∈ password, GroupMatches sha256Hex hash

namespace ShareLink

/-- The URL of the link. -/
def url (link : ShareLink) (origin : List Char) : List Char :=
  buildFileShareURL origin link.slug link.key link.salt ++ passwordSuffix link.password

/-- What the parts of the link are parsed as. -/
def parsed (link : ShareLink) (password : Option (List Char)) : ParsedHash :=
  .fileSharing link.slug (some link.key) (some link.salt) password

end ShareLink

/-! ### The last markers -/

section Markers

variable {front front' y y' slug key salt : List Char} {m m' : Char} {items : List Repeated}

theorem slash_notMem_base64url (h : GroupMatches base64url y) : '/' ∉ y := by
  rw [base64url, groupMatches_singleton] at h
  exact fun hmem => absurd (h.1 _ hmem) (by decide)

theorem slash_notMem_sha256Hex (h : GroupMatches sha256Hex y) : '/' ∉ y := by
  rw [sha256Hex, groupMatches_singleton] at h
  exact fun hmem => absurd (h.1 _ hmem) (by decide)

/-- The text with a marker and a part behind it. -/
def withPart (front : List Char) (marker : Char) (part : List Char) : List Char :=
  front ++ '/' :: marker :: '/' :: part

/-- The last marker and what stands around it are determined if the part behind it has no slash. -/
theorem withPart_inj (hy : '/' ∉ y) (hy' : '/' ∉ y') :
    withPart front m y = withPart front' m' y' ↔ front = front' ∧ m = m' ∧ y = y' := by
  have hmove (x z : List Char) (n : Char) : withPart x n z = (x ++ ['/', n]) ++ '/' :: z := by
    rw [withPart, List.append_assoc]
    rfl
  rw [hmove, hmove, List.append_cons_inj_right hy hy']
  constructor
  · rintro ⟨hfront, rfl⟩
    obtain ⟨rfl, hmarker⟩ := List.append_inj' hfront rfl
    exact ⟨rfl, (List.cons.inj (List.cons.inj hmarker).2).1, rfl⟩
  · rintro ⟨rfl, rfl, rfl⟩
    exact ⟨rfl, rfl⟩

theorem fill_keySalt : fill keySaltPattern [slug, key, salt] =
    withPart (withPart ("#/d/".toList ++ slug) 'k' key) 's' salt := by
  simp [fill, keySaltPattern, withPart]

theorem fill_keySaltPassword : fill keySaltPasswordPattern [slug, key, salt, y] =
    withPart (withPart (withPart ("#/d/".toList ++ slug) 'k' key) 's' salt) 'p' y := by
  simp [fill, keySaltPasswordPattern, withPart]

theorem admits_keySalt {found : List (List Char)} : Admits keySaltPattern found ↔
    ∃ slug key salt, found = [slug, key, salt] ∧ GroupMatches safeSlug slug ∧
      GroupMatches base64url key ∧ GroupMatches base64url salt := by
  constructor
  · rintro ⟨slug, -, rfl, hslug, key, -, rfl, hkey, salt, -, rfl, hsalt, rfl⟩
    exact ⟨slug, key, salt, rfl, hslug, hkey, hsalt⟩
  · rintro ⟨slug, key, salt, rfl, hslug, hkey, hsalt⟩
    exact ⟨slug, _, rfl, hslug, key, _, rfl, hkey, salt, _, rfl, hsalt, rfl⟩

theorem admits_keySaltPassword {found : List (List Char)} :
    Admits keySaltPasswordPattern found ↔
      ∃ slug key salt hash, found = [slug, key, salt, hash] ∧ GroupMatches safeSlug slug ∧
        GroupMatches base64url key ∧ GroupMatches base64url salt ∧
        GroupMatches sha256Hex hash := by
  constructor
  · rintro ⟨slug, -, rfl, hslug, key, -, rfl, hkey, salt, -, rfl, hsalt, hash, -, rfl, hhash, rfl⟩
    exact ⟨slug, key, salt, hash, rfl, hslug, hkey, hsalt, hhash⟩
  · rintro ⟨slug, key, salt, hash, rfl, hslug, hkey, hsalt, hhash⟩
    exact ⟨slug, _, rfl, hslug, key, _, rfl, hkey, salt, _, rfl, hsalt, hash, _, rfl, hhash, rfl⟩

end Markers

/-! ### Which branch is taken -/

section Branches

variable {slug key salt hash : List Char}

theorem groupMatches_safeSlug (h : isValidSlugFormat slug = true) : GroupMatches safeSlug slug := by
  obtain ⟨found, hfound⟩ := isSome_captures_iff.mp h
  obtain ⟨taken, more, rest, -, rfl, hslug, -, rfl⟩ := hfound
  rwa [List.append_nil]

/-- A fragment with another letter in front than those of passwords and secrets. -/
theorem not_fits_of_download {p : Pattern} {found : List (List Char)} {rest : List Char}
    (hp : p = passwordPattern ∨ p = secretWithPasswordPattern ∨ p = secretPattern) :
    ¬Fits p found ("#/d/".toList ++ rest) := by
  rw [fits_iff]
  rintro ⟨hadmits, hfill⟩
  obtain rfl | hsecret := hp
  · exact absurd (List.cons.inj (List.cons.inj (List.cons.inj hfill).2).2).1 (by decide)
  · have hletter : ∃ letter more, found = letter :: more ∧
        GroupMatches [one fun c => c = 's' || c = 'f'] letter ∧
        'd' :: '/' :: rest = letter ++ fill (p.drop 2) more := by
      obtain rfl | rfl := hsecret
      all_goals
        obtain ⟨letter, more, rfl, hletter, -⟩ := hadmits
        exact ⟨letter, more, rfl, hletter, (List.cons.inj (List.cons.inj hfill).2).2⟩
    obtain ⟨letter, more, rfl, hmatches, hrest⟩ := hletter
    rw [groupMatches_singleton] at hmatches
    cases letter with
    | nil => exact absurd hmatches.2.1 (by decide)
    | cons c letter =>
      obtain ⟨rfl, -⟩ := List.cons.inj hrest
      exact absurd (hmatches.1 _ List.mem_cons_self) (by decide)

theorem parseHash_download (rest : List Char) :
    captures passwordPattern ("#/d/".toList ++ rest) = none ∧
    captures secretWithPasswordPattern ("#/d/".toList ++ rest) = none ∧
    captures secretPattern ("#/d/".toList ++ rest) = none :=
  ⟨captures_eq_none_iff.mpr fun _ => not_fits_of_download (.inl rfl),
    captures_eq_none_iff.mpr fun _ => not_fits_of_download (.inr (.inl rfl)),
    captures_eq_none_iff.mpr fun _ => not_fits_of_download (.inr (.inr rfl))⟩

theorem captures_keySaltPassword (hslug : GroupMatches safeSlug slug)
    (hkey : GroupMatches base64url key) (hsalt : GroupMatches base64url salt)
    (hhash : GroupMatches sha256Hex hash) :
    captures keySaltPasswordPattern (fill keySaltPasswordPattern [slug, key, salt, hash]) =
      some [slug, key, salt, hash] := by
  apply captures_eq_some
  · rw [fits_iff, admits_keySaltPassword]
    exact ⟨⟨slug, key, salt, hash, rfl, hslug, hkey, hsalt, hhash⟩, rfl⟩
  · intro other hother
    rw [fits_iff, admits_keySaltPassword] at hother
    obtain ⟨⟨slug', key', salt', hash', rfl, -, hkey', hsalt', hhash'⟩, hfill⟩ := hother
    rw [fill_keySaltPassword, fill_keySaltPassword,
      withPart_inj (slash_notMem_sha256Hex hhash) (slash_notMem_sha256Hex hhash'),
      withPart_inj (slash_notMem_base64url hsalt) (slash_notMem_base64url hsalt'),
      withPart_inj (slash_notMem_base64url hkey) (slash_notMem_base64url hkey'),
      List.append_cancel_left_eq] at hfill
    obtain ⟨⟨⟨rfl, -, rfl⟩, -, rfl⟩, -, rfl⟩ := hfill
    rfl

theorem captures_keySaltPassword_keySalt (hsalt : GroupMatches base64url salt) :
    captures keySaltPasswordPattern (fill keySaltPattern [slug, key, salt]) = none := by
  rw [captures_eq_none_iff]
  intro found hfits
  rw [fits_iff, admits_keySaltPassword] at hfits
  obtain ⟨⟨slug', key', salt', hash', rfl, -, -, -, hhash'⟩, hfill⟩ := hfits
  rw [fill_keySaltPassword, fill_keySalt,
    withPart_inj (slash_notMem_base64url hsalt) (slash_notMem_sha256Hex hhash')] at hfill
  exact absurd hfill.2.1 (by decide)

theorem captures_keySalt (hslug : GroupMatches safeSlug slug)
    (hkey : GroupMatches base64url key) (hsalt : GroupMatches base64url salt) :
    captures keySaltPattern (fill keySaltPattern [slug, key, salt]) = some [slug, key, salt] := by
  apply captures_eq_some
  · rw [fits_iff, admits_keySalt]
    exact ⟨⟨slug, key, salt, rfl, hslug, hkey, hsalt⟩, rfl⟩
  · intro other hother
    rw [fits_iff, admits_keySalt] at hother
    obtain ⟨⟨slug', key', salt', rfl, -, hkey', hsalt'⟩, hfill⟩ := hother
    rw [fill_keySalt, fill_keySalt,
      withPart_inj (slash_notMem_base64url hsalt) (slash_notMem_base64url hsalt'),
      withPart_inj (slash_notMem_base64url hkey) (slash_notMem_base64url hkey'),
      List.append_cancel_left_eq] at hfill
    obtain ⟨⟨rfl, -, rfl⟩, -, rfl⟩ := hfill
    rfl

end Branches

/-! ### The round trip -/

section RoundTrip

variable {origin : List Char} {link : ShareLink}

theorem locationHash_url (h : '#' ∉ origin) (link : ShareLink) :
    locationHash (link.url origin) =
      fill keySaltPattern [link.slug, link.key, link.salt] ++ passwordSuffix link.password := by
  have horigin : ∀ c ∈ origin, decide (c ≠ '#') = true := fun c hc =>
    decide_eq_true fun hsame => h (hsame ▸ hc)
  have hhash : (link.url origin).dropWhile (· ≠ '#') =
      fill keySaltPattern [link.slug, link.key, link.salt] ++ passwordSuffix link.password := by
    rw [ShareLink.url, buildFileShareURL, List.append_assoc, List.dropWhile_append_of_pos horigin]
    simp [fill, keySaltPattern]
  rw [locationHash, hhash, if_neg]
  intro hshort
  cases (List.cons.inj hshort).2

theorem parseHash_hash (h : '#' ∉ origin) (link : ShareLink) :
    parseHash (locationHash (link.url origin)) =
      some (link.parsed (link.password.map toLowerCase)) := by
  have hslug := groupMatches_safeSlug link.valid_slug
  rw [locationHash_url h]
  cases hpassword : link.password with
  | none =>
    rw [passwordSuffix, List.append_nil, ShareLink.parsed, Option.map_none]
    obtain ⟨hfirst, hsecond, hthird⟩ := parseHash_download
      (fill keySaltPattern.tail [link.slug, link.key, link.salt])
    have hfill : fill keySaltPattern [link.slug, link.key, link.salt] =
      "#/d/".toList ++ fill keySaltPattern.tail [link.slug, link.key, link.salt] := rfl
    rw [← hfill] at hfirst hsecond hthird
    simp only [parseHash, parsePassword, hfirst, hsecond, hthird,
      captures_keySaltPassword_keySalt link.valid_salt,
      captures_keySalt hslug link.valid_key link.valid_salt]
  | some hash =>
    have hhash := link.valid_password hash hpassword
    have hfill : fill keySaltPattern [link.slug, link.key, link.salt] ++
        passwordSuffix (some hash) =
          fill keySaltPasswordPattern [link.slug, link.key, link.salt, hash] := by
      simp [fill, keySaltPattern, keySaltPasswordPattern, passwordSuffix]
    obtain ⟨hfirst, hsecond, hthird⟩ := parseHash_download
      (fill keySaltPasswordPattern.tail [link.slug, link.key, link.salt, hash])
    have htail : fill keySaltPasswordPattern [link.slug, link.key, link.salt, hash] =
      "#/d/".toList ++
        fill keySaltPasswordPattern.tail [link.slug, link.key, link.salt, hash] := rfl
    rw [← htail] at hfirst hsecond hthird
    rw [hfill, ShareLink.parsed, Option.map_some]
    simp only [parseHash, parsePassword, hfirst, hsecond, hthird,
      captures_keySaltPassword hslug link.valid_key link.valid_salt hhash]

theorem toLower_eq_self_iff {c : Char} : c.toLower = c ↔ c.isUpper = false := by
  change (if _ : c.val ≥ 'A'.val ∧ c.val ≤ 'Z'.val then Char.mk _ _ else c) = c ↔
    decide (c.val ≥ 'A'.val ∧ c.val ≤ 'Z'.val) = false
  constructor
  · intro h
    split at h
    case isTrue hrange =>
      have hval := congrArg Char.val h
      simp at hval
    case isFalse hrange => simpa using hrange
  · intro h
    rw [dif_neg]
    simpa using h

theorem toLowerCase_eq_self_iff {hash : List Char} :
    toLowerCase hash = hash ↔ ∀ c ∈ hash, c.isUpper = false := by
  have hself : toLowerCase hash = hash ↔ hash.map Char.toLower = hash.map id := by
    rw [List.map_id, toLowerCase]
  simp only [hself, List.map_inj_left, id, toLower_eq_self_iff]

/-- The parts of a link come back from its URL, with the hash of its password in lower case. -/
theorem parseHash_url (h : '#' ∉ origin) (link : ShareLink) :
    parseHash (locationHash (link.url origin)) =
      some (link.parsed (link.password.map toLowerCase)) ∧
    (parseHash (locationHash (link.url origin)) = some (link.parsed link.password) ↔
      ∀ hash ∈ link.password, ∀ c ∈ hash, c.isUpper = false) := by
  refine ⟨parseHash_hash h link, ?_⟩
  rw [parseHash_hash h link]
  cases hpassword : link.password with
  | none => simp
  | some hash => simp [ShareLink.parsed, toLowerCase_eq_self_iff]

end RoundTrip

/-- A link whose slug has the markers, and whose hash is in upper case. -/
def markedLink : ShareLink where
  slug := "a/k/b/s/c".toList
  key := "K-1".toList
  salt := "_s".toList
  password := some (List.replicate 64 'A')
  valid_slug := by decide +kernel
  valid_key := groupMatches_singleton.mpr (by decide)
  valid_salt := groupMatches_singleton.mpr (by decide)
  valid_password := fun hash h => by
    obtain rfl := Option.some.inj h
    exact groupMatches_singleton.mpr (by decide +kernel)

theorem parseHash_url_marked :
    parseHash (locationHash (markedLink.url "https://rapidly.tech".toList)) =
      some (markedLink.parsed (markedLink.password.map toLowerCase)) ∧
    (parseHash (locationHash (markedLink.url "https://rapidly.tech".toList)) =
        some (markedLink.parsed markedLink.password) ↔
      ∀ hash ∈ markedLink.password, ∀ c ∈ hash, c.isUpper = false) :=
  parseHash_url (by decide) markedLink

/-- A hash in upper case comes back in lower case. -/
theorem upperCase_lowered :
    parseHash (locationHash (markedLink.url "https://rapidly.tech".toList)) ≠
      some (markedLink.parsed markedLink.password) := by
  decide +kernel

end Rapidly.FileSharing
