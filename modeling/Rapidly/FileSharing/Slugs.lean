import Mathlib.Data.List.Infix
import Rapidly.FileSharing.Payments.Repository
import Rapidly.FileSharing.ShareLink

/-!
# Slugs

`validate_slug` of `sharing/file_sharing/guards.py` and `isValidSlugFormat` of
`utils/file-sharing/url-parser.ts` check the slug of a channel with the same pattern. But `$` is
not the same in both languages: in Python it is also in front of a final line feed.

* `isValidSlugFormat_iff`: what the page accepts is a slug.
* `slugsAgree_iff`: the two agree, unless there is a line feed behind a slug.
-/

namespace Rapidly.FileSharing

open Payments (Slug validSlug isLowerAlphanum)

structure HTTPException where
  statusCode : ℕ
  detail : String
deriving DecidableEq

/-- `validate_slug`. The first check is the pattern's (`Payments.validSlug`). -/
def validateSlug (slug : Slug) : Except HTTPException Slug :=
  if !validSlug slug then .error ⟨400, "Invalid slug format"⟩
  else if ['.', '.'] <:+: slug.toList then .error ⟨400, "Invalid slug format"⟩
  else .ok slug

/-- A slug: up to 256 lower-case letters, digits, hyphens and slashes, at least two of them, the
first of them a letter or a digit. -/
structure IsSlug (slug : List Char) : Prop where
  two_le : 2 ≤ slug.length
  le_256 : slug.length ≤ 256
  start : ∀ c ∈ slug.head?, isSlugStart c
  chars : ∀ c ∈ slug, isSlugChar c

section Slugs

variable {slug rest : List Char} {c : Char}

theorem isSlug_cons_iff : IsSlug (c :: rest) ↔
    isSlugStart c ∧ (∀ d ∈ rest, isSlugChar d) ∧ 1 ≤ rest.length ∧ rest.length ≤ 255 := by
  constructor
  · rintro ⟨htwo, hmost, hstart, hchars⟩
    exact ⟨hstart c rfl, fun d hd => hchars d (List.mem_cons_of_mem c hd),
      Nat.le_of_succ_le_succ htwo, Nat.le_of_succ_le_succ hmost⟩
  · rintro ⟨hstart, hrest, hone, hmost⟩
    have hc : isSlugChar c := by
      rw [isSlugStart] at hstart
      rw [isSlugChar, hstart]
      rfl
    refine ⟨Nat.succ_le_succ hone, Nat.succ_le_succ hmost, fun d hd => ?_,
      List.forall_mem_cons.mpr ⟨hc, hrest⟩⟩
    exact Option.some.inj hd ▸ hstart

theorem groupMatches_safeSlug_iff : Text.GroupMatches safeSlug slug ↔ IsSlug slug := by
  rw [safeSlug, Text.GroupMatches]
  simp only [Text.groupMatches_singleton, Text.Repeated.Matches, Text.one, Option.mem_some_iff,
    forall_eq']
  constructor
  · rintro ⟨first, rest, rfl, ⟨hstart, hone, hmost⟩, hrest, hleast, hlast⟩
    obtain ⟨c, rfl⟩ := List.length_eq_one_iff.mp (Nat.le_antisymm hmost hone)
    exact isSlug_cons_iff.mpr ⟨hstart c (List.mem_singleton_self c), hrest, hleast, hlast⟩
  · intro h
    cases slug with
    | nil => exact absurd h.two_le (by decide)
    | cons c rest =>
      obtain ⟨hstart, hrest, hleast, hlast⟩ := isSlug_cons_iff.mp h
      exact ⟨[c], rest, rfl, ⟨fun d hd => List.mem_singleton.mp hd ▸ hstart, Nat.le_refl 1,
        Nat.le_refl 1⟩, hrest, hleast, hlast⟩

theorem isValidSlugFormat_iff : isValidSlugFormat slug ↔ IsSlug slug := by
  rw [isValidSlugFormat, Text.isSome_captures_iff, ← groupMatches_safeSlug_iff]
  constructor
  · exact fun h => groupMatches_safeSlug (Text.isSome_captures_iff.mpr h)
  · exact fun h => ⟨[slug], slug, [], [], rfl, (List.append_nil slug).symm, h, rfl, rfl⟩

theorem validSlug_ofList (slug : List Char) : validSlug (String.ofList slug) ↔
    IsSlug (if slug.getLast? = some '\n' then slug.dropLast else slug) := by
  rw [validSlug, String.toList_ofList]
  cases if slug.getLast? = some '\n' then slug.dropLast else slug with
  | nil => exact iff_of_false Bool.false_ne_true fun h => absurd h.two_le (by decide)
  | cons c rest =>
    rw [isSlug_cons_iff]
    simp only [Bool.and_eq_true, decide_eq_true_eq, List.all_eq_true, and_assoc]
    exact ⟨fun ⟨hc, hone, hmost, hrest⟩ => ⟨hc, hrest, hone, hmost⟩,
      fun ⟨hc, hrest, hone, hmost⟩ => ⟨hc, hone, hmost, hrest⟩⟩

theorem IsSlug.notMem {d : Char} (h : IsSlug slug) (hd : isSlugChar d = false) : d ∉ slug :=
  fun hmem => Bool.false_ne_true (hd.symm.trans (h.chars d hmem))

theorem IsSlug.not_lineFeed (h : IsSlug (slug ++ ['\n'])) : False :=
  h.notMem (by decide) (List.mem_append_right slug (List.mem_singleton_self _))

/-- The server accepts the slugs, and each of them with a line feed behind it. -/
theorem validSlug_iff (slug : Slug) : validSlug slug ↔
    IsSlug slug.toList ∨ ∃ front, IsSlug front ∧ slug.toList = front ++ ['\n'] := by
  have hread := validSlug_ofList slug.toList
  rw [String.ofList_toList] at hread
  rw [hread]
  split
  next hlast =>
    have hsplit : slug.toList = slug.toList.dropLast ++ ['\n'] :=
      (List.dropLast_append_getLast? _ hlast).symm
    constructor
    · exact fun h => .inr ⟨_, h, hsplit⟩
    · rintro (h | ⟨front, hfront, hfeed⟩)
      · exact ((hsplit ▸ h : IsSlug (slug.toList.dropLast ++ ['\n'])).not_lineFeed).elim
      · rwa [hfeed, List.dropLast_concat]
  next hlast =>
    refine (or_iff_left ?_).symm
    rintro ⟨front, -, hfeed⟩
    exact hlast (by rw [hfeed, List.getLast?_concat])

theorem validateSlug_eq_ok_iff {slug : Slug} : validateSlug slug = .ok slug ↔ validSlug slug := by
  rw [validateSlug]
  cases hvalid : validSlug slug with
  | false =>
    refine iff_of_false (fun h => ?_) Bool.false_ne_true
    rw [Bool.not_false, if_pos rfl] at h
    exact absurd h (by simp)
  | true =>
    have hdots : ¬['.', '.'] <:+: slug.toList := by
      intro hinfix
      have hdot : '.' ∈ slug.toList := hinfix.subset List.mem_cons_self
      obtain h | ⟨front, h, hfeed⟩ := (validSlug_iff slug).mp hvalid
      · exact h.notMem (by decide) hdot
      · rw [hfeed] at hdot
        obtain hdot | hdot := List.mem_append.mp hdot
        · exact h.notMem (by decide) hdot
        · exact absurd (List.mem_singleton.mp hdot) (by decide)
    exact iff_of_true (if_neg hdots) rfl

/-- The server, the page and the description of slugs agree on a text. -/
def SlugsAgree (slug : Slug) : Prop :=
  (validateSlug slug = .ok slug ↔ isValidSlugFormat slug.toList) ∧
    (isValidSlugFormat slug.toList ↔ IsSlug slug.toList) ∧
    (validateSlug slug = .ok slug ↔ IsSlug slug.toList)

/-- **Agreement.** Only a slug with a line feed behind it is accepted by one and not by the
other. -/
theorem slugsAgree_iff (slug : Slug) :
    SlugsAgree slug ↔ ¬∃ front, IsSlug front ∧ slug.toList = front ++ ['\n'] := by
  rw [SlugsAgree, validateSlug_eq_ok_iff, isValidSlugFormat_iff, validSlug_iff]
  constructor
  · rintro ⟨hagree, -, -⟩ ⟨front, hfront, hfeed⟩
    have hslug := hagree.mp (.inr ⟨front, hfront, hfeed⟩)
    exact (hfeed ▸ hslug : IsSlug (front ++ ['\n'])).not_lineFeed
  · intro h
    exact ⟨or_iff_left h, Iff.rfl, or_iff_left h⟩

theorem not_slugsAgree_lineFeed : ¬∀ slug : Slug, SlugsAgree slug := by
  intro h
  have hserver : validateSlug "ab\n" = .ok "ab\n" := validateSlug_eq_ok_iff.mpr (by decide)
  have hpage : isValidSlugFormat "ab\n".toList = false := by decide
  exact Bool.false_ne_true (hpage.symm.trans ((h "ab\n").1.mp hserver))

end Slugs

end Rapidly.FileSharing
