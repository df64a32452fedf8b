import Mathlib.Data.List.Infix
import Mathlib.Data.List.ReduceOption
import Rapidly.Text.Trim

/-!
# File names on the server

`sanitize_filename` of `integrations/aws/s3/types.py`, for every string of Python, a list of code
points in which a surrogate may stand alone.

Pairs of dots are deleted first, and then the dangerous characters and the control characters. So
the name falls into `units`, pairs of dots and single characters, some of which go and some of
which stay, and two dots that stay meet when all between them goes. The blanks at the ends are
deleted before the name is cut, so that the cut can bring a blank to the end.

* `sanitized_iff`: the result is as it should be exactly if neither happens in its 255 characters.
-/

namespace Rapidly.Integrations.S3

/-- A string of Python. -/
abbrev CodePoints := List ℕ

def dot : ℕ := 0x2e

/-- `_DANGEROUS_CHARS_RE` -/
def isDangerous (c : ℕ) : Bool := c ∈ "/\\:*?\"<>|".toList.map Char.toNat

/-- `_CONTROL_CHARS_RE` -/
def isControl (c : ℕ) : Bool := c ≤ 0x1f || c = 0x7f

/-- `str.isspace` of one character. -/
def isSpace (c : ℕ) : Bool :=
  c ∈ [0x20, 0x85, 0xa0, 0x1680, 0x2028, 0x2029, 0x202f, 0x205f, 0x3000] ||
    (9 ≤ c && c ≤ 13) || (0x1c ≤ c && c ≤ 0x1f) || (0x2000 ≤ c && c ≤ 0x200a)

/-- `".." in text` -/
def hasDotPair : CodePoints → Bool
  | c :: d :: rest => (c = dot && d = dot) || hasDotPair (d :: rest)
  | _ => false

/-- `text.replace("..", "")` -/
def replaceDotPairs : CodePoints → CodePoints
  | c :: d :: rest =>
    if c = dot ∧ d = dot then replaceDotPairs rest else c :: replaceDotPairs (d :: rest)
  | text => text

/-- `while ".." in cleaned: cleaned = cleaned.replace("..", "")`; as many rounds as there are
characters are enough. -/
def removeDotPairs : ℕ → CodePoints → CodePoints
  | 0, cleaned => cleaned
  | rounds + 1, cleaned =>
    if hasDotPair cleaned then removeDotPairs rounds (replaceDotPairs cleaned) else cleaned

/-- `text.strip()` -/
def strip (text : CodePoints) : CodePoints := text.trim isSpace

/-- `sanitize_filename` -/
def sanitizeFilename (name : CodePoints) : CodePoints :=
  let cleaned := removeDotPairs name.length name
  let cleaned := cleaned.filter (!isDangerous ·)
  let cleaned := cleaned.filter (!isControl ·)
  let cleaned := (strip cleaned).take 255
  if cleaned ≠ [] then cleaned else "unnamed_file".toList.map Char.toNat

/-- What the function is for. -/
structure Sanitized (result : CodePoints) : Prop where
  nonempty : result ≠ []
  length_le : result.length ≤ 255
  noTraversal : ¬[dot, dot] <:+: result
  clean : ∀ c ∈ result, isDangerous c = false ∧ isControl c = false
  fixed : sanitizeFilename result = result

/-! ### Units -/

/-- The units of a name, from the left: `none` is a pair of dots. -/
def units : CodePoints → List (Option ℕ)
  | [] => []
  | [c] => [some c]
  | c :: d :: rest => if c = dot ∧ d = dot then none :: units rest else some c :: units (d :: rest)

/-- The character of a unit that is not deleted. -/
def stays (unit : Option ℕ) : Option ℕ := unit.filter fun c => !isDangerous c && !isControl c

/-- How many characters stay of some units, without blanks in front. -/
def room (front : List (Option ℕ)) : ℕ := ((front.filterMap stays).dropWhile isSpace).length

/-- Two single dots between which everything goes, and which the cut does not part. -/
def DotsMeet (name : CodePoints) : Prop :=
  ∃ front mid back, units name = front ++ some dot :: (mid ++ some dot :: back) ∧
    (∀ u ∈ mid, stays u = none) ∧ room front + 2 ≤ 255

/-- A blank that stays as the last character before the cut; it is not the last one of all. -/
def BlankAtCut (name : CodePoints) : Prop :=
  ∃ front c back, units name = front ++ some c :: back ∧ stays (some c) = some c ∧ isSpace c ∧
    room front = 254 ∧ ∃ d ∈ back.filterMap stays, isSpace d = false

/-- The characters that stay. -/
def kept (name : CodePoints) : CodePoints := (units name).filterMap stays

section Deleting

variable {name text : CodePoints} {c : ℕ}

theorem hasDotPair_iff : hasDotPair text ↔ [dot, dot] <:+: text := by
  induction text with
  | nil => simp [hasDotPair]
  | cons c text ih =>
    rw [List.infix_cons_iff]
    cases text with
    | nil => simp [hasDotPair]
    | cons d rest =>
      rw [hasDotPair, Bool.or_eq_true, ih]
      simp [List.cons_prefix_cons, eq_comm (a := dot)]

theorem replaceDotPairs_eq (text : CodePoints) :
    replaceDotPairs text = (units text).reduceOption := by
  induction text using units.induct with
  | case1 => rfl
  | case2 c => rfl
  | case3 c d rest h ih => rw [replaceDotPairs, units, if_pos h, if_pos h, ih]; rfl
  | case4 c d rest h ih => rw [replaceDotPairs, units, if_neg h, if_neg h, ih]; rfl

theorem replaceDotPairs_cons (h : c ≠ dot) (text : CodePoints) :
    replaceDotPairs (c :: text) = c :: replaceDotPairs text := by
  cases text with
  | nil => rfl
  | cons d rest => rw [replaceDotPairs, if_neg fun hdots => h hdots.1]

theorem hasDotPair_cons (h : c ≠ dot) (text : CodePoints) :
    hasDotPair (c :: text) = hasDotPair text := by
  cases text with
  | nil => rfl
  | cons d rest => rw [hasDotPair, decide_eq_false h, Bool.false_and, Bool.false_or]

/-- One round deletes all pairs: dots that are left had an odd number of dots around them. -/
theorem hasDotPair_replaceDotPairs (text : CodePoints) :
    hasDotPair (replaceDotPairs text) = false := by
  induction text using units.induct with
  | case1 => rfl
  | case2 c => rfl
  | case3 c d rest h ih =>
    rw [replaceDotPairs, if_pos h]
    exact ih
  | case4 c d rest h ih =>
    rw [replaceDotPairs, if_neg h]
    by_cases hc : c = dot
    · have hd : d ≠ dot := fun hd => h ⟨hc, hd⟩
      rw [replaceDotPairs_cons hd] at ih ⊢
      rw [hasDotPair, decide_eq_false hd, Bool.and_false, Bool.false_or]
      exact ih
    · rw [hasDotPair_cons hc]
      exact ih

theorem replaceDotPairs_of_noPair (h : hasDotPair text = false) : replaceDotPairs text = text := by
  induction text using units.induct with
  | case1 => rfl
  | case2 c => rfl
  | case3 c d rest hdots ih => simp [hasDotPair, hdots] at h
  | case4 c d rest hdots ih =>
    rw [hasDotPair, Bool.or_eq_false_iff] at h
    rw [replaceDotPairs, if_neg hdots, ih h.2]

theorem removeDotPairs_of_noPair (rounds : ℕ) (h : hasDotPair text = false) :
    removeDotPairs rounds text = text := by
  cases rounds with
  | zero => rfl
  | succ rounds => rw [removeDotPairs, if_neg (by rw [h]; exact Bool.false_ne_true)]

theorem removeDotPairs_length (name : CodePoints) :
    removeDotPairs name.length name = replaceDotPairs name := by
  cases hpair : hasDotPair name with
  | false => rw [removeDotPairs_of_noPair _ hpair, replaceDotPairs_of_noPair hpair]
  | true =>
    cases name with
    | nil => cases hpair
    | cons c name =>
      rw [List.length_cons, removeDotPairs, if_pos hpair]
      exact removeDotPairs_of_noPair _ (hasDotPair_replaceDotPairs _)

theorem sanitizeFilename_eq (name : CodePoints) : sanitizeFilename name =
    if (strip (kept name)).take 255 ≠ [] then (strip (kept name)).take 255
    else "unnamed_file".toList.map Char.toNat := by
  have hkept : ((removeDotPairs name.length name).filter (!isDangerous ·)).filter (!isControl ·) =
      kept name := by
    rw [removeDotPairs_length, replaceDotPairs_eq, List.filter_filter, kept, List.reduceOption,
      List.filter_filterMap]
    refine List.filterMap_congr fun u _ => ?_
    cases u with
    | none => rfl
    | some c => simp [stays, Option.filter, Bool.and_comm]
  rw [sanitizeFilename, hkept]

theorem clean_of_mem_kept (h : c ∈ kept name) : isDangerous c = false ∧ isControl c = false := by
  obtain ⟨u, -, hu⟩ := List.mem_filterMap.mp h
  obtain ⟨-, hc⟩ := Option.filter_eq_some_iff.mp hu
  simpa using hc

theorem kept_of_clean (hpair : hasDotPair text = false)
    (hclean : ∀ c ∈ text, isDangerous c = false ∧ isControl c = false) : kept text = text := by
  have hstays : ∀ u ∈ units text, stays u = u := by
    intro u hu
    cases u with
    | none => rfl
    | some c =>
      have hc : c ∈ (units text).reduceOption := List.reduceOption_mem_iff.mpr hu
      rw [← replaceDotPairs_eq, replaceDotPairs_of_noPair hpair] at hc
      obtain ⟨hdangerous, hcontrol⟩ := hclean c hc
      simp [stays, Option.filter, hdangerous, hcontrol]
  rw [kept, List.filterMap_congr hstays]
  exact (replaceDotPairs_eq text).symm.trans (replaceDotPairs_of_noPair hpair)

end Deleting

/-! ### Where characters meet -/

section Meeting

variable {name : CodePoints}

theorem stays_eq_some {u : Option ℕ} {c : ℕ} (h : stays u = some c) : u = some c :=
  (Option.filter_eq_some_iff.mp h).1

theorem stays_dot : stays (some dot) = some dot := by decide

theorem dotsMeet_iff : DotsMeet name ↔ [dot, dot] <:+: (strip (kept name)).take 255 := by
  have hdot : isSpace dot = false := by decide
  rw [List.infix_take_iff]
  constructor
  · rintro ⟨front, mid, back, hunits, hmid, hroom⟩
    have hkept : kept name =
        front.filterMap stays ++ dot :: ([] ++ dot :: back.filterMap stays) := by
      rw [kept, hunits, List.filterMap_append, List.filterMap_cons_some stays_dot,
        List.filterMap_append, List.filterMap_cons_some stays_dot,
        List.filterMap_eq_nil_iff.mpr hmid]
    refine ⟨(front.filterMap stays).dropWhile isSpace,
      (back.filterMap stays).rdropWhile isSpace, ?_, hroom⟩
    rw [strip, hkept, List.trim_append_cons hdot, List.rdropWhile_append_cons hdot]
    rfl
  · rintro ⟨pre, post, hshown, hlength⟩
    obtain ⟨pre', back, hkept, rfl⟩ := List.exists_of_trim_eq hshown
    obtain ⟨front, units₁, hunits, rfl, h₁⟩ := List.filterMap_eq_append_iff.mp hkept
    obtain ⟨gone, u, units₂, rfl, hgone, hu, h₂⟩ := List.filterMap_eq_cons_iff.mp h₁
    obtain ⟨mid, u', units₃, rfl, hmid, hu', -⟩ := List.filterMap_eq_cons_iff.mp h₂
    obtain rfl := stays_eq_some hu
    obtain rfl := stays_eq_some hu'
    refine ⟨front ++ gone, mid, units₃, ?_, hmid, ?_⟩
    · rw [hunits, List.append_assoc]
    · rw [room, List.filterMap_append, List.filterMap_eq_nil_iff.mpr hgone, List.append_nil]
      exact hlength

theorem blankAtCut_iff :
    BlankAtCut name ↔ ∃ c ∈ ((strip (kept name)).take 255).getLast?, isSpace c := by
  constructor
  · rintro ⟨front, c, back, hunits, hc, hspace, hroom, d, hd, hdspace⟩
    obtain ⟨between, behind, hback⟩ := List.append_of_mem hd
    have hkept : kept name =
        (front.filterMap stays ++ c :: between) ++ d :: behind := by
      rw [kept, hunits, List.filterMap_append, List.filterMap_cons_some hc, hback]
      simp
    have hdrop : (front.filterMap stays ++ c :: between).dropWhile isSpace =
        (front.filterMap stays).dropWhile isSpace ++ c :: between := by
      rw [List.dropWhile_append, if_neg]
      rw [List.isEmpty_iff, ← List.length_eq_zero_iff]
      change room front ≠ 0
      omega
    have hfront : ((front.filterMap stays).dropWhile isSpace ++ [c]).length = 255 := by
      rw [List.length_append, List.length_singleton]
      change room front + 1 = 255
      omega
    have hshown : strip (kept name) = (front.filterMap stays).dropWhile isSpace ++ [c] ++
        (between ++ d :: behind.rdropWhile isSpace) := by
      rw [strip, hkept, List.trim_append_cons hdspace, hdrop]
      simp
    refine ⟨c, ?_, hspace⟩
    rw [hshown, ← hfront, List.take_left]
    exact List.getLast?_concat
  · rintro ⟨c, hlast, hspace⟩
    obtain ⟨init, hinit⟩ := List.getLast?_eq_some_iff.mp hlast
    have hnot : ∀ d ∈ (strip (kept name)).getLast?, isSpace d = false := fun d => List.getLast_trim
    have hlong : 255 < (strip (kept name)).length := by
      by_contra hshort
      rw [List.take_of_length_le (Nat.not_lt.mp hshort)] at hlast
      exact absurd hspace (by rw [hnot c hlast]; exact Bool.false_ne_true)
    have hlength : init.length = 254 := by
      have hcut := congrArg List.length hinit
      rw [List.length_take, List.length_append, List.length_singleton] at hcut
      omega
    have hshown : strip (kept name) = init ++ c :: (strip (kept name)).drop 255 := by
      conv_lhs => rw [← List.take_append_drop 255 (strip (kept name)), hinit]
      rw [List.append_assoc]
      rfl
    -- the last of the characters behind the cut is no blank
    have hne : (strip (kept name)).drop 255 ≠ [] := by
      rw [ne_eq, List.drop_eq_nil_iff]
      omega
    have hend : isSpace (((strip (kept name)).drop 255).getLast hne) = false := by
      refine hnot _ ?_
      rw [List.getLast_drop, Option.mem_def, List.getLast?_eq_some_getLast]
    obtain ⟨pre', back, hkept, hpre'⟩ := List.exists_of_trim_eq hshown
    obtain ⟨front, units₁, hunits, hfront, h₁⟩ := List.filterMap_eq_append_iff.mp hkept
    obtain ⟨gone, u, units₂, rfl, hgone, hu, h₂⟩ := List.filterMap_eq_cons_iff.mp h₁
    obtain rfl := stays_eq_some hu
    refine ⟨front ++ gone, c, units₂, ?_, hu, hspace, ?_, _, ?_, hend⟩
    · rw [hunits, List.append_assoc]
    · rw [room, List.filterMap_append, List.filterMap_eq_nil_iff.mpr hgone, List.append_nil,
        hfront, hpre']
      exact hlength
    · rw [h₂]
      exact List.mem_append_left _ (List.getLast_mem hne)

/-! ### The result -/

theorem clean_of_mem_shown {c : ℕ} (h : c ∈ (strip (kept name)).take 255) :
    isDangerous c = false ∧ isControl c = false := by
  have hdrop := (List.trim_prefix isSpace (kept name)).subset (List.mem_of_mem_take h)
  exact clean_of_mem_kept ((List.dropWhile_suffix isSpace).subset hdrop)

/-- A name that is as it should be is not changed, unless there is a blank at its end. -/
theorem sanitizeFilename_eq_self_iff {text : CodePoints} (hnonempty : text ≠ [])
    (hlength : text.length ≤ 255) (hpair : ¬[dot, dot] <:+: text)
    (hclean : ∀ c ∈ text, isDangerous c = false ∧ isControl c = false)
    (hhead : ∀ c ∈ text.head?, isSpace c = false) :
    sanitizeFilename text = text ↔ ¬∃ c ∈ text.getLast?, isSpace c := by
  have hkept : kept text = text :=
    kept_of_clean (Bool.eq_false_iff.mpr (mt hasDotPair_iff.mp hpair)) hclean
  have hself : strip text = text ↔ ¬∃ c ∈ text.getLast?, isSpace c := by
    rw [strip, List.trim_eq_self_iff, and_iff_right hhead]
    simp
  rw [sanitizeFilename_eq, hkept, ← hself]
  constructor
  · intro h
    split at h
    next =>
      refine List.trim_eq_self_of_length_le ?_
      have htake := congrArg List.length h
      rw [List.length_take] at htake
      change text.length ≤ (strip text).length
      omega
    next =>
      -- the name for names that are empty has no blank at its end
      rw [hself, ← h]
      decide
  · intro h
    rw [h, List.take_of_length_le hlength, if_pos hnonempty]

theorem sanitized_unnamed : Sanitized ("unnamed_file".toList.map Char.toNat) := by
  refine ⟨by decide, by decide, ?_, by decide, by decide⟩
  rw [← hasDotPair_iff]
  decide

/-- **File names on the server.** -/
theorem sanitized_iff (name : CodePoints) :
    Sanitized (sanitizeFilename name) ↔ ¬DotsMeet name ∧ ¬BlankAtCut name := by
  rw [dotsMeet_iff, blankAtCut_iff, sanitizeFilename_eq]
  split
  case isTrue hnonempty =>
    have hlength : ((strip (kept name)).take 255).length ≤ 255 := List.length_take_le 255 _
    have hhead : ∀ c ∈ ((strip (kept name)).take 255).head?, isSpace c = false := by
      intro c hc
      rw [List.head?_take, if_neg (by decide)] at hc
      exact List.head_trim hc
    constructor
    · intro h
      refine ⟨h.noTraversal, ?_⟩
      exact (sanitizeFilename_eq_self_iff hnonempty hlength h.noTraversal
        (fun _ => clean_of_mem_shown) hhead).mp h.fixed
    · rintro ⟨hpair, hblank⟩
      refine ⟨hnonempty, hlength, hpair, fun _ => clean_of_mem_shown, ?_⟩
      exact (sanitizeFilename_eq_self_iff hnonempty hlength hpair
        (fun _ => clean_of_mem_shown) hhead).mpr hblank
  case isFalse hempty =>
    rw [not_not.mp hempty]
    exact iff_of_true sanitized_unnamed (by decide)

/-- `./.` -/
theorem not_sanitized_dotSlashDot :
    ¬Sanitized (sanitizeFilename ("./.".toList.map Char.toNat)) := by
  intro h
  refine h.noTraversal ?_
  rw [← hasDotPair_iff]
  decide

end Meeting

end Rapidly.Integrations.S3
