import Mathlib.Data.List.TakeWhile
import Rapidly.FileSharing.Filename
import Rapidly.Json.Value
import Rapidly.Text.Separators

/-!
# Safe file names

The schema `safeFileName` of `utils/file-sharing/messages.ts` over all the strings that JavaScript
has: sequences of UTF-16 code units, in which a surrogate may stand alone. It checks a name,
lengths included, and then has it rewritten by `sanitizeFileName`, which puts an underscore in
front of the components that are device names.

* `components_sanitizeFileName`: the components are rewritten one by one.
* `isSafe_iff`: everything the schema is for holds of the rewritten name, unless the underscores
  make it, or a component of it, too long.
-/

namespace Rapidly.FileSharing.SafeName

open Json (Units)

/-- A code unit as a character. The surrogates become one that occurs in no pattern. -/
def toChar (u : UInt16) : Char := .ofNat u.toNat

def slash : UInt16 := 0x2f

def backslash : UInt16 := 0x5c

def underscore : UInt16 := 0x5f

def dot : UInt16 := 0x2e

/-- `/[/\\]/` -/
def isSeparator (u : UInt16) : Bool := u = slash || u = backslash

/-- `name.split(/[/\\]/)` -/
def components (name : Units) : List Units := name.splitOnP isSeparator

/-- `WINDOWS_UNSAFE_CHARS` -/
def isUnsafe (u : UInt16) : Bool := toChar u ∈ windowsUnsafeChars

/-- `WINDOWS_RESERVED_NAMES.test` -/
def isReserved (seg : Units) : Bool := isWindowsReserved (seg.map toChar)

/-- `sanitizeFileName` -/
def sanitizeFileName (name : Units) : Units :=
  let slashed := name.map fun u => if u = backslash then slash else u
  let replaced := slashed.map fun u => if isUnsafe u then underscore else u
  let segments := (replaced.splitOn slash).map fun seg =>
    if isReserved seg then underscore :: seg else seg
  [slash].intercalate segments

/-- `MAX_PATH_LENGTH` -/
def maxPathLength : ℕ := 4096

/-- `MAX_COMPONENT_LENGTH` -/
def maxComponentLength : ℕ := 255

/-- `safeFileName`: `PATH_TRAVERSAL_PATTERNS` finds two dots that are a whole component. -/
def safeFileName (name : Units) : Option Units :=
  if name ≠ [] ∧ name.length ≤ maxPathLength ∧ [dot, dot] ∉ components name ∧
      name.all (0x20 ≤ ·) ∧ name.head?.all (!isSeparator ·) ∧
      ∀ seg ∈ components name, seg.length ≤ maxComponentLength then
    some (sanitizeFileName name)
  else none

/-- What the schema is for. -/
structure IsSafe (name : Units) : Prop where
  /-- The name does not begin with an empty component. -/
  relative : (components name).head? ≠ some []
  noTraversal : [dot, dot] ∉ components name
  clean : ∀ u ∈ name, 0x20 ≤ u ∧ isUnsafe u = false ∧ u ≠ backslash
  noDevice : ∀ seg ∈ components name, isReserved seg = false
  length_le : name.length ≤ maxPathLength
  length_component_le : ∀ seg ∈ components name, seg.length ≤ maxComponentLength
  /-- The schema accepts the name, and does not change it. -/
  fixed : safeFileName name = some name

/-! ### Device names -/

section Devices

variable {seg : Units} {name text rest : List Char} {c : Char}

/-- The alternatives of `WINDOWS_RESERVED_NAMES`. -/
inductive IsDeviceName : List Char → Prop where
  | con : IsDeviceName ['C', 'O', 'N']
  | prn : IsDeviceName ['P', 'R', 'N']
  | aux : IsDeviceName ['A', 'U', 'X']
  | nul : IsDeviceName ['N', 'U', 'L']
  | com (d : Char) (hd : d.isDigit) : IsDeviceName ['C', 'O', 'M', d]
  | lpt (d : Char) (hd : d.isDigit) : IsDeviceName ['L', 'P', 'T', d]

/-- What the pattern does not look for. -/
def foreignChars : List Char := ['.', '_'] ++ windowsUnsafeChars

theorem isDigit_of_mem_foreignChars (h : c ∈ foreignChars) : c.isDigit = false := by
  have hall : foreignChars.all (!Char.isDigit ·) := by decide
  simpa using List.all_eq_true.mp hall c h

theorem IsDeviceName.notMem_foreignChars (h : IsDeviceName name) :
    ∀ c ∈ name, c ∉ foreignChars := by
  have hdigit {d : Char} (hd : d.isDigit) : d ∉ foreignChars := fun hmem =>
    Bool.false_ne_true ((isDigit_of_mem_foreignChars hmem).symm.trans hd)
  have hnil : ∀ c ∈ ([] : List Char), c ∉ foreignChars := fun c hc => absurd hc List.not_mem_nil
  cases h <;> simp only [List.forall_mem_cons]
  case con => exact ⟨by decide, by decide, by decide, hnil⟩
  case prn => exact ⟨by decide, by decide, by decide, hnil⟩
  case aux => exact ⟨by decide, by decide, by decide, hnil⟩
  case nul => exact ⟨by decide, by decide, by decide, hnil⟩
  case com d hd => exact ⟨by decide, by decide, by decide, hdigit hd, hnil⟩
  case lpt d hd => exact ⟨by decide, by decide, by decide, hdigit hd, hnil⟩

theorem takeWhile_append_of_endsDeviceName (hname : IsDeviceName name)
    (hrest : endsDeviceName rest) : (name ++ rest).takeWhile (· ≠ '.') = name := by
  have hne : ∀ c ∈ name, decide (c ≠ '.') = true := fun c hc =>
    decide_eq_true fun hdot => hname.notMem_foreignChars c hc (hdot ▸ by decide)
  rw [List.takeWhile_append_of_pos hne]
  cases rest with
  | nil => exact List.append_nil name
  | cons c rest =>
    have hc : c = '.' := by simpa [endsDeviceName] using hrest
    rw [hc, List.takeWhile_cons_of_neg (by decide), List.append_nil]

/-- A segment is reserved if what stands before its first dot is a device name. -/
theorem isWindowsReserved_iff {seg : List Char} : isWindowsReserved seg ↔
    IsDeviceName ((seg.map Char.toUpper).takeWhile (· ≠ '.')) := by
  rw [isWindowsReserved]
  generalize seg.map Char.toUpper = text
  constructor
  · intro h
    split at h
    next rest => exact takeWhile_append_of_endsDeviceName .con h ▸ .con
    next rest => exact takeWhile_append_of_endsDeviceName .prn h ▸ .prn
    next rest => exact takeWhile_append_of_endsDeviceName .aux h ▸ .aux
    next rest => exact takeWhile_append_of_endsDeviceName .nul h ▸ .nul
    next d rest =>
      obtain ⟨hd, hrest⟩ := (Bool.and_eq_true _ _).mp h
      exact takeWhile_append_of_endsDeviceName (.com d hd) hrest ▸ .com d hd
    next d rest =>
      obtain ⟨hd, hrest⟩ := (Bool.and_eq_true _ _).mp h
      exact takeWhile_append_of_endsDeviceName (.lpt d hd) hrest ▸ .lpt d hd
    · exact absurd h Bool.false_ne_true
  · intro h
    have hsplit := List.takeWhile_append_dropWhile (p := fun c => decide (c ≠ '.')) (l := text)
    have hrest : endsDeviceName (text.dropWhile (· ≠ '.')) := by
      cases hdrop : text.dropWhile (· ≠ '.') with
      | nil => rfl
      | cons c rest =>
        have hc := List.head?_dropWhile_not (fun c => decide (c ≠ '.')) text
        rw [hdrop] at hc
        simpa [endsDeviceName] using hc
    generalize text.takeWhile (· ≠ '.') = name at h hsplit
    generalize text.dropWhile (· ≠ '.') = rest at hrest hsplit
    rw [← hsplit]
    cases h with
    | con => exact hrest
    | prn => exact hrest
    | aux => exact hrest
    | nul => exact hrest
    | com d hd => exact (Bool.and_eq_true _ _).mpr ⟨hd, hrest⟩
    | lpt d hd => exact (Bool.and_eq_true _ _).mpr ⟨hd, hrest⟩

/-- The second step of `sanitizeFileName`. -/
def replace (u : UInt16) : UInt16 := if isUnsafe u then underscore else u

theorem toUpper_replace (u : UInt16) : (toChar (replace u)).toUpper =
    if toChar u ∈ windowsUnsafeChars then '_' else (toChar u).toUpper := by
  rw [replace, isUnsafe]
  split
  next h => rw [if_pos (by simpa using h)]; decide
  next h => rw [if_neg (by simpa using h)]

/-- Two readings of a segment that differ only where neither fits a device name. -/
theorem IsDeviceName.congr {f g : UInt16 → Char}
    (hfg : ∀ u, f u = g u ∨ f u ≠ '.' ∧ f u ∈ foreignChars)
    (h : IsDeviceName ((seg.map f).takeWhile (· ≠ '.'))) :
    IsDeviceName ((seg.map g).takeWhile (· ≠ '.')) := by
  suffices hsame : (seg.map f).takeWhile (· ≠ '.') = (seg.map g).takeWhile (· ≠ '.') from hsame ▸ h
  have hown := h.notMem_foreignChars
  clear h
  induction seg with
  | nil => rfl
  | cons u seg ih =>
    rw [List.map_cons, List.map_cons]
    rw [List.map_cons] at hown
    by_cases hdot : f u = '.'
    · have hg : g u = '.' := (hfg u).elim (fun hu => hu ▸ hdot) fun hu => absurd hdot hu.1
      rw [List.takeWhile_cons_of_neg (by simpa using hdot),
        List.takeWhile_cons_of_neg (by simpa using hg)]
    · rw [List.takeWhile_cons_of_pos (by simpa using hdot)] at hown ⊢
      obtain ⟨hu, hseg⟩ := List.forall_mem_cons.mp hown
      have hg : f u = g u := (hfg u).resolve_right fun hforeign => hu hforeign.2
      rw [List.takeWhile_cons_of_pos (by simpa [← hg] using hdot), ih hseg, hg]

/-- A replaced character is not in a device name, and neither is what it is replaced by. -/
theorem isReserved_map_replace (seg : Units) : isReserved (seg.map replace) = isReserved seg := by
  have hupper {c : Char} (hc : c ∈ windowsUnsafeChars) :
      c.toUpper ≠ '.' ∧ c.toUpper ∈ foreignChars := by
    have hall : windowsUnsafeChars.all fun c => c.toUpper ≠ '.' ∧ c.toUpper ∈ foreignChars := by
      decide
    simpa using List.all_eq_true.mp hall c hc
  rw [isReserved, isReserved, Bool.eq_iff_iff, isWindowsReserved_iff, isWindowsReserved_iff]
  simp only [List.map_map]
  constructor
  · refine IsDeviceName.congr fun u => ?_
    rw [Function.comp_apply, Function.comp_apply, Function.comp_apply, toUpper_replace]
    split
    · exact .inr (by decide)
    · exact .inl rfl
  · refine IsDeviceName.congr fun u => ?_
    rw [Function.comp_apply, Function.comp_apply, Function.comp_apply, toUpper_replace]
    split
    next hu => exact .inr (hupper hu)
    · exact .inl rfl

theorem isReserved_cons_underscore (seg : Units) : isReserved (underscore :: seg) = false := by
  rw [isReserved, List.map_cons, Bool.eq_false_iff, Ne, isWindowsReserved_iff, List.map_cons,
    List.takeWhile_cons_of_pos (by decide)]
  exact fun h => h.notMem_foreignChars _ List.mem_cons_self (by decide)

end Devices

/-! ### Rewriting -/

section Rewriting

variable {name safe seg : Units} {u : UInt16}

/-- Both replacements of `sanitizeFileName`. -/
def rewrite (u : UInt16) : UInt16 := replace (if u = backslash then slash else u)

/-- What `sanitizeFileName` makes of a component. -/
def rewriteComponent (seg : Units) : Units :=
  if isReserved seg then underscore :: seg.map replace else seg.map replace

theorem isUnsafe_replace (u : UInt16) : isUnsafe (replace u) = false := by
  rw [replace]
  split
  · decide
  next h => exact Bool.eq_false_iff.mpr h

theorem replace_replace (u : UInt16) : replace (replace u) = replace u := by
  rw [replace, if_neg (Bool.eq_false_iff.mp (isUnsafe_replace u))]

theorem isSeparator_replace (u : UInt16) : isSeparator (replace u) = isSeparator u := by
  rw [replace]
  split
  next h =>
    have hne : isSeparator u = false := by
      refine Bool.eq_false_iff.mpr fun hsep => ?_
      obtain hu | hu := (Bool.or_eq_true _ _).mp hsep
      · exact absurd h (of_decide_eq_true hu ▸ by decide)
      · exact absurd h (of_decide_eq_true hu ▸ by decide)
    exact hne ▸ by decide
  · rfl

theorem rewrite_beq_slash (u : UInt16) : (rewrite u == slash) = isSeparator u := by
  rw [rewrite]
  by_cases hu : u = backslash
  · subst hu
    decide
  · rw [if_neg hu, replace, isSeparator, decide_eq_false hu, Bool.or_false]
    split
    next h =>
      have hne : u ≠ slash := fun hslash => absurd h (hslash ▸ by decide)
      exact (decide_eq_false hne) ▸ by decide
    · rfl

theorem isSeparator_of_mem_components (hseg : seg ∈ components name) :
    ∀ u ∈ seg, u ∈ name ∧ isSeparator u = false :=
  List.mem_and_not_of_mem_splitOnP hseg

theorem map_rewrite_of_mem_components (hseg : seg ∈ components name) :
    seg.map rewrite = seg.map replace := by
  refine List.map_congr_left fun u hu => ?_
  have hne := (isSeparator_of_mem_components hseg u hu).2
  rw [isSeparator, Bool.or_eq_false_iff] at hne
  rw [rewrite, if_neg (of_decide_eq_false hne.2)]

theorem sanitizeFileName_eq (name : Units) :
    sanitizeFileName name = [slash].intercalate ((components name).map rewriteComponent) := by
  have hsplit : ((name.map fun u => if u = backslash then slash else u).map fun u =>
      if isUnsafe u then underscore else u).splitOn slash =
        (components name).map (List.map replace) := by
    have hsep : (fun u => rewrite u == slash) = isSeparator := funext rewrite_beq_slash
    rw [List.map_map, List.splitOn_eq_splitOnP]
    refine (List.splitOnP_map _ rewrite name).trans ?_
    rw [hsep]
    exact List.map_congr_left fun seg hseg => map_rewrite_of_mem_components hseg
  rw [sanitizeFileName, hsplit, List.map_map]
  congr 1
  refine List.map_congr_left fun seg _ => ?_
  rw [Function.comp_apply, isReserved_map_replace, rewriteComponent]

theorem components_ne_nil (name : Units) : components name ≠ [] := List.splitOnP_ne_nil _ _

/-- A rewritten component has no separator and nothing that would be replaced. -/
theorem of_mem_rewriteComponent (hseg : seg ∈ components name) :
    ∀ u ∈ rewriteComponent seg, isSeparator u = false ∧ isUnsafe u = false ∧
      (u = underscore ∨ u ∈ name) := by
  have hmap : ∀ u ∈ seg.map replace, isSeparator u = false ∧ isUnsafe u = false ∧
      (u = underscore ∨ u ∈ name) := by
    intro u hu
    obtain ⟨v, hv, rfl⟩ := List.mem_map.mp hu
    obtain ⟨hmem, hsep⟩ := isSeparator_of_mem_components hseg v hv
    refine ⟨(isSeparator_replace v).trans hsep, isUnsafe_replace v, ?_⟩
    rw [replace]
    split
    · exact .inl rfl
    · exact .inr hmem
  rw [rewriteComponent]
  split
  · exact List.forall_mem_cons.mpr ⟨⟨by decide, by decide, .inl rfl⟩, hmap⟩
  · exact hmap

/-- **The components** are rewritten one by one. -/
theorem components_sanitizeFileName (name : Units) :
    components (sanitizeFileName name) = (components name).map rewriteComponent := by
  rw [sanitizeFileName_eq, components]
  refine List.splitOnP_intercalate (by decide) ?_ fun hnil =>
    components_ne_nil name (List.map_eq_nil_iff.mp hnil)
  intro l hl u hu
  obtain ⟨seg, hseg, rfl⟩ := List.mem_map.mp hl
  exact (of_mem_rewriteComponent hseg u hu).1

theorem isReserved_rewriteComponent (seg : Units) : isReserved (rewriteComponent seg) = false := by
  rw [rewriteComponent]
  split
  · exact isReserved_cons_underscore _
  next h => exact (isReserved_map_replace seg).trans (Bool.eq_false_iff.mpr h)

theorem rewriteComponent_rewriteComponent (seg : Units) :
    rewriteComponent (rewriteComponent seg) = rewriteComponent seg := by
  have hmap : (rewriteComponent seg).map replace = rewriteComponent seg := by
    have htwice : (seg.map replace).map replace = seg.map replace := by
      rw [List.map_map]
      exact List.map_congr_left fun u _ => replace_replace u
    rw [rewriteComponent]
    split
    · rw [List.map_cons, htwice]
      rfl
    · exact htwice
  conv_lhs => rw [rewriteComponent]
  rw [if_neg (Bool.eq_false_iff.mp (isReserved_rewriteComponent seg)), hmap]

theorem sanitizeFileName_sanitizeFileName (name : Units) :
    sanitizeFileName (sanitizeFileName name) = sanitizeFileName name := by
  rw [sanitizeFileName_eq (sanitizeFileName name), components_sanitizeFileName, List.map_map,
    sanitizeFileName_eq name]
  congr 1
  exact List.map_congr_left fun seg _ => rewriteComponent_rewriteComponent seg

theorem length_rewriteComponent (seg : Units) :
    (rewriteComponent seg).length = seg.length + if isReserved seg then 1 else 0 := by
  rw [rewriteComponent]
  split
  · rw [List.length_cons, List.length_map]
  · rw [List.length_map]
    rfl

theorem length_sanitizeFileName (name : Units) :
    (sanitizeFileName name).length = name.length + (components name).countP isReserved := by
  rw [sanitizeFileName_eq, List.length_intercalate_map length_rewriteComponent, components,
    List.length_intercalate_splitOnP]

end Rewriting

/-! ### Accepted names -/

section Accepted

variable {name safe seg : Units}

theorem safeFileName_eq_some_iff : safeFileName name = some safe ↔
    (name ≠ [] ∧ name.length ≤ maxPathLength ∧ [dot, dot] ∉ components name ∧
      (∀ u ∈ name, 0x20 ≤ u) ∧ name.head?.all (!isSeparator ·) ∧
      ∀ seg ∈ components name, seg.length ≤ maxComponentLength) ∧
      sanitizeFileName name = safe := by
  have hcontrol : name.all (0x20 ≤ ·) = true ↔ ∀ u ∈ name, 0x20 ≤ u := by
    simp only [List.all_eq_true, decide_eq_true_eq]
  rw [safeFileName, ← hcontrol]
  split
  next h => rw [Option.some_inj, and_iff_right h]
  next h => exact iff_of_false (Option.some_ne_none _).symm fun hall => h hall.1

/-- A name begins with an empty component exactly if it is empty or begins with a separator. -/
theorem head?_components_eq_nil_iff :
    (components name).head? = some [] ↔ ¬(name ≠ [] ∧ name.head?.all (!isSeparator ·)) := by
  cases name with
  | nil => exact iff_of_true rfl fun h => h.1 rfl
  | cons u name =>
    have hsplit := List.splitOnP_cons_eq_if_modifyHead (p := isSeparator) u name
    rw [components, hsplit, List.head?_cons, Option.all_some]
    cases hu : isSeparator u with
    | true => exact iff_of_true rfl fun h => Bool.false_ne_true h.2
    | false =>
      refine iff_of_false ?_ fun h => h ⟨List.cons_ne_nil u name, rfl⟩
      rw [if_neg Bool.false_ne_true]
      cases hrest : name.splitOnP isSeparator with
      | nil => exact absurd hrest (List.splitOnP_ne_nil _ _)
      | cons seg segs =>
        rw [List.modifyHead_cons, List.head?_cons, Option.some_inj]
        exact List.cons_ne_nil u seg

theorem rewriteComponent_eq_nil_iff : rewriteComponent seg = [] ↔ seg = [] := by
  constructor
  · intro h
    rw [rewriteComponent] at h
    split at h
    · exact absurd h (List.cons_ne_nil _ _)
    · exact List.map_eq_nil_iff.mp h
  · rintro rfl
    rfl

theorem eq_dot_of_replace_eq {u : UInt16} (h : replace u = dot) : u = dot := by
  rw [replace] at h
  split at h
  · exact absurd h (by decide)
  · exact h

theorem eq_of_rewriteComponent_eq (h : rewriteComponent seg = [dot, dot]) : seg = [dot, dot] := by
  rw [rewriteComponent] at h
  split at h
  · exact absurd (List.cons.inj h).1 (by decide)
  · obtain ⟨u, rest, rfl, hu, hrest⟩ := List.map_eq_cons_iff.mp h
    obtain ⟨v, rest, rfl, hv, hrest⟩ := List.map_eq_cons_iff.mp hrest
    rw [List.map_eq_nil_iff.mp hrest, eq_dot_of_replace_eq hu, eq_dot_of_replace_eq hv]

theorem head?_components_sanitizeFileName (h : (components name).head? ≠ some []) :
    (components (sanitizeFileName name)).head? ≠ some [] := by
  rw [components_sanitizeFileName, List.head?_map]
  intro hnil
  obtain ⟨seg, hseg, hempty⟩ := Option.map_eq_some_iff.mp hnil
  exact h (rewriteComponent_eq_nil_iff.mp hempty ▸ hseg)

theorem noTraversal_sanitizeFileName (h : [dot, dot] ∉ components name) :
    [dot, dot] ∉ components (sanitizeFileName name) := by
  rw [components_sanitizeFileName]
  intro hmem
  obtain ⟨seg, hseg, hdots⟩ := List.mem_map.mp hmem
  exact h (eq_of_rewriteComponent_eq hdots ▸ hseg)

theorem clean_sanitizeFileName (h : ∀ u ∈ name, 0x20 ≤ u) :
    ∀ u ∈ sanitizeFileName name, 0x20 ≤ u ∧ isUnsafe u = false ∧ u ≠ backslash := by
  intro u hu
  rw [sanitizeFileName_eq] at hu
  obtain rfl | ⟨l, hl, hu⟩ := List.mem_intercalate_singleton hu
  · decide
  · obtain ⟨seg, hseg, rfl⟩ := List.mem_map.mp hl
    obtain ⟨hsep, hunsafe, hu⟩ := of_mem_rewriteComponent hseg u hu
    refine ⟨?_, hunsafe, ?_⟩
    · obtain rfl | hu := hu
      · decide
      · exact h u hu
    · rintro rfl
      exact absurd hsep (by decide)

theorem noDevice_sanitizeFileName (name : Units) :
    ∀ seg ∈ components (sanitizeFileName name), isReserved seg = false := by
  rw [components_sanitizeFileName, List.forall_mem_map]
  exact fun seg _ => isReserved_rewriteComponent seg

theorem length_le_components_sanitizeFileName_iff
    (h : ∀ seg ∈ components name, seg.length ≤ maxComponentLength) :
    (∀ seg ∈ components (sanitizeFileName name), seg.length ≤ maxComponentLength) ↔
      ∀ seg ∈ components name, isReserved seg → seg.length < maxComponentLength := by
  rw [components_sanitizeFileName, List.forall_mem_map]
  refine forall₂_congr fun seg hseg => ?_
  have hle := h seg hseg
  rw [length_rewriteComponent]
  cases isReserved seg with
  | true => exact ⟨fun hlt _ => hlt, fun hlt => hlt rfl⟩
  | false => exact iff_of_true hle fun hfalse => absurd hfalse Bool.false_ne_true

theorem isSafe_of_room (h : safeFileName name = some safe)
    (hdevices : ∀ seg ∈ components name, isReserved seg → seg.length < maxComponentLength)
    (hroom : name.length + (components name).countP isReserved ≤ maxPathLength) : IsSafe safe := by
  obtain ⟨⟨hne, -, hdots, hcontrol, hhead, hlengths⟩, rfl⟩ := safeFileName_eq_some_iff.mp h
  have hrelative := head?_components_sanitizeFileName fun hnil =>
    head?_components_eq_nil_iff.mp hnil ⟨hne, hhead⟩
  have hclean := clean_sanitizeFileName hcontrol
  -- the lengths are the only checks that the underscores could make fail
  have hcomponents := (length_le_components_sanitizeFileName_iff hlengths).mpr hdevices
  have hlength : (sanitizeFileName name).length ≤ maxPathLength :=
    (length_sanitizeFileName name).symm ▸ hroom
  obtain ⟨hne', hhead'⟩ := not_not.mp (mt head?_components_eq_nil_iff.mpr hrelative)
  exact ⟨hrelative, noTraversal_sanitizeFileName hdots, hclean, noDevice_sanitizeFileName name,
    hlength, hcomponents, safeFileName_eq_some_iff.mpr
      ⟨⟨hne', hlength, noTraversal_sanitizeFileName hdots, fun u hu => (hclean u hu).1, hhead',
        hcomponents⟩, sanitizeFileName_sanitizeFileName name⟩⟩

/-- **Safe names.** An accepted name becomes a safe one exactly if there is room for the
underscores. -/
theorem isSafe_iff (h : safeFileName name = some safe) : IsSafe safe ↔
    (∀ seg ∈ components name, isReserved seg → seg.length < maxComponentLength) ∧
      name.length + (components name).countP isReserved ≤ maxPathLength := by
  constructor
  · intro hsafe
    obtain ⟨⟨-, -, -, -, -, hlengths⟩, rfl⟩ := safeFileName_eq_some_iff.mp h
    exact ⟨(length_le_components_sanitizeFileName_iff hlengths).mp hsafe.length_component_le,
      (length_sanitizeFileName name) ▸ hsafe.length_le⟩
  · rintro ⟨hdevices, hroom⟩
    exact isSafe_of_room h hdevices hroom

/-- A device name with an extension that makes it as long as a component may be. -/
def longDevice : Units := Json.ofString "con." ++ List.replicate 251 0x61

theorem safeFileName_longDevice : safeFileName longDevice = some (underscore :: longDevice) := by
  decide +kernel

theorem isSafe_con : IsSafe (Json.ofString "_con") :=
  (@isSafe_iff (Json.ofString "con") _ (by decide +kernel)).mpr (by decide +kernel)

theorem not_isSafe_longDevice :
    ¬∀ name safe : Units, safeFileName name = some safe → IsSafe safe := by
  intro h
  have hfixed := (h _ _ safeFileName_longDevice).fixed
  have hrefused : safeFileName (underscore :: longDevice) = none := by decide +kernel
  rw [hrefused] at hfixed
  exact absurd hfixed.symm (Option.some_ne_none _)

end Accepted

end Rapidly.FileSharing.SafeName
