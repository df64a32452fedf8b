import Rapidly.FileSharing.Downloader.Archive
import Rapidly.FileSharing.SafeNames

/-!
# The names of a download

The list of files of a download is a list of texts, and its schema (`parseInfo`) is modelled over
their characters. The safety of names (`SafeName.IsSafe`) is about code units. On a text both
models of `safeFileName` are the same function.

* `safeFileName_ofString`: the two models agree.
* `isSafe_of_parseInfo`: the names of an accepted list are safe if there is room for the
  underscores.
-/

namespace Rapidly.FileSharing.Downloader

open Json (Units ofString ofText units)

open SafeName (toChar)

section Units

variable {c : Char} {text text' : List Char} {u : UInt16}

theorem units_eq (c : Char) :
    (∃ u, units c = [u] ∧ toChar u = c ∧ u.toNat = c.toNat ∧ c.toNat < 0x10000) ∨
      ∃ high low, units c = [high, low] ∧ toChar high = '\x00' ∧ toChar low = '\x00' ∧
        0xd800 ≤ high.toNat ∧ 0xdc00 ≤ low.toNat ∧ 0x10000 ≤ c.toNat := by
  rw [units]
  split
  next h =>
    have hnat : (UInt16.ofNat c.toNat).toNat = c.toNat := UInt16.toNat_ofNat_of_lt' h
    refine .inl ⟨_, rfl, ?_, hnat, h⟩
    rw [toChar, hnat, Char.ofNat_toNat]
  next h =>
    have hvalid : c.toNat.isValidChar := c.valid
    rw [Nat.isValidChar] at hvalid
    have hread {n : ℕ} (hlow : 0xd800 ≤ n) (hhigh : n < 0xe000) :
        toChar (.ofNat n) = '\x00' ∧ (UInt16.ofNat n).toNat = n := by
      have hnat : (UInt16.ofNat n).toNat = n := UInt16.toNat_ofNat_of_lt'
        (Nat.lt_trans hhigh (by decide))
      have hsurrogate : ¬n.isValidChar := by
        rw [Nat.isValidChar]
        omega
      refine ⟨?_, hnat⟩
      rw [toChar, hnat, Char.ofNat, dif_neg hsurrogate]
      rfl
    obtain ⟨hhigh, hhighNat⟩ := @hread (0xd800 + (c.toNat - 0x10000) / 0x400)
      (by omega) (by omega)
    obtain ⟨hlow, hlowNat⟩ := @hread (0xdc00 + (c.toNat - 0x10000) % 0x400)
      (by omega) (by omega)
    exact .inr ⟨_, _, rfl, hhigh, hlow, by omega, by omega, by omega⟩

theorem ofText_map {f : UInt16 → UInt16} {g : Char → Char}
    (h : ∀ c, (units c).map f = units (g c)) (text : List Char) :
    ofText (text.map g) = (ofText text).map f := by
  rw [ofText, ofText, List.flatMap_map, List.map_flatMap]
  exact congrArg (fun k => text.flatMap k) (funext fun c => (h c).symm)

theorem ofText_cons (c : Char) (text : List Char) : ofText (c :: text) = units c ++ ofText text :=
  List.flatMap_cons

theorem eq_iff_of_mem_units {a : Char} {b : UInt16} (hb : b.toNat = a.toNat) (ha : a.toNat < 0x80)
    (hu : u ∈ units c) : u = b ↔ c = a := by
  obtain ⟨v, hv, hread, hnat, -⟩ | ⟨high, low, hunits, -, -, hhigh, hlow, hlarge⟩ := units_eq c
  · rw [hv, List.mem_singleton] at hu
    rw [hu, ← UInt16.toNat_inj, hb, hnat]
    exact Char.toNat_inj
  · refine iff_of_false ?_ fun hca => ?_
    · rintro rfl
      rw [hunits] at hu
      obtain rfl | rfl := List.mem_pair.mp hu <;> omega
    · rw [hca] at hlarge
      omega

theorem isSeparator_of_mem_units (hu : u ∈ units c) : SafeName.isSeparator u = isSeparator c := by
  have hslash := @eq_iff_of_mem_units c u '/' SafeName.slash rfl (by decide) hu
  have hbackslash := @eq_iff_of_mem_units c u '\\' SafeName.backslash rfl (by decide) hu
  simp only [SafeName.isSeparator, isSeparator, hslash, hbackslash]

theorem toNat_lt_of_mem_windowsUnsafeChars (h : c ∈ windowsUnsafeChars) : c.toNat < 0x80 := by
  have hall : windowsUnsafeChars.all (·.toNat < 0x80) := by decide
  exact of_decide_eq_true (List.all_eq_true.mp hall c h)

theorem isUnsafe_of_mem_units (hu : u ∈ units c) :
    SafeName.isUnsafe u = decide (c ∈ windowsUnsafeChars) := by
  obtain ⟨v, hv, hread, -⟩ | ⟨high, low, hunits, hhigh, hlow, -, -, hlarge⟩ := units_eq c
  · rw [hv, List.mem_singleton] at hu
    rw [SafeName.isUnsafe, hu, hread]
  · have hread : toChar u = '\x00' := by
      rw [hunits] at hu
      obtain rfl | rfl := List.mem_pair.mp hu
      · exact hhigh
      · exact hlow
    have hc : c ∉ windowsUnsafeChars := by
      intro hmem
      have hsmall := toNat_lt_of_mem_windowsUnsafeChars hmem
      omega
    rw [SafeName.isUnsafe, hread, decide_eq_false hc]
    decide

/-! ### Components -/

theorem components_ofText (text : List Char) :
    SafeName.components (ofText text) = (text.splitOnP isSeparator).map ofText := by
  refine List.splitOnP_flatMap (fun c hc => ?_) (fun c hc u hu => ?_) text
  · obtain hc | hc := (Bool.or_eq_true _ _).mp hc
    · exact ⟨SafeName.slash, of_decide_eq_true hc ▸ rfl, by decide⟩
    · exact ⟨SafeName.backslash, of_decide_eq_true hc ▸ rfl, by decide⟩
  · exact (isSeparator_of_mem_units hu).trans hc

theorem map_slashes_units (c : Char) :
    (units c).map (fun u => if u = SafeName.backslash then SafeName.slash else u) =
      units (if c = '\\' then '/' else c) := by
  split
  next h => exact h ▸ rfl
  next h =>
    refine (List.map_congr_left fun u hu => if_neg fun hbackslash => h ?_).trans (List.map_id _)
    exact (eq_iff_of_mem_units rfl (by decide) hu).mp hbackslash

theorem map_replace_units (c : Char) :
    (units c).map (fun u => if SafeName.isUnsafe u then SafeName.underscore else u) =
      units (if c ∈ windowsUnsafeChars then '_' else c) := by
  split
  next h =>
    obtain ⟨u, hu, hread, -⟩ | ⟨-, -, -, -, -, -, -, hlarge⟩ := units_eq c
    · have hreplaced := isUnsafe_of_mem_units (hu ▸ List.mem_singleton_self u : u ∈ units c)
      rw [hu, List.map_singleton, if_pos (hreplaced.trans (decide_eq_true h))]
      rfl
    · have hsmall := toNat_lt_of_mem_windowsUnsafeChars h
      omega
  next h =>
    refine (List.map_congr_left fun u hu => if_neg ?_).trans (List.map_id _)
    rw [isUnsafe_of_mem_units hu, decide_eq_true_eq]
    exact h

/-! ### Device names -/

theorem of_isDeviceName {name : List Char} (h : SafeName.IsDeviceName name) :
    ∀ c ∈ name, c ≠ '\x00' ∧ c.toNat < 0x10000 := by
  have hdigit {d : Char} (hd : d.isDigit) : d ≠ '\x00' ∧ d.toNat < 0x10000 := by
    obtain ⟨hleast, hmost⟩ := Char.isDigit_iff_toNat.mp hd
    refine ⟨?_, Nat.lt_of_le_of_lt hmost (by decide)⟩
    rintro rfl
    exact absurd hleast (by decide)
  have hnil : ∀ c ∈ ([] : List Char), c ≠ '\x00' ∧ c.toNat < 0x10000 :=
    fun c hc => absurd hc List.not_mem_nil
  cases h <;> simp only [List.forall_mem_cons]
  case con => exact ⟨by decide, by decide, by decide, hnil⟩
  case prn => exact ⟨by decide, by decide, by decide, hnil⟩
  case aux => exact ⟨by decide, by decide, by decide, hnil⟩
  case nul => exact ⟨by decide, by decide, by decide, hnil⟩
  case com d hd => exact ⟨by decide, by decide, by decide, hdigit hd, hnil⟩
  case lpt d hd => exact ⟨by decide, by decide, by decide, hdigit hd, hnil⟩

/-- What stands before the first dot is the same in both readings, or in neither one the name of
a device. -/
theorem takeWhile_ofText (seg : List Char) :
    (((ofText seg).map toChar).map Char.toUpper).takeWhile (· ≠ '.') =
        (seg.map Char.toUpper).takeWhile (· ≠ '.') ∨
      '\x00' ∈ (((ofText seg).map toChar).map Char.toUpper).takeWhile (· ≠ '.') ∧
        ∃ c ∈ (seg.map Char.toUpper).takeWhile (· ≠ '.'), 0x10000 ≤ c.toNat := by
  induction seg with
  | nil => exact .inl rfl
  | cons c seg ih =>
    rw [ofText, List.flatMap_cons, ← ofText]
    obtain ⟨u, hu, hread, -⟩ | ⟨high, low, hunits, hhigh, -, -, -, hlarge⟩ := units_eq c
    · rw [hu, List.singleton_append, List.map_cons, List.map_cons, List.map_cons, hread]
      by_cases hdot : c.toUpper = '.'
      · left
        rw [List.takeWhile_cons_of_neg (by simpa using hdot),
          List.takeWhile_cons_of_neg (by simpa using hdot)]
      · rw [List.takeWhile_cons_of_pos (by simpa using hdot),
          List.takeWhile_cons_of_pos (by simpa using hdot)]
        refine ih.imp (congrArg _) ?_
        rintro ⟨hzero, d, hd, hlarge⟩
        exact ⟨List.mem_cons_of_mem _ hzero, d, List.mem_cons_of_mem _ hd, hlarge⟩
    · -- two surrogates, which read as zeros, stand for a character beyond the patterns
      have hupper : c.toUpper = c := dif_neg fun h =>
        absurd (Nat.le_trans hlarge (UInt32.le_iff_toNat_le.mp h.2)) (by decide)
      right
      rw [hunits, List.cons_append, List.map_cons, List.map_cons, List.map_cons, hhigh, hupper]
      have hdot : c ≠ '.' := by
        rintro rfl
        exact absurd hlarge (by decide)
      rw [List.takeWhile_cons_of_pos (by decide), List.takeWhile_cons_of_pos (by simpa using hdot)]
      exact ⟨List.mem_cons_self, c, List.mem_cons_self, hlarge⟩

theorem isReserved_ofText (seg : List Char) :
    SafeName.isReserved (ofText seg) = isWindowsReserved seg := by
  rw [SafeName.isReserved, Bool.eq_iff_iff, SafeName.isWindowsReserved_iff,
    SafeName.isWindowsReserved_iff]
  obtain hsame | ⟨hzero, c, hc, hlarge⟩ := takeWhile_ofText seg
  · rw [hsame]
  · refine iff_of_false (fun h => (of_isDeviceName h _ hzero).1 rfl) fun h => ?_
    have hsmall := (of_isDeviceName h c hc).2
    omega

/-! ### The schema -/

theorem sanitizeFileName_ofString (name : String) :
    SafeName.sanitizeFileName (ofString name) = ofString (sanitizeFileName name) := by
  have hsplit (text : List Char) :
      (ofText text).splitOn SafeName.slash = (text.splitOn '/').map ofText := by
    rw [List.splitOn_eq_splitOnP, List.splitOn_eq_splitOnP]
    refine List.splitOnP_flatMap (fun c hc => ?_) (fun c hc u hu => ?_) text
    · exact ⟨SafeName.slash, beq_iff_eq.mp hc ▸ rfl, by decide⟩
    · rw [beq_eq_false_iff_ne] at hc ⊢
      exact fun hslash => hc ((eq_iff_of_mem_units rfl (by decide) hu).mp hslash)
  rw [SafeName.sanitizeFileName, sanitizeFileName, ofString, ofString, String.toList_ofList,
    ← ofText_map map_slashes_units, ← ofText_map map_replace_units, hsplit, ofText,
    List.flatMap_intercalate_singleton]
  congr 1
  refine List.map_map.trans (Eq.trans (List.map_congr_left fun seg _ => ?_) List.map_map.symm)
  rw [Function.comp_apply, Function.comp_apply, isReserved_ofText]
  split
  · exact (ofText_cons '_' seg).symm
  · rfl

theorem length_ofText (text : List Char) : (ofText text).length = unitLength text := by
  rw [ofText, List.length_flatMap, unitLength]
  refine congrArg List.sum (List.map_congr_left fun c _ => ?_)
  rw [units]
  split
  · rfl
  · rfl

theorem units_ne_nil (c : Char) : units c ≠ [] := by
  rw [units]
  split
  · exact List.cons_ne_nil _ _
  · exact List.cons_ne_nil _ _

theorem ofText_eq_nil_iff : ofText text = [] ↔ text = [] := by
  cases text with
  | nil => exact iff_of_true rfl rfl
  | cons c text =>
    rw [ofText_cons, List.append_eq_nil_iff]
    exact iff_of_false (fun h => units_ne_nil c h.1) (List.cons_ne_nil c text)

theorem ofText_eq_cons_iff {a : Char} {b : UInt16} {s : Units} (hb : b.toNat = a.toNat)
    (ha : a.toNat < 0x80) :
    ofText text = b :: s ↔ ∃ rest, text = a :: rest ∧ ofText rest = s := by
  have hunits : units a = [b] := by
    rw [units, if_pos (Nat.lt_trans ha (by decide)), ← hb, UInt16.ofNat_toNat]
  constructor
  · intro h
    cases text with
    | nil => exact absurd h.symm (List.cons_ne_nil b s)
    | cons c rest =>
      rw [ofText_cons] at h
      have hmem : b ∈ units c := by
        obtain ⟨u, us, hus⟩ := List.exists_cons_of_ne_nil (units_ne_nil c)
        rw [hus, List.cons_append] at h
        exact hus ▸ (List.cons.inj h).1 ▸ List.mem_cons_self
      obtain rfl := (eq_iff_of_mem_units hb ha hmem).mp rfl
      rw [hunits] at h
      exact ⟨rest, rfl, (List.cons.inj h).2⟩
  · rintro ⟨rest, rfl, rfl⟩
    rw [ofText_cons, hunits, List.singleton_append]

theorem ofText_eq_dots_iff : ofText text = [SafeName.dot, SafeName.dot] ↔ text = ['.', '.'] := by
  have hdot {text : List Char} {s : Units} := @ofText_eq_cons_iff text '.' SafeName.dot s rfl
    (by decide)
  simp only [hdot, ofText_eq_nil_iff, exists_eq_right]

theorem head?_all_ofText (text : List Char) :
    (ofText text).head?.all (!SafeName.isSeparator ·) = text.head?.all (!isSeparator ·) := by
  cases text with
  | nil => rfl
  | cons c text =>
    obtain ⟨u, us, hus⟩ := List.exists_cons_of_ne_nil (units_ne_nil c)
    have hu := isSeparator_of_mem_units (hus ▸ List.mem_cons_self : u ∈ units c)
    rw [ofText_cons, hus, List.cons_append, List.head?_cons, List.head?_cons, Option.all_some,
      Option.all_some, hu]

theorem all_ofText (text : List Char) :
    ((ofText text).all fun u => 0x20 ≤ u) = text.all fun c => 0x20 ≤ c.toNat := by
  rw [ofText, List.all_flatMap]
  congr 1
  funext c
  obtain ⟨u, hu, -, hnat, -⟩ | ⟨high, low, hunits, -, -, hhigh, hlow, hlarge⟩ := units_eq c
  · rw [hu, List.all_cons, List.all_nil, Bool.and_true, ← hnat]
    exact decide_eq_decide.mpr UInt16.le_iff_toNat_le
  · rw [hunits, List.all_cons, List.all_cons, List.all_nil, Bool.and_true,
      decide_eq_true (Nat.le_trans (by decide) hlarge)]
    exact (Bool.and_eq_true _ _).mpr
      ⟨decide_eq_true (UInt16.le_iff_toNat_le.mpr (Nat.le_trans (by decide) hhigh)),
        decide_eq_true (UInt16.le_iff_toNat_le.mpr (Nat.le_trans (by decide) hlow))⟩

/-- **The two models** of the schema agree on texts. -/
theorem safeFileName_ofString (name : String) :
    SafeName.safeFileName (ofString name) = (safeFileName name).map ofString := by
  have hdots : [SafeName.dot, SafeName.dot] ∉ (pathComponents name).map ofText ↔
      ['.', '.'] ∉ pathComponents name := by
    simp only [List.mem_map, ofText_eq_dots_iff, exists_eq_right]
  have hcomponents : SafeName.components (ofText name.toList) = (pathComponents name).map ofText :=
    components_ofText name.toList
  rw [SafeName.safeFileName, safeFileName, sanitizeFileName_ofString, ofString,
    head?_all_ofText, all_ofText, hcomponents]
  simp only [SafeName.maxPathLength, SafeName.maxComponentLength, length_ofText, ne_eq,
    ofText_eq_nil_iff, List.forall_mem_map, hdots]
  split
  · rfl
  · rfl

end Units

section Accepted

variable {payload info : InfoPayload} {name safe : String}

/-- There is room for an underscore in front of each device name. -/
def HasRoom (name : String) : Prop :=
  (∀ seg ∈ pathComponents name, isWindowsReserved seg → unitLength seg < 255) ∧
    unitLength name.toList + (pathComponents name).countP isWindowsReserved ≤ 4096

theorem isSafe_of_hasRoom (h : safeFileName name = some safe) (hroom : HasRoom name) :
    SafeName.IsSafe (ofString safe) := by
  have haccepted : SafeName.safeFileName (ofString name) = some (ofString safe) := by
    rw [safeFileName_ofString, h, Option.map_some]
  have hcomponents : SafeName.components (ofString name) = (pathComponents name).map ofText :=
    components_ofText name.toList
  have hreserved : SafeName.isReserved ∘ ofText = isWindowsReserved := funext isReserved_ofText
  refine SafeName.isSafe_of_room haccepted ?_ ?_
  · rw [hcomponents, List.forall_mem_map]
    intro seg hseg hdevice
    rw [length_ofText]
    exact hroom.1 seg hseg (isReserved_ofText seg ▸ hdevice)
  · rw [hcomponents, List.countP_map, hreserved, ofString, length_ofText]
    exact hroom.2

/-- **Accepted names** are safe if there was room in the names as they were sent. -/
theorem isSafe_of_parseInfo (h : parseInfo payload = some info)
    (hroom : ∀ raw ∈ payload.files, HasRoom raw.fileName) :
    ∀ f ∈ info.files, SafeName.IsSafe (ofString f.fileName) := by
  intro f hf
  obtain ⟨raw, hraw, hname⟩ := exists_of_mem_files h hf
  exact isSafe_of_hasRoom hname (hroom raw hraw)

/-- The name of a device, in a folder. -/
theorem isSafe_of_parseInfo_device : SafeName.IsSafe (ofString "a/_CON.txt") := by
  have hinfo : parseInfo { files := [{ fileName := "a/CON.txt", size := 3, type := "" }] } =
      some { files := [{ fileName := "a/_CON.txt", size := 3, type := "" }] } := by decide +kernel
  refine isSafe_of_parseInfo hinfo (fun raw hraw => ?_) _ (List.mem_singleton_self _)
  rw [List.mem_singleton.mp hraw]
  exact ⟨by decide +kernel, by decide +kernel⟩

end Accepted

end Rapidly.FileSharing.Downloader
