import Mathlib.Data.Bool.AllAny
import Rapidly.FileSharing.Messages
import Rapidly.Json.Integers
import Rapidly.Json.WellFormed
import Rapidly.Text.Separators

/-!
# What keys are derived from

The info strings from which `utils/file-sharing/encryption.ts` has HKDF derive material of a share,
and the message that a key commitment signs. Both are put together from names that the peer has
chosen, with colons between them, and encoded as UTF-8.

A colon in a name does no harm: what stands before the name in an info string, and behind it in a
message, has none. But a name is a list of UTF-16 code units here, and not a text, as it is for the
rest of the transfer: `TextEncoder` makes replacement characters of all halves of surrogate pairs
that stand alone, and names that differ in these only become the same.

* `info_eq_iff`, `message_eq_iff`: what an info string and a message determine.
* `separated_iff` is the exact condition on two requests and on two messages.
-/

namespace Rapidly.FileSharing

open Json

/-- A request for derived material, with names that are strings or texts. -/
inductive Request (ν σ : Type) where
  /-- `deriveFileKey` -/
  | fileKey (fileIndex : ν) (fileName : σ)
  /-- `deriveCommitmentKey` -/
  | commitmentKey (fileIndex : ν) (fileName : σ)
  /-- `deriveMetadataKey` -/
  | metadataKey
  /-- `deriveReaderToken` -/
  | readerToken
deriving DecidableEq

/-- What a key commitment is computed from. -/
structure Commitment (ν σ : Type) where
  fileName : σ
  fileSize : ν
  fileIndex : ν
  salt : List UInt8
deriving DecidableEq

/-- The request with another name. -/
def Request.map {ν σ τ : Type} (f : σ → τ) : Request ν σ → Request ν τ
  | fileKey fileIndex fileName => fileKey fileIndex (f fileName)
  | commitmentKey fileIndex fileName => commitmentKey fileIndex (f fileName)
  | metadataKey => metadataKey
  | readerToken => readerToken

def Commitment.map {ν σ τ : Type} (f : σ → τ) (c : Commitment ν σ) : Commitment ν τ :=
  { c with fileName := f c.fileName }

variable {ν : Type} [Numeral ν]

/-- The numbers of a request are such as JSON can carry. -/
def Request.IsFinite {σ : Type} : Request ν σ → Prop
  | fileKey fileIndex _ | commitmentKey fileIndex _ => Numeral.IsFinite fileIndex
  | metadataKey | readerToken => True

def Commitment.IsFinite {σ : Type} (c : Commitment ν σ) : Prop :=
  Numeral.IsFinite c.fileSize ∧ Numeral.IsFinite c.fileIndex

/-- The info string of a request. -/
def Request.infoString : Request ν Units → Units
  | fileKey fileIndex fileName =>
    ofText ("file-sharing:".toList ++ (Numeral.toText fileIndex ++ [':'])) ++ fileName
  | commitmentKey fileIndex fileName =>
    ofText ("file-sharing-commitment:".toList ++ (Numeral.toText fileIndex ++ [':'])) ++ fileName
  | metadataKey => ofText "file-sharing-metadata".toList
  | readerToken => ofText "file-sharing-reader-auth".toList

/-- `info` -/
def Request.info (r : Request ν Units) : List UInt8 := encodeUnits r.infoString

/-- The message of a commitment as a string. -/
def Commitment.messageString (c : Commitment ν Units) : Units :=
  c.fileName ++ ofText (':' :: (Numeral.toText c.fileSize ++ ':' :: (Numeral.toText c.fileIndex ++
    ':' :: (WebCrypto.toHex c.salt).toList)))

/-- `message` of `computeKeyCommitment`. -/
def Commitment.message (c : Commitment ν Units) : List UInt8 := encodeUnits c.messageString

/-! ### Numbers and salts -/

section Parts

variable {n m : ν}

theorem isPlain_of_isNumberChar {c : Char} (h : isNumberChar c = true) : IsPlain c ∧ c ≠ ':' := by
  rw [isNumberChar] at h
  simp only [Bool.or_eq_true, decide_eq_true_eq] at h
  obtain ((((h | rfl) | rfl) | rfl) | rfl) | rfl := h
  · refine ⟨isPlain_of_isDigit h, ?_⟩
    rintro rfl
    exact absurd h (by decide)
  all_goals decide

theorem isPlain_toText (h : Numeral.IsFinite n) :
    ∀ c ∈ Numeral.toText n, IsPlain c ∧ c ≠ ':' := by
  have hnumber := Numeral.isNumber_toText n h
  rw [isNumber, Bool.and_eq_true, List.all_eq_true] at hnumber
  exact fun c hc => isPlain_of_isNumberChar (hnumber.1 c hc)

theorem colon_notMem_toText (h : Numeral.IsFinite n) : ':' ∉ Numeral.toText n := fun hmem =>
  (isPlain_toText h ':' hmem).2 rfl

theorem toText_inj (hn : Numeral.IsFinite n) (hm : Numeral.IsFinite m) :
    Numeral.toText n = Numeral.toText m ↔ n = m := by
  constructor
  · intro h
    rw [← Numeral.value_toText n hn, h, Numeral.value_toText m hm]
  · rintro rfl
    rfl

theorem hexDigits_lt : ∀ n < 16, IsPlain (Nat.digitChar n) ∧ Nat.digitChar n ≠ ':' ∧
    ∀ m < 16, Nat.digitChar n = Nat.digitChar m → n = m := by decide

theorem isPlain_toHex (salt : List UInt8) :
    ∀ c ∈ (WebCrypto.toHex salt).toList, IsPlain c ∧ c ≠ ':' := by
  intro c hc
  rw [WebCrypto.toHex, String.toList_ofList] at hc
  obtain ⟨b, -, hb⟩ := List.mem_flatMap.mp hc
  have hlt := b.toNat_lt
  have hhigh := hexDigits_lt (b.toNat / 16) (by omega)
  have hlow := hexDigits_lt (b.toNat % 16) (by omega)
  rw [List.mem_cons, List.mem_singleton] at hb
  obtain rfl | rfl := hb
  · exact ⟨hhigh.1, hhigh.2.1⟩
  · exact ⟨hlow.1, hlow.2.1⟩

theorem toHex_injective : Function.Injective WebCrypto.toHex := by
  intro a b h
  replace h := String.ofList_inj.mp h
  induction a generalizing b with
  | nil =>
    cases b with
    | nil => rfl
    | cons y b => exact absurd h (by simp)
  | cons x a ih =>
    cases b with
    | nil => exact absurd h (by simp)
    | cons y b =>
      rw [List.flatMap_cons, List.flatMap_cons] at h
      obtain ⟨hhigh, h⟩ := List.cons.inj h
      obtain ⟨hlow, h⟩ := List.cons.inj h
      have hx := x.toNat_lt
      have hy := y.toNat_lt
      have hdiv := (hexDigits_lt (x.toNat / 16) (by omega)).2.2 _ (by omega) hhigh
      have hmod := (hexDigits_lt (x.toNat % 16) (by omega)).2.2 _ (by omega) hlow
      have hsame : x = y := UInt8.toNat_inj.mp (by omega)
      rw [hsame, ih h]

end Parts

/-! ### What is determined -/

section Determined

variable {r r' : Request ν Units} {c c' : Commitment ν Units}

theorem toText_numbered {lead : List Char} (hlead : ∀ c ∈ lead, IsPlain c) {n : ν}
    (hn : Numeral.IsFinite n) (fileName : Units) :
    toText (ofText (lead ++ (Numeral.toText n ++ [':'])) ++ fileName) =
      lead ++ (Numeral.toText n ++ ':' :: toText fileName) := by
  have hplain : ∀ c ∈ lead ++ (Numeral.toText n ++ [':']), IsPlain c := by
    simp only [List.forall_mem_append, List.forall_mem_singleton]
    exact ⟨hlead, fun c hc => (isPlain_toText hn c hc).1, by decide⟩
  rw [toText_ofText_append hplain]
  simp only [List.append_assoc, List.singleton_append]

theorem toText_constant {text : List Char} (h : ∀ c ∈ text, IsPlain c) :
    toText (ofText text) = text := by
  have htext := toText_ofText_append h []
  rw [List.append_nil] at htext
  exact htext.trans (List.append_nil text)

theorem numbered_inj (lead : List Char) {n m : ν} (hn : Numeral.IsFinite n)
    (hm : Numeral.IsFinite m) {a b : List Char} :
    lead ++ (Numeral.toText n ++ ':' :: a) = lead ++ (Numeral.toText m ++ ':' :: b) ↔
      n = m ∧ a = b := by
  rw [List.append_cancel_left_eq, List.append_cons_inj_left (colon_notMem_toText hn)
    (colon_notMem_toText hm), toText_inj hn hm]

/-- What an info string is as a text. -/
def Request.text : Request ν (List Char) → List Char
  | fileKey fileIndex fileName =>
    "file-sharing:".toList ++ (Numeral.toText fileIndex ++ ':' :: fileName)
  | commitmentKey fileIndex fileName =>
    "file-sharing-commitment:".toList ++ (Numeral.toText fileIndex ++ ':' :: fileName)
  | metadataKey => "file-sharing-metadata".toList
  | readerToken => "file-sharing-reader-auth".toList

theorem toText_infoString (hr : r.IsFinite) : toText r.infoString = (r.map toText).text := by
  cases r with
  | fileKey fileIndex fileName =>
    exact toText_numbered (List.all_iff_forall_prop.mp (by decide)) hr fileName
  | commitmentKey fileIndex fileName =>
    exact toText_numbered (List.all_iff_forall_prop.mp (by decide)) hr fileName
  | metadataKey => exact toText_constant (List.all_iff_forall_prop.mp (by decide))
  | readerToken => exact toText_constant (List.all_iff_forall_prop.mp (by decide))

theorem text_inj {q q' : Request ν (List Char)} (hq : q.IsFinite) (hq' : q'.IsFinite) :
    q.text = q'.text ↔ q = q' := by
  constructor
  · intro h
    have hmark : q.text[12]? = q'.text[12]? ∧ q.text[13]? = q'.text[13]? := by
      rw [h]
      exact ⟨rfl, rfl⟩
    cases q <;> cases q'
    case fileKey.fileKey n a m b =>
      obtain ⟨rfl, rfl⟩ := (numbered_inj _ hq hq').mp h
      rfl
    case commitmentKey.commitmentKey n a m b =>
      obtain ⟨rfl, rfl⟩ := (numbered_inj _ hq hq').mp h
      rfl
    case metadataKey.metadataKey => rfl
    case readerToken.readerToken => rfl
    all_goals
      obtain ⟨h12, h13⟩ := hmark
      first
      | exact absurd (Option.some.inj h12) (by decide)
      | exact absurd (Option.some.inj h13) (by decide)
  · rintro rfl
    rfl

theorem isFinite_map {σ τ : Type} {f : σ → τ} {q : Request ν σ} (hq : q.IsFinite) :
    (q.map f).IsFinite := by
  cases q <;> exact hq

/-- **Info strings** are the same if the purpose is, the index, and the name as a text. -/
theorem info_eq_iff (hr : r.IsFinite) (hr' : r'.IsFinite) :
    r.info = r'.info ↔ r.map toText = r'.map toText := by
  rw [Request.info, Request.info, encodeUnits, encodeUnits, Utf8.encode_injective.eq_iff,
    toText_infoString hr, toText_infoString hr', text_inj (isFinite_map hr) (isFinite_map hr')]

/-- **Messages** are the same if the name is as a text, the size, the index and the salt. -/
theorem message_eq_iff (hc : c.IsFinite) (hc' : c'.IsFinite) :
    c.message = c'.message ↔ c.map toText = c'.map toText := by
  have htext {c : Commitment ν Units} (hc : c.IsFinite) : toText c.messageString =
      ((toText c.fileName ++ ':' :: Numeral.toText c.fileSize) ++
        ':' :: Numeral.toText c.fileIndex) ++ ':' :: (WebCrypto.toHex c.salt).toList := by
    rw [Commitment.messageString, toText_append_ofText]
    · simp only [List.append_assoc, List.cons_append]
    · simp only [List.forall_mem_cons, List.forall_mem_append]
      exact ⟨by decide, fun c' hc' => (isPlain_toText hc.1 c' hc').1, by decide,
        fun c' hc' => (isPlain_toText hc.2 c' hc').1, by decide,
        fun c' hc' => (isPlain_toHex c.salt c' hc').1⟩
  have hhex (salt : List UInt8) : ':' ∉ (WebCrypto.toHex salt).toList := fun hmem =>
    (isPlain_toHex salt ':' hmem).2 rfl
  -- the separators are found from the right
  rw [Commitment.message, Commitment.message, encodeUnits, encodeUnits,
    Utf8.encode_injective.eq_iff, htext hc, htext hc',
    List.append_cons_inj_right (hhex _) (hhex _),
    List.append_cons_inj_right (colon_notMem_toText hc.2) (colon_notMem_toText hc'.2),
    List.append_cons_inj_right (colon_notMem_toText hc.1) (colon_notMem_toText hc'.1),
    toText_inj hc.1 hc'.1, toText_inj hc.2 hc'.2, String.toList_inj, toHex_injective.eq_iff]
  obtain ⟨name, size, index, salt⟩ := c
  obtain ⟨name', size', index', salt'⟩ := c'
  rw [Commitment.map, Commitment.map, Commitment.mk.injEq]
  simp only [and_assoc]

end Determined

/-! ### Separation -/

/-- Different requests have different info strings. -/
def Separates (r r' : Request ν Units) : Prop := r ≠ r' → r.info ≠ r'.info

/-- A message has been computed from one file only. -/
def Determines (c c' : Commitment ν Units) : Prop := c.message = c'.message → c = c'

/-- **Domain separation**, for two requests and two files whose numbers JSON can carry: it holds
exactly if they do not become the same when their names are read as texts. -/
theorem separated_iff {r r' : Request ν Units} {c c' : Commitment ν Units}
    (hr : r.IsFinite ∧ r'.IsFinite) (hc : c.IsFinite ∧ c'.IsFinite) :
    Separates r r' ∧ Determines c c' ↔
      (r.map toText = r'.map toText → r = r') ∧ (c.map toText = c'.map toText → c = c') := by
  rw [Separates, Determines, ne_eq, ne_eq, not_imp_not, info_eq_iff hr.1 hr.2,
    message_eq_iff hc.1 hc.2]

/-- Names with colons and digits. -/
theorem separated_colons :
    Separates (.fileKey (1 : ℤ) (ofString "1:a")) (.commitmentKey 1 (ofString "1:a")) ∧
      Determines (⟨ofString "a:1", 2, 3, [4]⟩ : Commitment ℤ Units) ⟨ofString "a", 1, 2, [3]⟩ := by
  refine (separated_iff ?_ ?_).mpr ⟨by decide, by decide⟩
  · exact ⟨trivial, trivial⟩
  · exact ⟨⟨trivial, trivial⟩, trivial, trivial⟩

/-- Two halves of surrogate pairs that stand alone are one name to HKDF. -/
theorem loneSurrogates_collide : ¬∀ (r r' : Request ℤ Units) (c c' : Commitment ℤ Units),
    r.IsFinite ∧ r'.IsFinite → c.IsFinite ∧ c'.IsFinite → Separates r r' ∧ Determines c c' := by
  intro h
  have hboth := h (.fileKey 0 [0xd800]) (.fileKey 0 [0xd801]) ⟨[0xd800], 1, 0, [1]⟩
    ⟨[0xd801], 1, 0, [1]⟩ ⟨trivial, trivial⟩ ⟨⟨trivial, trivial⟩, trivial, trivial⟩
  exact hboth.1 (by decide) (by decide +kernel)

end Rapidly.FileSharing
