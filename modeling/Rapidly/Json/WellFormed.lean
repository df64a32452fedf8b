import Rapidly.Json.Styles
import Rapidly.Json.Utf8

/-!
# Strings as texts

A JavaScript string is a list of UTF-16 code units, in which a half of a surrogate pair may stand
alone. `toText` is the text that such a string is encoded as: a half that stands alone becomes a
replacement character, and so two strings can be one text. Where units are put together that do
not make up a pair, texts are put together.
-/

namespace Json

/-- The character of a unit that is no half of a pair. -/
def scalar (u : UInt16) : Char :=
  if isLeading u ∨ isTrailing u then Utf8.replacement else .ofNat u.toNat

/-- `String.prototype.toWellFormed`, as a text. -/
def toText : Units → List Char
  | [] => []
  | [u] => [scalar u]
  | u :: v :: rest =>
    if isLeading u ∧ isTrailing v then pairChar u v :: toText rest
    else scalar u :: toText (v :: rest)

/-- `TextEncoder.encode` -/
def encodeUnits (s : Units) : List UInt8 := Utf8.encode (toText s)

/-! ### Texts that are put together -/

section Append

variable {u : UInt16} {s rest : Units}

theorem toText_cons (h : isLeading u = false) (s : Units) :
    toText (u :: s) = scalar u :: toText s := by
  cases s with
  | nil => rfl
  | cons v rest =>
    rw [toText, if_neg]
    exact fun hpair => Bool.noConfusion (h.symm.trans hpair.1)

theorem toText_append_cons (h : isTrailing u = false) (s rest : Units) :
    toText (s ++ u :: rest) = toText s ++ toText (u :: rest) := by
  have hnot (v : UInt16) : ¬(isLeading v ∧ isTrailing u) := fun hpair =>
    Bool.noConfusion (h.symm.trans hpair.2)
  induction s using toText.induct with
  | case1 => rfl
  | case2 v =>
    have hsingle : toText (v :: u :: rest) = scalar v :: toText (u :: rest) := by
      rw [toText, if_neg (hnot v)]
    exact hsingle
  | case3 v w more hpair ih =>
    rw [toText, if_pos hpair, List.cons_append, List.cons_append, toText, if_pos hpair, ih]
    rfl
  | case4 v w more hpair ih =>
    rw [toText, if_neg hpair, List.cons_append, List.cons_append, toText, if_neg hpair,
      ← List.cons_append, ih]
    rfl

theorem toText_append_char {c : Char} (hc : IsPlain c) (s rest : Units) :
    toText (s ++ (ofText [c] ++ rest)) = toText s ++ c :: toText rest := by
  have hunits : ofText [c] ++ rest = UInt16.ofNat c.toNat :: rest := by
    rw [ofText, List.flatMap_singleton, hc.units, List.singleton_append]
  have hlt := hc.2.1
  have hleading : isLeading (.ofNat c.toNat) = false := by
    rw [isLeading, hc.toNat_ofNat, Bool.and_eq_false_iff, decide_eq_false_iff_not]
    omega
  have htrailing : isTrailing (.ofNat c.toNat) = false := by
    rw [isTrailing, hc.toNat_ofNat, Bool.and_eq_false_iff, decide_eq_false_iff_not]
    omega
  have hscalar : scalar (.ofNat c.toNat) = c := by
    rw [scalar, hleading, htrailing, if_neg (by decide), hc.toNat_ofNat, Char.ofNat_toNat]
  rw [hunits, toText_append_cons htrailing, toText_cons hleading, hscalar]

/-- A plain text is encoded as it is, whatever comes after it. -/
theorem toText_ofText_append {text : List Char} (h : ∀ c ∈ text, IsPlain c) (rest : Units) :
    toText (ofText text ++ rest) = text ++ toText rest := by
  induction text with
  | nil => rfl
  | cons c text ih =>
    have hchar := toText_append_char (h c List.mem_cons_self) [] (ofText text ++ rest)
    have htext := ih fun d hd => h d (List.mem_cons_of_mem c hd)
    have hsplit : ofText (c :: text) = ofText [c] ++ ofText text := by
      simp [ofText]
    rw [List.nil_append, htext] at hchar
    rw [hsplit, List.append_assoc, hchar]
    rfl

theorem toText_append_ofText {c : Char} {text : List Char} (h : ∀ d ∈ c :: text, IsPlain d)
    (s : Units) : toText (s ++ ofText (c :: text)) = toText s ++ c :: text := by
  obtain ⟨hc, htext⟩ := List.forall_mem_cons.mp h
  have hchar := toText_append_char hc s (ofText text ++ [])
  have hsplit : ofText (c :: text) = ofText [c] ++ ofText text := by
    simp [ofText]
  rw [toText_ofText_append htext, List.append_nil] at hchar
  rw [hsplit, hchar]
  exact congrArg (fun tail => toText s ++ c :: tail) (List.append_nil text)

end Append

end Json

namespace Utf8

theorem encode_injective : Function.Injective encode := by
  intro a b h
  rw [← decode_text a, h, decode_text]

end Utf8
