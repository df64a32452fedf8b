import Rapidly.KeyValue.Lifetime

/-!
# Hashes

A hash is a value with fields: a list of pairs, in which `HSET` puts a field in the place of an
older one of that name. A hash without fields is a key that does not exist, so `HDEL` of the last
field removes the key.

`fields` is what a command sees of a hash. `entryAt_hset_expire` is the idiom of storing a field
and renewing the time to live of the hash, and `fields_hdel` is what `HDEL` leaves.
-/

namespace KeyValue

universe u v

namespace Store

variable {K : Type u} {F V : Type v}

/-- The fields of a hash, none if the key does not exist. -/
def fields (s : Store K (List (F × V))) (now : ℕ) (k : K) : List (F × V) :=
  (s.get now k).getD []

/-- `HLEN`. -/
def hlen (s : Store K (List (F × V))) (now : ℕ) (k : K) : ℕ := (s.fields now k).length

/-- `HKEYS`. -/
def hkeys (s : Store K (List (F × V))) (now : ℕ) (k : K) : List F :=
  (s.fields now k).map Prod.fst

section Write

variable [DecidableEq K] [DecidableEq F]

/-- `HSET` of one field. -/
def hset (s : Store K (List (F × V))) (now : ℕ) (k : K) (f : F) (v : V) :
    Store K (List (F × V)) :=
  let written := (s.fields now k).filter (·.1 ≠ f) ++ [(f, v)]
  match s.entryAt now k with
  | none => s.put k (some ⟨written, none⟩)
  | some e => s.put k (some { e with value := written })

/-- `HDEL` of one field. -/
def hdel (s : Store K (List (F × V))) (now : ℕ) (k : K) (f : F) : Store K (List (F × V)) :=
  match s.entryAt now k with
  | none => s
  | some e =>
    let left := e.value.filter (·.1 ≠ f)
    s.put k (if left.isEmpty then none else some { e with value := left })

/-- `HDEL` of several fields. -/
def hdelAll (s : Store K (List (F × V))) (now : ℕ) (k : K) (fs : List F) :
    Store K (List (F × V)) :=
  fs.foldl (fun s f => s.hdel now k f) s

end Write

section Lemmas

variable {s : Store K (List (F × V))} {now later : ℕ} {k k' : K} {f : F} {v : V}

theorem fields_of_entryAt {e : Entry (List (F × V))} (h : s.entryAt now k = some e) :
    s.fields now k = e.value := by
  rw [fields, get, h]
  rfl

theorem fields_of_none (h : s.entryAt now k = none) : s.fields now k = [] := by
  rw [fields, get, h]
  rfl

theorem fields_congr {t : Store K (List (F × V))} (h : t.entryAt now k = s.entryAt now k) :
    t.fields now k = s.fields now k := by
  rw [fields, get, h, fields, get]

theorem exists_entryAt_of_mem {p : F × V} (h : p ∈ s.fields now k) :
    ∃ e, s.entryAt now k = some e ∧ p ∈ e.value := by
  obtain hnone | ⟨e, he⟩ := Option.eq_none_or_eq_some (s.entryAt now k)
  · rw [fields_of_none hnone] at h
    exact absurd h List.not_mem_nil
  · exact ⟨e, he, fields_of_entryAt he ▸ h⟩

theorem mem_fields_of_le {p : F × V} (hle : now ≤ later) (h : p ∈ s.fields later k) :
    p ∈ s.fields now k := by
  obtain ⟨e, he, hp⟩ := exists_entryAt_of_mem h
  rw [entryAt_of_le hle] at he
  rwa [fields_of_entryAt (Option.filter_eq_some_iff.mp he).1]

variable [DecidableEq K]

@[simp] theorem fields_delete_self : (s.delete k).fields now k = [] :=
  fields_of_none entryAt_delete_self

theorem fields_delete_of_ne (h : k' ≠ k) : (s.delete k).fields now k' = s.fields now k' :=
  fields_congr (entryAt_delete_of_ne h)

variable [DecidableEq F]

theorem entryAt_hset_of_ne (h : k' ≠ k) :
    (s.hset now k f v).entryAt now k' = s.entryAt now k' := by
  unfold hset
  split
  · exact entryAt_put_of_ne h _
  · exact entryAt_put_of_ne h _

theorem entryAt_hset_expire (seconds : ℕ) :
    ((s.hset now k f v).expire now k seconds).entryAt now k =
      some ⟨(s.fields now k).filter (·.1 ≠ f) ++ [(f, v)], some (now + 1000 * seconds)⟩ := by
  have hwritten : ∃ e, (s.hset now k f v).entryAt now k = some e ∧
      e.value = (s.fields now k).filter (·.1 ≠ f) ++ [(f, v)] := by
    unfold hset
    obtain hnone | ⟨e, he⟩ := Option.eq_none_or_eq_some (s.entryAt now k)
    · rw [hnone]
      exact ⟨_, entryAt_put_self _, rfl⟩
    · rw [he]
      refine ⟨{ e with value := _ }, ?_, rfl⟩
      rw [entryAt_put_self, Option.filter_some]
      exact if_pos (liveAt_of_entryAt he)
  obtain ⟨e, he, hvalue⟩ := hwritten
  rw [entryAt_expire_self, he, ← hvalue]
  rfl

theorem entryAt_hdel_of_ne (h : k' ≠ k) :
    (s.hdel now k f).entryAt now k' = s.entryAt now k' := by
  rw [hdel]
  split
  · rfl
  · exact entryAt_put_of_ne h _

theorem entryAt_hdel_self :
    (s.hdel now k f).entryAt now k = (s.entryAt now k).bind fun e =>
      if (e.value.filter (·.1 ≠ f)).isEmpty then none
      else some { e with value := e.value.filter (·.1 ≠ f) } := by
  rw [hdel]
  obtain hnone | ⟨e, he⟩ := Option.eq_none_or_eq_some (s.entryAt now k)
  · rw [hnone]
    exact hnone
  · rw [he]
    rw [entryAt_put_self, Option.bind_some]
    split
    · rfl
    · rw [Option.filter_some]
      exact if_pos (liveAt_of_entryAt he)

theorem fields_hdel : (s.hdel now k f).fields now k = (s.fields now k).filter (·.1 ≠ f) := by
  obtain hnone | ⟨e, he⟩ := Option.eq_none_or_eq_some (s.entryAt now k)
  · rw [fields_of_none hnone, fields_of_none]
    · rfl
    · rw [entryAt_hdel_self, hnone]
      rfl
  · rw [fields_of_entryAt he]
    by_cases hempty : (e.value.filter (·.1 ≠ f)).isEmpty
    · rw [List.isEmpty_iff.mp hempty, fields_of_none]
      rw [entryAt_hdel_self, he, Option.bind_some, if_pos hempty]
    · rw [fields_of_entryAt (e := { e with value := e.value.filter (·.1 ≠ f) })]
      rw [entryAt_hdel_self, he, Option.bind_some, if_neg hempty]

theorem entryAt_hset_self :
    (s.hset now k f v).entryAt now k =
      some ⟨(s.fields now k).filter (·.1 ≠ f) ++ [(f, v)],
        (s.entryAt now k).bind Entry.expiresAt⟩ := by
  rw [hset]
  obtain hnone | ⟨e, he⟩ := Option.eq_none_or_eq_some (s.entryAt now k)
  · rw [hnone]
    exact entryAt_put_self _
  · rw [he]
    rw [entryAt_put_self, Option.filter_some]
    exact if_pos (liveAt_of_entryAt he)

theorem entryAt_hdelAll_of_ne (h : k' ≠ k) (fs : List F) :
    (s.hdelAll now k fs).entryAt now k' = s.entryAt now k' := by
  rw [hdelAll]
  induction fs generalizing s with
  | nil => rfl
  | cons f fs ih => exact ih.trans (entryAt_hdel_of_ne h)

theorem exists_entryAt_hdelAll {e : Entry (List (F × V))} {p : F × V} {fs : List F}
    (he : s.entryAt now k = some e) (hp : p ∈ e.value) (hfs : p.1 ∉ fs) :
    ∃ e', (s.hdelAll now k fs).entryAt now k = some e' ∧ p ∈ e'.value ∧
      e'.expiresAt = e.expiresAt := by
  rw [hdelAll]
  induction fs generalizing s e with
  | nil => exact ⟨e, he, hp, rfl⟩
  | cons f fs ih =>
    obtain ⟨hf, hfs⟩ := not_or.mp (List.mem_cons.not.mp hfs)
    have hmem : p ∈ e.value.filter (·.1 ≠ f) := List.mem_filter.mpr ⟨hp, decide_eq_true hf⟩
    have hnonempty : ¬(e.value.filter (·.1 ≠ f)).isEmpty := fun hempty => by
      rw [List.isEmpty_iff.mp hempty] at hmem
      exact List.not_mem_nil hmem
    have hnext : (s.hdel now k f).entryAt now k =
        some { e with value := e.value.filter (·.1 ≠ f) } := by
      rw [entryAt_hdel_self, he, Option.bind_some, if_neg hnonempty]
    exact ih (s := s.hdel now k f) (e := { e with value := e.value.filter (·.1 ≠ f) })
      hnext hmem hfs

theorem Forall.hdelAll {P : K → F × V → Prop}
    (h : Forall (fun k fields => ∀ p ∈ fields, P k p) s) (fs : List F) :
    Forall (fun k fields => ∀ p ∈ fields, P k p) (s.hdelAll now k fs) := by
  rw [Store.hdelAll]
  induction fs generalizing s with
  | nil => exact h
  | cons f fs ih =>
    have hnext : Forall (fun k fields => ∀ p ∈ fields, P k p) (s.hdel now k f) := by
      rw [hdel]
      split
      · exact h
      next e he =>
        have hold := h k e (entryAt_eq_some he)
        refine h.put fun e' he' => ?_
        split at he'
        · cases he'
        · obtain rfl := Option.some_inj.mp he'
          exact fun p hp => hold p (List.mem_filter.mp hp).1
    exact ih hnext

theorem Forall.hset {P : K → F × V → Prop}
    (h : Forall (fun k fields => ∀ p ∈ fields, P k p) s) (hp : P k (f, v)) :
    Forall (fun k fields => ∀ p ∈ fields, P k p) (s.hset now k f v) := by
  have hwritten : ∀ p ∈ (s.fields now k).filter (·.1 ≠ f) ++ [(f, v)], P k p := by
    intro p hmem
    rcases List.mem_append.mp hmem with hold | hnew
    · obtain ⟨e, he, hpe⟩ := exists_entryAt_of_mem (List.mem_filter.mp hold).1
      exact h k e (entryAt_eq_some he) p hpe
    · rw [List.mem_singleton.mp hnew]
      exact hp
  rw [Store.hset]
  split
  · exact h.put_some hwritten
  · exact h.put_some hwritten

end Lemmas

end Store

end KeyValue
