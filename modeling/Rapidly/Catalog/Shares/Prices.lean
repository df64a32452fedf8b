import Mathlib.Data.List.Dedup
import Mathlib.Data.List.Perm.Subperm

/-!
# The prices of a share

`get_validated_prices` of `catalog/share/actions.py` checks the prices of a request: new ones, and
ones that the share has, which are looked up among those that were loaded.

* `errors_eq_nil_iff`: there are no errors if and only if every price that is referred to has been
  loaded and the prices of the request are `WellFormed`.
* `WellFormed.stored`: then so are the prices that the share is left with, those of the
  loaded ones that the request mentions and the new ones. The request may mention a price twice.
-/

namespace Rapidly.Catalog.Prices

/-- `PresentmentCurrency`. -/
inductive PresentmentCurrency where
  | aud
  | brl
  | cad
  | chf
  | eur
  | inr
  | gbp
  | jpy
  | sek
  | usd
deriving DecidableEq

/-- `SharePriceAmountType`. -/
inductive AmountType where
  | fixed
  | custom
  | free
  | meteredUnit
  | seatBased
deriving DecidableEq

structure SharePrice where
  amountType : AmountType
  priceCurrency : PresentmentCurrency
deriving DecidableEq

def SharePrice.isStatic (price : SharePrice) : Bool :=
  match price.amountType with
  | .fixed | .free | .custom | .seatBased => true
  | .meteredUnit => false

/-- The prices that a request can add. -/
inductive SharePriceCreate where
  | fixed (priceCurrency : PresentmentCurrency)
  | custom (priceCurrency : PresentmentCurrency)
  | free (priceCurrency : PresentmentCurrency)
deriving DecidableEq

/-- The model of the class `get_model_class`. -/
def SharePriceCreate.price : SharePriceCreate → SharePrice
  | .fixed priceCurrency => { amountType := .fixed, priceCurrency }
  | .custom priceCurrency => { amountType := .custom, priceCurrency }
  | .free priceCurrency => { amountType := .free, priceCurrency }

/-- An item of the request; the prices of a share are numbered. -/
inductive SharePriceUpdate where
  | existing (id : ℕ)
  | added (schema : SharePriceCreate)
deriving DecidableEq

/-! ### Validation -/

/-- A part of a `loc`. -/
inductive Key where
  | field (name : String)
  | index (n : ℕ)
deriving DecidableEq

inductive Input where
  | id (id : ℕ)
  | schema (requested : List SharePriceUpdate)
deriving DecidableEq

structure ValidationError where
  type : String
  loc : List Key
  msg : String
  input : Input
deriving DecidableEq

def errorPrefix : List Key := [.field "body", .field "prices"]

/-- What `get_validated_prices` returns. The existing prices are a set. -/
structure Validated where
  prices : List SharePrice := []
  existing : List ℕ := []
  added : List SharePrice := []
  errors : List ValidationError := []
deriving DecidableEq

/-- `get_price`, among the prices that were loaded. -/
def getPrice (loaded : List (ℕ × SharePrice)) (id : ℕ) : Option SharePrice :=
  (loaded.find? (·.1 = id)).map Prod.snd

/-- The loop over the request, from an index on. -/
def collect (loaded : List (ℕ × SharePrice)) : ℕ → List SharePriceUpdate → Validated
  | _, [] => {}
  | index, .existing id :: rest =>
    let later := collect loaded (index + 1) rest
    match getPrice loaded id with
    | none =>
      { later with
        errors :=
          { type := "value_error"
            loc := errorPrefix ++ [.index index]
            msg := "Price does not exist."
            input := .id id } :: later.errors }
    | some price =>
      { later with prices := price :: later.prices, existing := id :: later.existing }
  | index, .added schema :: rest =>
    let later := collect loaded (index + 1) rest
    { later with prices := schema.price :: later.prices, added := schema.price :: later.added }

/-- The number of static prices in a currency. -/
def staticCount (currency : PresentmentCurrency) (prices : List SharePrice) : ℕ :=
  prices.countP fun p => p.priceCurrency = currency ∧ p.isStatic

/-- The keys of `prices_per_currency`. -/
def currencies (prices : List SharePrice) : List PresentmentCurrency :=
  (prices.map SharePrice.priceCurrency).dedup

/-- `unique_structures`. -/
def uniqueStructures (prices : List SharePrice) : List ℕ :=
  ((currencies prices).map (staticCount · prices)).dedup

/-- The checks after the loop. -/
def check (default : PresentmentCurrency) (requested : List SharePriceUpdate)
    (prices : List SharePrice) : List ValidationError :=
  let error (type msg : String) : ValidationError :=
    { type, loc := errorPrefix, msg, input := .schema requested }
  (if prices.length < 1 then [error "too_short" "At least one price is required."] else []) ++
    ((currencies prices).filter (1 < staticCount · prices)).map
      (fun _ => error "value_error" "Only one static price is allowed.") ++
    (if 1 < (uniqueStructures prices).length then
      [error "value_error" "All price currencies must define the same set of price types."]
    else []) ++
    if default ∉ currencies prices then
      [error "value_error"
        "The workspace's default presentment currency must be present in the prices."]
    else []

def getValidatedPrices (default : PresentmentCurrency) (requested : List SharePriceUpdate)
    (loaded : List (ℕ × SharePrice)) : Validated :=
  let collected := collect loaded 0 requested
  { collected with errors := collected.errors ++ check default requested collected.prices }

/-! ### Well-formed prices -/

def HasCurrency (currency : PresentmentCurrency) (prices : List SharePrice) : Prop :=
  ∃ p ∈ prices, p.priceCurrency = currency

instance (currency : PresentmentCurrency) (prices : List SharePrice) :
    Decidable (HasCurrency currency prices) :=
  inferInstanceAs (Decidable (∃ p ∈ prices, _))

/-- There are prices, with at most one static price in a currency, and as many in each. -/
structure Structured (prices : List SharePrice) : Prop where
  nonempty : prices ≠ []
  static : ∀ p ∈ prices, staticCount p.priceCurrency prices ≤ 1
  same : ∀ p ∈ prices, ∀ q ∈ prices,
    staticCount p.priceCurrency prices = staticCount q.priceCurrency prices

theorem structured_iff {prices : List SharePrice} : Structured prices ↔
    prices ≠ [] ∧ (∀ p ∈ prices, staticCount p.priceCurrency prices ≤ 1) ∧
      ∀ p ∈ prices, ∀ q ∈ prices,
        staticCount p.priceCurrency prices = staticCount q.priceCurrency prices :=
  ⟨fun h => ⟨h.nonempty, h.static, h.same⟩, fun h => ⟨h.1, h.2.1, h.2.2⟩⟩

instance (prices : List SharePrice) : Decidable (Structured prices) :=
  decidable_of_iff _ structured_iff.symm

/-- What the checks ask for. -/
structure WellFormed (default : PresentmentCurrency) (prices : List SharePrice) : Prop where
  structured : Structured prices
  hasDefault : HasCurrency default prices

instance (default : PresentmentCurrency) (prices : List SharePrice) :
    Decidable (WellFormed default prices) :=
  decidable_of_iff (Structured prices ∧ HasCurrency default prices)
    ⟨fun h => ⟨h.1, h.2⟩, fun h => ⟨h.1, h.2⟩⟩

variable {prices prices' : List SharePrice} {c default : PresentmentCurrency}
variable {loaded : List (ℕ × SharePrice)} {requested : List SharePriceUpdate} {index : ℕ}

theorem mem_currencies : c ∈ currencies prices ↔ HasCurrency c prices := by
  rw [currencies, List.mem_dedup, List.mem_map]
  rfl

theorem length_le_one_iff {l : List ℕ} (hl : l.Nodup) :
    l.length ≤ 1 ↔ ∀ m ∈ l, ∀ n ∈ l, m = n := by
  constructor
  · intro h m hm n hn
    match l, h with
    | [k], _ => rw [List.mem_singleton.mp hm, List.mem_singleton.mp hn]
  · intro h
    match l with
    | [] | [_] => simp
    | a :: b :: rest =>
      have hab : a = b := h a (by simp) b (by simp)
      exact absurd hl (by simp [hab])

theorem uniqueStructures_length_le : (uniqueStructures prices).length ≤ 1 ↔
    ∀ p ∈ prices, ∀ q ∈ prices,
      staticCount p.priceCurrency prices = staticCount q.priceCurrency prices := by
  have hmem : ∀ n, n ∈ uniqueStructures prices ↔
      ∃ p ∈ prices, staticCount p.priceCurrency prices = n := by
    intro n
    rw [uniqueStructures, List.mem_dedup, List.mem_map]
    constructor
    · rintro ⟨c, hc, rfl⟩
      obtain ⟨p, hp, rfl⟩ := mem_currencies.mp hc
      exact ⟨p, hp, rfl⟩
    · rintro ⟨p, hp, rfl⟩
      exact ⟨p.priceCurrency, mem_currencies.mpr ⟨p, hp, rfl⟩, rfl⟩
  have hnodup : (uniqueStructures prices).Nodup := List.nodup_dedup _
  rw [length_le_one_iff hnodup]
  constructor
  · intro h p hp q hq
    exact h _ ((hmem _).mpr ⟨p, hp, rfl⟩) _ ((hmem _).mpr ⟨q, hq, rfl⟩)
  · intro h m hm n hn
    obtain ⟨p, hp, rfl⟩ := (hmem m).mp hm
    obtain ⟨q, hq, rfl⟩ := (hmem n).mp hn
    exact h p hp q hq

theorem check_eq_nil_iff : check default requested prices = [] ↔ WellFormed default prices := by
  have hstatic : (currencies prices).filter (1 < staticCount · prices) = [] ↔
      ∀ p ∈ prices, staticCount p.priceCurrency prices ≤ 1 := by
    rw [List.filter_eq_nil_iff]
    constructor
    · intro h p hp
      have hc := h p.priceCurrency (mem_currencies.mpr ⟨p, hp, rfl⟩)
      exact Nat.le_of_not_lt (by simpa using hc)
    · intro h c hc
      obtain ⟨p, hp, rfl⟩ := mem_currencies.mp hc
      have hle := h p hp
      simpa using hle
  have hlength : ¬prices.length < 1 ↔ prices ≠ [] := by
    rw [Nat.lt_one_iff, List.length_eq_zero_iff]
  have hif {p : Prop} [Decidable p] (e : ValidationError) :
      (if p then [e] else []) = [] ↔ ¬p := by
    by_cases hp : p <;> simp [hp]
  rw [check, List.append_eq_nil_iff, List.append_eq_nil_iff, List.append_eq_nil_iff, hif, hif, hif,
    List.map_eq_nil_iff, hstatic, hlength, Nat.not_lt, uniqueStructures_length_le, not_not,
    mem_currencies]
  constructor
  · rintro ⟨⟨⟨hne, hle⟩, hsame⟩, hdefault⟩
    exact ⟨⟨hne, hle, hsame⟩, hdefault⟩
  · rintro ⟨⟨hne, hle, hsame⟩, hdefault⟩
    exact ⟨⟨⟨hne, hle⟩, hsame⟩, hdefault⟩

/-- A reference to a price that has not been loaded is an error, and nothing else is before the
checks. -/
theorem collect_errors_eq_nil_iff : (collect loaded index requested).errors = [] ↔
    ∀ id, .existing id ∈ requested → (getPrice loaded id).isSome := by
  induction requested generalizing index with
  | nil => simp [collect]
  | cons item rest ih =>
    rcases item with id | schema
    · cases hprice : getPrice loaded id with
      | none => simp [collect, hprice]
      | some price => simp [collect, hprice, ih]
    · simp [collect, ih]

/-- **The validation is exact.** -/
theorem errors_eq_nil_iff : (getValidatedPrices default requested loaded).errors = [] ↔
    (∀ id, .existing id ∈ requested → (getPrice loaded id).isSome) ∧
      WellFormed default (getValidatedPrices default requested loaded).prices := by
  rw [getValidatedPrices, List.append_eq_nil_iff, collect_errors_eq_nil_iff, check_eq_nil_iff]

theorem errors_loc {e : ValidationError}
    (he : e ∈ (getValidatedPrices default requested loaded).errors) :
    e.loc = errorPrefix ∨ ∃ n < requested.length, e.loc = errorPrefix ++ [.index n] := by
  have hcollect : ∀ {index requested}, e ∈ (collect loaded index requested).errors →
      ∃ n, index ≤ n ∧ n < index + requested.length ∧ e.loc = errorPrefix ++ [.index n] := by
    intro index requested he
    induction requested generalizing index with
    | nil => exact absurd he (by simp [collect])
    | cons item rest ih =>
      have hrest : e ∈ (collect loaded (index + 1) rest).errors →
          ∃ n, index ≤ n ∧ n < index + (item :: rest).length ∧
            e.loc = errorPrefix ++ [.index n] := by
        intro he
        obtain ⟨n, hle, hlt, hloc⟩ := ih he
        have hlength : (item :: rest).length = rest.length + 1 := rfl
        exact ⟨n, by omega, by omega, hloc⟩
      rcases item with id | schema
      · cases hprice : getPrice loaded id with
        | none =>
          rw [collect, hprice] at he
          rcases List.mem_cons.mp he with rfl | he
          · exact ⟨index, Nat.le_refl _, by simp, rfl⟩
          · exact hrest he
        | some price =>
          rw [collect, hprice] at he
          exact hrest he
      · exact hrest he
  rcases List.mem_append.mp he with he | he
  · obtain ⟨n, -, hlt, hloc⟩ := hcollect he
    exact .inr ⟨n, by omega, hloc⟩
  · refine .inl ?_
    simp only [check, List.mem_append, List.mem_map, List.mem_ite_nil_right,
      List.mem_singleton] at he
    rcases he with ((⟨-, rfl⟩ | ⟨c, -, rfl⟩) | ⟨-, rfl⟩) | ⟨-, rfl⟩ <;> rfl

/-! ### The prices that are left -/

/-- What the loaded prices look like to a request: the ones it mentions, as often as it does. -/
def found (loaded : List (ℕ × SharePrice)) (existing : List ℕ) : List (ℕ × SharePrice) :=
  existing.filterMap fun id => loaded.find? (·.1 = id)

/-- The loaded prices that are mentioned. The others are archived. -/
def kept (loaded : List (ℕ × SharePrice)) (existing : List ℕ) : List (ℕ × SharePrice) :=
  loaded.filter (·.1 ∈ existing)

theorem collect_prices_perm : (collect loaded index requested).prices.Perm
    ((found loaded (collect loaded index requested).existing).map Prod.snd ++
      (collect loaded index requested).added) := by
  induction requested generalizing index with
  | nil => exact .nil
  | cons item rest ih =>
    rcases item with id | schema
    · cases hprice : loaded.find? (·.1 = id) with
      | none => simpa [collect, getPrice, hprice] using ih
      | some price =>
        simpa [collect, getPrice, hprice, found, List.filterMap_cons_some] using ih
    · simp only [collect]
      exact (List.Perm.cons _ ih).trans List.perm_middle.symm

theorem mem_found_iff {existing : List ℕ} (hloaded : (loaded.map Prod.fst).Nodup)
    {p : ℕ × SharePrice} : p ∈ found loaded existing ↔ p ∈ kept loaded existing := by
  have hfind : ∀ id, loaded.find? (·.1 = id) = some p ↔ p ∈ loaded ∧ p.1 = id := by
    intro id
    constructor
    · intro h
      exact ⟨List.mem_of_find?_eq_some h, by simpa using List.find?_some h⟩
    · rintro ⟨hp, rfl⟩
      cases hq : loaded.find? (·.1 = p.1) with
      | none => exact absurd (decide_eq_true rfl) (List.find?_eq_none.mp hq p hp)
      | some q =>
        have hfst : q.1 = p.1 := by simpa using List.find?_some hq
        exact congrArg some
          (List.inj_on_of_nodup_map hloaded (List.mem_of_find?_eq_some hq) hp hfst)
  rw [found, kept, List.mem_filterMap, List.mem_filter]
  constructor
  · rintro ⟨id, hid, h⟩
    obtain ⟨hp, rfl⟩ := (hfind id).mp h
    exact ⟨hp, decide_eq_true hid⟩
  · rintro ⟨hp, hid⟩
    exact ⟨p.1, of_decide_eq_true hid, (hfind p.1).mpr ⟨hp, rfl⟩⟩

/-- Two lists with the same members have as many of a kind if the one has no repetitions and the
other at most one of the kind. -/
theorem countP_eq_of_mem_iff {α : Type} {l l' : List α} {P : α → Bool} (hl : l.Nodup)
    (hmem : ∀ a, a ∈ l' ↔ a ∈ l) (hle : l'.countP P ≤ 1) : l.countP P = l'.countP P := by
  have hsub : l.countP P ≤ l'.countP P :=
    (List.subperm_of_subset hl fun a ha => (hmem a).mpr ha).countP_le P
  -- the other direction needs the bound: `l'` may have repetitions
  refine Nat.le_antisymm hsub ?_
  rcases Nat.eq_zero_or_pos (l'.countP P) with hzero | hpos
  · omega
  · obtain ⟨a, ha, hP⟩ := List.countP_pos_iff.mp hpos
    have hl_pos : 0 < l.countP P := List.countP_pos_iff.mpr ⟨a, (hmem a).mp ha, hP⟩
    omega

theorem staticCount_eq_zero (h : ¬HasCurrency c prices) : staticCount c prices = 0 :=
  List.countP_eq_zero.mpr fun p hp hstatic => h ⟨p, hp, (of_decide_eq_true hstatic).1⟩

theorem Structured.staticCount_le (h : Structured prices) (c : PresentmentCurrency) :
    staticCount c prices ≤ 1 := by
  by_cases hc : HasCurrency c prices
  · obtain ⟨p, hp, rfl⟩ := hc
    exact h.static p hp
  · rw [staticCount_eq_zero hc]
    exact Nat.zero_le 1

theorem Structured.congr (h : Structured prices)
    (hcount : ∀ c, staticCount c prices' = staticCount c prices)
    (hmem : ∀ p, p ∈ prices ↔ p ∈ prices') : Structured prices' := by
  refine ⟨?_, fun p hp => ?_, fun p hp q hq => ?_⟩
  · obtain ⟨p, hp⟩ := List.exists_mem_of_ne_nil prices h.nonempty
    exact List.ne_nil_of_mem ((hmem p).mp hp)
  · rw [hcount]
    exact h.static p ((hmem p).mpr hp)
  · rw [hcount, hcount]
    exact h.same p ((hmem p).mpr hp) q ((hmem q).mpr hq)

/-- What the share is left with. -/
def Validated.stored (v : Validated) (loaded : List (ℕ × SharePrice)) : List SharePrice :=
  (kept loaded v.existing).map Prod.snd ++ v.added

theorem mem_stored_iff (hloaded : (loaded.map Prod.fst).Nodup) (p : SharePrice) :
    p ∈ (collect loaded index requested).prices ↔
      p ∈ (collect loaded index requested).stored loaded := by
  rw [collect_prices_perm.mem_iff, Validated.stored, List.mem_append, List.mem_append,
    List.mem_map, List.mem_map]
  simp only [mem_found_iff hloaded]

theorem staticCount_stored (hloaded : (loaded.map Prod.fst).Nodup)
    (h : Structured (collect loaded index requested).prices) (c : PresentmentCurrency) :
    staticCount c ((collect loaded index requested).stored loaded) =
      staticCount c (collect loaded index requested).prices := by
  have hle := h.staticCount_le c
  have hkept : (kept loaded (collect loaded index requested).existing).Nodup :=
    (List.Nodup.of_map Prod.fst hloaded).filter _
  rw [staticCount, collect_prices_perm.countP_eq, List.countP_append, List.countP_map] at hle
  rw [staticCount, staticCount, Validated.stored, collect_prices_perm.countP_eq,
    List.countP_append, List.countP_append, List.countP_map, List.countP_map,
    countP_eq_of_mem_iff hkept (fun p => mem_found_iff hloaded) (by omega)]

/-- **The prices that a share is left with are well formed** when those of the request are. -/
theorem WellFormed.stored (hloaded : (loaded.map Prod.fst).Nodup)
    (h : WellFormed default (getValidatedPrices default requested loaded).prices) :
    WellFormed default ((getValidatedPrices default requested loaded).stored loaded) where
  structured := h.structured.congr (staticCount_stored hloaded h.structured)
    (mem_stored_iff hloaded)
  hasDefault := by
    obtain ⟨p, hp, hc⟩ := h.hasDefault
    exact ⟨p, (mem_stored_iff hloaded p).mp hp, hc⟩

end Rapidly.Catalog.Prices
