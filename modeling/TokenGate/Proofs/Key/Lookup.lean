import TokenGate.Key.Cache
import TokenGate.Proofs.Http.Fetch
import Mathlib.Tactic.SplitIfs

/-! # Lookups of a key cache

What one lookup does is said once (`lookup_cases`): either a fresh set answers it, and the cache
stays as it is, or it is a refresh, whose outcome is that of one fetch. A cache goes through a
sequence of lookups, here called queries; they change nothing but the set that it holds
(`after_eq`). -/

/-! ## Lookups -/

namespace TokenGate.Proofs.Key.Lookup

open TokenGate.Http TokenGate.Key TokenGate.Proofs.Results
open TokenGate.Proofs.Http.Fetch (elapsed_get)

variable {c : Cache} {now : Nat} {net : Network} {kid : Option String}

/-! ### One lookup -/

theorem fresh?_eq_some {s : CachedSet} :
    c.fresh? now = some s ↔ c.cached = some s ∧ now - s.fetchedAt < c.ttl := by
  rw [Cache.fresh?, Option.filter_eq_some_iff, decide_eq_true_eq]

theorem fresh?_of_cached {set : JwkSet} (httl : 0 < c.ttl) (h : c.cached = some ⟨set, now⟩) :
    c.fresh? now = some ⟨set, now⟩ :=
  fresh?_eq_some.mpr ⟨h, by simpa using httl⟩

/-- **What a lookup does.** It is answered from a fresh set, unless it is for a key that the set
does not have and that may be fetched again; or else it is a refresh. -/
theorem lookup_cases (c : Cache) (now : Nat) (net : Network) (kid : Option String) :
    (∃ s, c.fresh? now = some s ∧
        (select s.set kid = .ok none → now - s.fetchedAt < c.minRefresh) ∧
        c.lookup now net kid = ⟨Cache.answer s.set kid, c, [], 0⟩) ∨
      ((∀ s, c.fresh? now = some s →
          select s.set kid = .ok none ∧ c.minRefresh ≤ now - s.fetchedAt) ∧
        c.lookup now net kid = c.refresh now net kid) := by
  unfold Cache.lookup Cache.peek Cache.recheck Cache.answer
  cases hs : c.fresh? now with
  | none => exact Or.inr ⟨fun s h => (by cases h), rfl⟩
  | some s =>
    dsimp only
    cases hkey : select s.set kid with
    | error f =>
      refine Or.inl ⟨s, rfl, fun h => ?_, by rw [hkey]⟩
      rw [hkey] at h
      cases h
    | ok key =>
      cases key with
      | some key =>
        refine Or.inl ⟨s, rfl, fun h => ?_, by rw [hkey]⟩
        rw [hkey] at h
        cases h
      | none =>
        dsimp only
        split_ifs with hage
        · exact Or.inl ⟨s, rfl, fun _ => hage, by rw [hkey]⟩
        · refine Or.inr ⟨fun s' h => ?_, rfl⟩
          cases h
          exact ⟨hkey, Nat.le_of_not_lt hage⟩

theorem lookup_of_fresh {s : CachedSet} {key : VerifyingKey} (hfresh : c.fresh? now = some s)
    (hkey : select s.set kid = .ok (some key)) (net : Network) :
    c.lookup now net kid = ⟨.ok key, c, [], 0⟩ := by
  rcases lookup_cases c now net kid with ⟨s', hs', -, hl⟩ | ⟨hstale, -⟩
  · obtain rfl := Option.some.inj (hfresh.symm.trans hs')
    rw [hl, Cache.answer, hkey]
  · rw [(hstale s hfresh).1] at hkey
    cases hkey

theorem elapsed_of_fetch {set : JwkSet} (h : (c.fetch net).result = .ok set) :
    (c.fetch net).elapsed = 0 := by
  obtain ⟨a, ha, -⟩ := except_bind_eq_ok.mp h
  exact elapsed_get ha

theorem refresh_of_ok {set : JwkSet} (h : (c.fetch net).result = .ok set) :
    c.refresh now net kid =
      ⟨Cache.answer set kid, { c with cached := some ⟨set, now⟩ }, (c.fetch net).exchanges, 0⟩ := by
  unfold Cache.refresh
  dsimp only
  rw [h, elapsed_of_fetch h]

theorem refresh_of_error {f : FetchFault} (h : (c.fetch net).result = .error f) :
    c.refresh now net kid =
      ⟨.error (.keyFetch f.message), c, (c.fetch net).exchanges, (c.fetch net).elapsed⟩ := by
  unfold Cache.refresh
  dsimp only
  rw [h]

theorem exchanges_refresh (c : Cache) (now : Nat) (net : Network) (kid : Option String) :
    (c.refresh now net kid).exchanges = (c.client.get net [] c.uri).exchanges := by
  cases hf : (c.fetch net).result with
  | error f => rw [refresh_of_error hf]; rfl
  | ok set => rw [refresh_of_ok hf]; rfl

/-- **What a lookup leaves behind**: the cache as it was, or with the set that was fetched. -/
theorem cache_lookup (c : Cache) (now : Nat) (net : Network) (kid : Option String) :
    (c.lookup now net kid).cache = c ∨ ∃ set, (c.fetch net).result = .ok set ∧
      (c.lookup now net kid).cache = { c with cached := some ⟨set, now⟩ } := by
  rcases lookup_cases c now net kid with ⟨s, -, -, h⟩ | ⟨-, h⟩
  · exact Or.inl (by rw [h])
  · rw [h]
    cases hf : (c.fetch net).result with
    | error f => exact Or.inl (by rw [refresh_of_error hf])
    | ok set => exact Or.inr ⟨set, rfl, by rw [refresh_of_ok hf]⟩

theorem elapsed_of_lookup {key : VerifyingKey} (h : (c.lookup now net kid).result = .ok key) :
    (c.lookup now net kid).elapsed = 0 := by
  rcases lookup_cases c now net kid with ⟨s, -, -, hl⟩ | ⟨-, hl⟩
  · rw [hl]
  · rw [hl] at h ⊢
    cases hf : (c.fetch net).result with
    | error f =>
      rw [refresh_of_error hf] at h
      cases h
    | ok set => rw [refresh_of_ok hf]

/-! ### Many lookups -/

/-- A lookup at an instant, with what the network is then. -/
structure Query where
  now : Nat
  net : Network
  kid : Option String

/-- What a query does to a cache. -/
def Query.run (q : Query) (c : Cache) : Lookup := c.lookup q.now q.net q.kid

/-- The cache after some queries. -/
def after (c : Cache) (qs : List Query) : Cache := qs.foldl (fun c q => (q.run c).cache) c

theorem after_append_cons (c : Cache) (earlier later : List Query) (q : Query) :
    after c (earlier ++ q :: later) = after (q.run (after c earlier)).cache later := by
  rw [after, List.foldl_append, List.foldl_cons]
  rfl

/-- **What holds of a cache and is kept by each of some queries holds after them.** -/
theorem invariant_after {P : Cache → Prop} {qs : List Query} (start : P c)
    (step : ∀ q ∈ qs, ∀ c, P c → P (q.run c).cache) : P (after c qs) :=
  List.foldlRecOn qs _ start fun c hc q hq => step q hq c hc

theorem after_eq (c : Cache) (qs : List Query) :
    after c qs = { c with cached := (after c qs).cached } := by
  refine invariant_after (P := fun c' => c' = { c with cached := c'.cached }) rfl ?_
  intro q _ c' hc'
  unfold Query.run
  rcases cache_lookup c' q.now q.net q.kid with h | ⟨set, -, h⟩
  · rw [h]
    exact hc'
  · rw [h, hc']

end TokenGate.Proofs.Key.Lookup

/-! ## Keys that a server gave

The cache of a provider holds nothing but key sets that were answered at its address, and a lookup
gives a key that is chosen from the set that is cached afterwards. -/

namespace TokenGate.Proofs.Key.Served

open TokenGate.Http TokenGate.Key TokenGate.Proofs.Results
open TokenGate.Proofs.Http.Fetch TokenGate.Proofs.Key.Lookup

/-- A key set is what the network answers at an address, at once or where it is redirected to. -/
def Serves (net : Network) (uri : String) (set : JwkSet) : Prop :=
  ∃ u a, target uri = .ok u ∧ Answers net maxRedirects [] u a ∧ Cache.readSet a = .ok set

variable {c : Cache} {now : Nat} {net : Network} {kid : Option String} {key : VerifyingKey}

theorem fetch_eq_ok {set : JwkSet} :
    (c.fetch net).result = .ok set ↔ Serves net c.uri set := by
  unfold Cache.fetch Fetch.andThen Serves
  rw [except_bind_eq_ok]
  simp only [get_eq_ok]
  constructor
  · rintro ⟨a, ⟨u, hu, ha⟩, hset⟩
    exact ⟨u, a, hu, ha, hset⟩
  · rintro ⟨u, a, hu, ha, hset⟩
    exact ⟨a, ⟨u, hu, ha⟩, hset⟩

/-! ### Lookups -/

theorem answer_eq_ok {set : JwkSet} (h : Cache.answer set kid = .ok key) :
    select set kid = .ok (some key) := by
  unfold Cache.answer at h
  split at h <;> cases h
  assumption

/-- **A key that is found was chosen from the set that is cached afterwards.** -/
theorem lookup_eq_ok (h : (c.lookup now net kid).result = .ok key) :
    ∃ s, (c.lookup now net kid).cache.cached = some s ∧ select s.set kid = .ok (some key) := by
  rcases lookup_cases c now net kid with ⟨s, hs, -, hl⟩ | ⟨-, hl⟩
  · rw [hl] at h ⊢
    exact ⟨s, (fresh?_eq_some.mp hs).1, answer_eq_ok h⟩
  · rw [hl] at h ⊢
    cases hf : (c.fetch net).result with
    | error f =>
      rw [refresh_of_error hf] at h
      cases h
    | ok set =>
      rw [refresh_of_ok hf] at h ⊢
      exact ⟨⟨set, now⟩, rfl, answer_eq_ok h⟩

end TokenGate.Proofs.Key.Served
