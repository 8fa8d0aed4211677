import TokenGate.Proofs.Key.Lookup
import TokenGate.Proofs.Key.Selection

/-! # When a lookup fetches

Whether a lookup sends a request is decided by the cached set, its age and the key that is asked for
(`MustFetch`), and by nothing that is seen later. Both ways are said in full: a lookup that need not
fetch is answered from the cached set and leaves it there (`spared_lookup`); one that has to sends
one request, follows it where it is redirected, is answered from the set that comes and keeps it, or
fails and changes nothing (`fetched_lookup`). -/

/-! ## Lookups that fetch -/

namespace TokenGate.Proofs.Key.Fetching

open TokenGate.Http TokenGate.Key TokenGate.Proofs.Http.Fetch
open TokenGate.Proofs.Key.Lookup TokenGate.Proofs.Key.Served
open TokenGate.Proofs.Key.Selection (Gives gives_answer)

/-- A lookup has to fetch: nothing is cached, or what is cached is no longer fresh, or it does not
have the key and is old enough to be fetched again. -/
inductive MustFetch (c : Cache) (now : Nat) (kid : Option String) : Prop
  | empty (h : c.cached = none)
  | stale {s : CachedSet} (h : c.cached = some s) (hage : c.ttl ≤ now - s.fetchedAt)
  | absent {s : CachedSet} (h : c.cached = some s) (hkey : select s.set kid = .ok none)
    (hage : c.minRefresh ≤ now - s.fetchedAt)

/-- A lookup is answered from the cached set: it sends nothing and leaves the cache as it is. -/
structure Spared (c : Cache) (s : CachedSet) (kid : Option String) (l : Lookup) : Prop where
  cached : c.cached = some s
  gives : Gives s.set kid l.result
  unchanged : l.cache = c
  silent : l.exchanges = []

/-- A lookup fetches: it sends one request, if there is where to send it, and no other unless that
one is redirected. A set that is served answers it and is cached as of now, and otherwise the fault
is that nothing could be fetched. -/
structure Fetched (c : Cache) (now : Nat) (net : Network) (kid : Option String) (l : Lookup) :
    Prop where
  request : ∀ u, target c.uri = .ok u → (net.exchange [] u).redirect? = none →
    l.exchanges = [net.exchange [] u]
  redirected : ∀ u, target c.uri = .ok u → Trail net [] u l.exchanges
  no_address : ∀ f, target c.uri = .error f → l.exchanges = []
  served : ∀ set, Serves net c.uri set →
    Gives set kid l.result ∧ l.cache = { c with cached := some ⟨set, now⟩ }
  failed : (∀ set, ¬ Serves net c.uri set) →
    (∃ reason, l.result = .error (.keyFetch reason)) ∧ l.cache = c

variable {c : Cache} {now : Nat} {net : Network} {kid : Option String} {set : JwkSet}

/-! ### Fresh sets -/

/-- **A lookup has to fetch unless a fresh set settles it**: by a key, by being ambiguous, or by
being too recent. -/
theorem mustFetch_iff : MustFetch c now kid ↔ ∀ s, c.fresh? now = some s →
    select s.set kid = .ok none ∧ c.minRefresh ≤ now - s.fetchedAt := by
  simp only [fresh?_eq_some]
  constructor
  · rintro h s ⟨hs, hfresh⟩
    cases h with
    | empty h =>
      rw [h] at hs
      cases hs
    | stale h hage =>
      obtain rfl := Option.some.inj (h.symm.trans hs)
      omega
    | absent h hkey hage =>
      obtain rfl := Option.some.inj (h.symm.trans hs)
      exact ⟨hkey, hage⟩
  · intro h
    cases hs : c.cached with
    | none => exact .empty hs
    | some s =>
      by_cases hfresh : now - s.fetchedAt < c.ttl
      · obtain ⟨hkey, hage⟩ := h s ⟨hs, hfresh⟩
        exact .absent hs hkey hage
      · exact .stale hs (Nat.le_of_not_lt hfresh)

/-! ### Both ways -/

/-- **A lookup that need not fetch** is answered from the cached set. -/
theorem spared_lookup (net : Network) (h : ¬ MustFetch c now kid) :
    ∃ s, Spared c s kid (c.lookup now net kid) := by
  rcases lookup_cases c now net kid with ⟨s, hs, -, hl⟩ | ⟨hstale, -⟩
  · refine ⟨s, (fresh?_eq_some.mp hs).1, ?_, ?_, ?_⟩ <;> rw [hl]
    exact gives_answer s.set kid
  · exact absurd (mustFetch_iff.mpr hstale) h

theorem lookup_of_mustFetch (net : Network) (h : MustFetch c now kid) :
    c.lookup now net kid = c.refresh now net kid := by
  rcases lookup_cases c now net kid with ⟨s, hs, hrecent, -⟩ | ⟨-, hl⟩
  · obtain ⟨hkey, hage⟩ := mustFetch_iff.mp h s hs
    have := hrecent hkey
    omega
  · exact hl

/-- **A lookup that has to fetch** is answered by what comes. -/
theorem fetched_lookup (net : Network) (h : MustFetch c now kid) :
    Fetched c now net kid (c.lookup now net kid) := by
  rw [lookup_of_mustFetch net h]
  have htrail : ∀ u, target c.uri = .ok u → Trail net [] u (c.refresh now net kid).exchanges := by
    intro u hu
    rw [exchanges_refresh]
    exact trail_get c.client hu
  refine ⟨fun u hu hdirect => ?_, htrail, fun f hf => ?_, fun set hset => ?_, fun hnone => ?_⟩
  · exact (htrail u hu).eq_singleton hdirect
  · rw [exchanges_refresh, get_of_target_error hf]
  · rw [refresh_of_ok (fetch_eq_ok.mpr hset)]
    exact ⟨gives_answer set kid, rfl⟩
  · cases hf : (c.fetch net).result with
    | ok set => exact absurd (fetch_eq_ok.mp hf) (hnone set)
    | error f =>
      rw [refresh_of_error hf]
      exact ⟨⟨f.message, rfl⟩, rfl⟩

/-- **What a lookup does.** It fetches exactly if it has to, whatever the two times of the cache are
and whichever of them is greater, and what it does either way is said in full. -/
theorem lookup_settles (c : Cache) (now : Nat) (net : Network) (kid : Option String) :
    (MustFetch c now kid → Fetched c now net kid (c.lookup now net kid)) ∧
      (¬ MustFetch c now kid → ∃ s, Spared c s kid (c.lookup now net kid)) :=
  ⟨fetched_lookup net, spared_lookup net⟩

end TokenGate.Proofs.Key.Fetching

/-! ## Requests for keys that a fresh set does not have

A lookup may send a request although the cached set is fresh, if it is for a key that the set does
not have. The least time between such requests is held against the fetch that brought the set. So a
request that was answered with a set delays the next one (`keyFetch_of_recent`), but one that failed
does not: while the address of the keys fails, every such lookup sends a request
(`not_forall_requests_spaced`). -/

namespace TokenGate.Proofs.Key.Throttle

open TokenGate.Http TokenGate.Key TokenGate.Proofs.Key.Lookup

/-- A query sends a request. -/
def Sends (q : Query) (c : Cache) : Prop := (q.run c).exchanges ≠ []

instance (q : Query) (c : Cache) : Decidable (Sends q c) :=
  inferInstanceAs (Decidable ((q.run c).exchanges ≠ []))

/-- Queries that come one after the other. -/
def InOrder (qs : List Query) : Prop := qs.Pairwise fun q q' => q.now ≤ q'.now

instance (qs : List Query) : Decidable (InOrder qs) :=
  inferInstanceAs (Decidable (qs.Pairwise fun q q' => q.now ≤ q'.now))

variable {c : Cache} {q : Query}

/-! ### One query -/

/-- **When a request is sent although a set is fresh**: the set is old enough to be fetched
again. -/
theorem minRefresh_le_of_sends {s : CachedSet} (hsent : Sends q c)
    (hs : c.fresh? q.now = some s) : c.minRefresh ≤ q.now - s.fetchedAt := by
  unfold Sends Query.run at hsent
  rcases lookup_cases c q.now q.net q.kid with ⟨s', -, -, hl⟩ | ⟨hstale, -⟩
  · rw [hl] at hsent
    exact absurd rfl hsent
  · exact (hstale s hs).2

theorem cached_of_sends (hsent : Sends q c) :
    (∃ reason, (q.run c).result = .error (.keyFetch reason)) ∨
      ∃ set, (q.run c).cache.cached = some ⟨set, q.now⟩ := by
  unfold Sends Query.run at hsent
  unfold Query.run
  rcases lookup_cases c q.now q.net q.kid with ⟨s, -, -, hl⟩ | ⟨-, hl⟩
  · rw [hl] at hsent
    exact absurd rfl hsent
  · rw [hl]
    cases hf : (c.fetch q.net).result with
    | error f => exact Or.inl ⟨f.message, by rw [refresh_of_error hf]⟩
    | ok set => exact Or.inr ⟨set, by rw [refresh_of_ok hf]⟩

/-! ### Many queries -/

/-- **A set stays until a later one comes**: from an instant on at which a set was fetched, none
that is older is cached. -/
theorem fetchedAt_after {qs : List Query} {t : Nat} (hc : ∃ s, c.cached = some s ∧ t ≤ s.fetchedAt)
    (hlater : ∀ q ∈ qs, t ≤ q.now) : ∃ s, (after c qs).cached = some s ∧ t ≤ s.fetchedAt := by
  refine invariant_after (P := fun c => ∃ s, c.cached = some s ∧ t ≤ s.fetchedAt) hc ?_
  intro q hq c hc
  unfold Query.run
  rcases cache_lookup c q.now q.net q.kid with h | ⟨set, -, h⟩
  · rw [h]
    exact hc
  · rw [h]
    exact ⟨_, rfl, hlater q hq⟩

/-- **Recent requests failed.** Whenever a query of a cache sends a request although the cached set
is fresh, any request that an earlier query sent within the least time between fetches failed. So of
the requests for keys that a fresh set does not have, those that succeed are spaced. -/
theorem keyFetch_of_recent (c : Cache) (earlier later : List Query) (q' q : Query)
    (horder : InOrder (earlier ++ q' :: (later ++ [q])))
    (hfresh : ((after c (earlier ++ q' :: later)).fresh? q.now).isSome)
    (hsent : Sends q (after c (earlier ++ q' :: later))) (hsent' : Sends q' (after c earlier))
    (hrecent : q.now - q'.now < c.minRefresh) :
    ∃ reason, (q'.run (after c earlier)).result = .error (.keyFetch reason) := by
  rcases cached_of_sends hsent' with hfailed | ⟨set, hset⟩
  · exact hfailed
  · -- Otherwise the set that is fresh now came with that request or later.
    exfalso
    obtain ⟨-, horder, -⟩ := List.pairwise_append.mp horder
    obtain ⟨hlater, -⟩ := List.pairwise_cons.mp horder
    obtain ⟨s, hs, hage⟩ := fetchedAt_after (t := q'.now) ⟨_, hset, Nat.le_refl _⟩
      fun q hq => hlater q (List.mem_append_left _ hq)
    rw [← after_append_cons] at hs
    obtain ⟨s', hs'⟩ := Option.isSome_iff_exists.mp hfresh
    obtain rfl : s' = s := Option.some.inj ((fresh?_eq_some.mp hs').1.symm.trans hs)
    have hspaced := minRefresh_le_of_sends hsent hs'
    rw [after_eq] at hspaced
    dsimp only at hspaced
    omega

/-! ### An address that fails -/

/-- A query for a key while the address of the keys gives an empty set. -/
def answeredQuery : Query :=
  ⟨0, ⟨fun _ _ => .answered 200 none (Text.Utf8.encode "\x7b\"keys\":[]\x7d")⟩, some "k"⟩

/-- A query for it ten seconds later, while the address fails. -/
def failedQuery : Query := ⟨10000, ⟨fun _ _ => .answered 503 none []⟩, some "k"⟩

/-- A cache that keeps sets for an hour and wants ten seconds between fetches. -/
def tenSecondCache : Cache := .empty ⟨0⟩ "http://a" 3600000 10000

theorem keyFetch_of_recent_failed :
    InOrder ([answeredQuery] ++ failedQuery :: ([] ++ [failedQuery])) ∧
      ((after tenSecondCache [answeredQuery, failedQuery]).fresh? failedQuery.now).isSome ∧
      Sends failedQuery (after tenSecondCache [answeredQuery, failedQuery]) ∧
      Sends failedQuery (after tenSecondCache [answeredQuery]) ∧
      failedQuery.now - failedQuery.now < tenSecondCache.minRefresh ∧
      ∃ reason, (failedQuery.run (after tenSecondCache [answeredQuery])).result =
        .error (.keyFetch reason) := by
  have horder : InOrder ([answeredQuery] ++ failedQuery :: ([] ++ [failedQuery])) := by decide
  have hfresh : ((after tenSecondCache [answeredQuery, failedQuery]).fresh?
      failedQuery.now).isSome := by decide +kernel
  have hsent : Sends failedQuery (after tenSecondCache [answeredQuery, failedQuery]) := by
    decide +kernel
  have hsent' : Sends failedQuery (after tenSecondCache [answeredQuery]) := by decide +kernel
  have hrecent : failedQuery.now - failedQuery.now < tenSecondCache.minRefresh := by decide
  exact ⟨horder, hfresh, hsent, hsent', hrecent,
    keyFetch_of_recent _ [answeredQuery] [] _ _ horder hfresh hsent hsent' hrecent⟩

/-- **Requests are not spaced.** A request that fails does not delay the next one for a key that a
fresh set does not have. -/
theorem not_forall_requests_spaced : ¬ ∀ (c : Cache) (earlier later : List Query) (q' q : Query),
    InOrder (earlier ++ q' :: (later ++ [q])) →
      ((after c (earlier ++ q' :: later)).fresh? q.now).isSome →
      Sends q (after c (earlier ++ q' :: later)) → Sends q' (after c earlier) →
      c.minRefresh ≤ q.now - q'.now := by
  intro h
  have hspaced := h tenSecondCache [answeredQuery] [] failedQuery failedQuery (by decide)
    (by decide +kernel) (by decide +kernel) (by decide +kernel)
  exact absurd hspaced (by decide)

end TokenGate.Proofs.Key.Throttle
