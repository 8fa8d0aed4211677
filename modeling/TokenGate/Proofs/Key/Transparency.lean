import TokenGate.Proofs.Key.Lookup

/-! # Caches that do not show

While every fetch from the address of the keys ends alike, as where every request gets the same reply
(`answersAt_of_reply`), a cache holds nothing but the set of that answer (`holdsAnswer_after`). Then it makes no difference whether a lookup is answered from the
cache, refused because the set is too recent, or fetches: its answer is that of a lookup without any
cache (`lookup_of_holdsAnswer`). -/

namespace TokenGate.Proofs.Key.Transparency

open TokenGate.Http TokenGate.Key TokenGate.Proofs.Key.Lookup
open TokenGate.Proofs.Http.Fetch (get_of_direct)

/-- A fetch from an address has this response: an answer, or a failure. -/
def AnswersAt (client : Client) (uri : String) (response : Fetch Answer) (net : Network) : Prop :=
  client.get net [] uri = response

/-- The key set of a response. -/
def fetched (response : Fetch Answer) : Fetch JwkSet := response.andThen Cache.readSet

/-- The answer of a lookup that fetches, whatever was fetched before: the fault of the fetch, or the
key of the set. -/
def uncached (response : Fetch Answer) (kid : Option String) : Except VerifyFault VerifyingKey :=
  match (fetched response).result with
  | .error f => .error (.keyFetch f.message)
  | .ok set =>
    match select set kid with
    | .error f => .error f
    | .ok (some key) => .ok key
    | .ok none => .error (unknown kid)

/-- A cache holds nothing but the set of a response. -/
def HoldsAnswer (response : Fetch Answer) (c : Cache) : Prop :=
  ∀ s, c.cached = some s → (fetched response).result = .ok s.set

variable {c : Cache} {response : Fetch Answer} {now : Nat} {net : Network} {kid : Option String}

theorem fetch_of_answersAt (h : AnswersAt c.client c.uri response net) :
    c.fetch net = fetched response := congrArg (·.andThen Cache.readSet) h

/-- **A reply that redirects nobody is the response**: where the address of the keys always gives this
one, every fetch ends with it. -/
theorem answersAt_of_reply {client : Client} {uri : String} {u : Url} {reply : Reply}
    (hu : target uri = .ok u) (hreply : net.reply [] u = reply)
    (hdirect : (Exchange.mk u reply).redirect? = none) :
    AnswersAt client uri (client.conclude u ⟨u, reply⟩) net := by
  have hexchange : net.exchange [] u = ⟨u, reply⟩ := congrArg (Exchange.mk u) hreply
  rw [← hexchange] at hdirect ⊢
  exact get_of_direct hu hdirect

/-! ### One lookup -/

theorem uncached_of_ok {set : JwkSet} (h : (fetched response).result = .ok set) :
    uncached response kid = Cache.answer set kid := by
  unfold uncached
  rw [h]
  rfl

theorem uncached_of_error {f : FetchFault} (h : (fetched response).result = .error f) :
    uncached response kid = .error (.keyFetch f.message) := by
  unfold uncached
  rw [h]

/-- **A lookup answers as one without a cache**, and takes as long. -/
theorem lookup_of_holdsAnswer (hc : HoldsAnswer response c)
    (hnet : AnswersAt c.client c.uri response net) (now : Nat) (kid : Option String) :
    (c.lookup now net kid).result = uncached response kid ∧
      (c.lookup now net kid).elapsed = (fetched response).elapsed := by
  have hfetch : c.fetch net = fetched response := fetch_of_answersAt hnet
  rcases lookup_cases c now net kid with ⟨s, hs, -, hl⟩ | ⟨-, hl⟩
  · -- The cached set is the one that a fetch would bring, and a fetch that brings one takes no time.
    have hset : (fetched response).result = .ok s.set := hc s (fresh?_eq_some.mp hs).1
    rw [hl, uncached_of_ok hset, ← hfetch, elapsed_of_fetch (hfetch ▸ hset)]
    exact ⟨rfl, rfl⟩
  · rw [hl]
    cases hf : (c.fetch net).result with
    | error f =>
      rw [refresh_of_error hf, uncached_of_error (hfetch ▸ hf), hfetch]
      exact ⟨rfl, rfl⟩
    | ok set =>
      rw [refresh_of_ok hf, uncached_of_ok (hfetch ▸ hf), ← hfetch, elapsed_of_fetch hf]
      exact ⟨rfl, rfl⟩

theorem holdsAnswer_lookup (hc : HoldsAnswer response c)
    (hnet : AnswersAt c.client c.uri response net) :
    HoldsAnswer response (c.lookup now net kid).cache := by
  rcases cache_lookup c now net kid with h | ⟨set, hset, h⟩
  · rw [h]
    exact hc
  · rw [h]
    intro s hs
    obtain rfl : ⟨set, now⟩ = s := Option.some.inj hs
    rw [fetch_of_answersAt hnet] at hset
    exact hset

/-! ### Many lookups -/

/-- **After any queries whose fetches end alike, a cache holds nothing but the set of the
answer.** -/
theorem holdsAnswer_after {qs : List Query} (hc : HoldsAnswer response c)
    (hnet : ∀ q ∈ qs, AnswersAt c.client c.uri response q.net) : HoldsAnswer response (after c qs) := by
  -- The client and the address go along, for it is their fetches that end alike.
  refine (invariant_after (P := fun c' => (c'.client = c.client ∧ c'.uri = c.uri) ∧
    HoldsAnswer response c') ⟨⟨rfl, rfl⟩, hc⟩ ?_).2
  rintro q hq c' ⟨⟨hclient, huri⟩, hc'⟩
  have hsame : (q.run c').cache.client = c'.client ∧ (q.run c').cache.uri = c'.uri := by
    rcases cache_lookup c' q.now q.net q.kid with h | ⟨set, -, h⟩ <;>
    · rw [Query.run, h]
      exact ⟨rfl, rfl⟩
  refine ⟨⟨hsame.1.trans hclient, hsame.2.trans huri⟩, holdsAnswer_lookup hc' ?_⟩
  rw [hclient, huri]
  exact hnet q hq

/-- **No query shows in a later one** while all fetches end alike. -/
theorem query_of_answersAt {client : Client} {uri : String} {ttl minRefresh : Nat}
    {qs : List Query} {q : Query} (hnet : ∀ q' ∈ qs ++ [q], AnswersAt client uri response q'.net) :
    (q.run (after (.empty client uri ttl minRefresh) qs)).result = uncached response q.kid := by
  have hempty : HoldsAnswer response (.empty client uri ttl minRefresh) := fun s hs => by cases hs
  have hc := holdsAnswer_after hempty fun q' hq' => hnet q' (List.mem_append_left _ hq')
  have hq : AnswersAt client uri response q.net := hnet q (List.mem_append_right _ List.mem_cons_self)
  rw [after_eq] at hc ⊢
  exact (lookup_of_holdsAnswer hc hq q.now q.kid).1

end TokenGate.Proofs.Key.Transparency
