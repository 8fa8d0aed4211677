import TokenGate.Proofs.Auth.Soundness
import TokenGate.Proofs.Key.Freshness
import TokenGate.Proofs.Key.Transparency

/-! # Earlier tokens do not show

The keys that a provider keeps in its cache came with the tokens that were presented before. While
every fetch from the address of the keys ends alike, what is kept makes no difference: a lookup
answers as one without a cache, and a token is accepted or rejected as by the registry that was just
loaded (`earlier_tokens_do_not_show`). -/

/-! ## Lookups and calls without a cache -/

namespace TokenGate.Proofs.Auth.Transparency

open TokenGate.Http TokenGate.Key TokenGate.Token TokenGate.Load TokenGate.Proofs.Results
open TokenGate.Proofs.Key.Lookup (Query)
open TokenGate.Proofs.Key.Served TokenGate.Proofs.Key.Transparency
open TokenGate.Proofs.Verify.Verdict TokenGate.Proofs.Registry.History
open TokenGate.Proofs.Registry.Loaded TokenGate.Proofs.Registry.Provenance
open TokenGate.Proofs.Registry.Loading (get?_of_load)
open TokenGate.Proofs.Auth.Soundness

/-- The address of the keys of a verifier, if it has one. -/
def keysAddress? : Verifier → Option String
  | .keys v => some v.keys.uri
  | .given _ => none

/-- The provider that a token claims, if it is registered, has its keys at an address. -/
def LeadsTo (r : Registry) (token uri : String) : Prop :=
  ∀ issuer p, claimed? token = some issuer → r.get? issuer = some p →
    keysAddress? p.verifier = some uri

/-- Two reactions have the same verdict, after the same delay. -/
def SameVerdict (x y : Reaction) : Prop := x.verdict = y.verdict ∧ x.delay = y.delay

/-! ### One call -/

variable {r r' : Registry} {call : Call} {history : List Call} {key : String} {p p' : Provider}

theorem result_run_of_none (h : claimed? call.token = none) :
    (call.run r).result = (call.run r').result := by
  unfold Call.run Registry.authenticate
  cases hp : Peek.ofToken call.token with
  | error f => rfl
  | ok peek =>
    rw [claimed?, hp] at h
    cases h

/-- **A call sees nothing of a provider but its audiences and the reactions of its verifier.** -/
theorem result_run_congr (hk : claimed? call.token = some key) (hp : r.get? key = some p)
    (hp' : r'.get? key = some p') (haudiences : p.audiences = p'.audiences)
    (hreaction : ∀ audience,
      SameVerdict (p.verifier.verify call.clock call.net call.token audience).1
        (p'.verifier.verify call.clock call.net call.token audience).1) :
    (call.run r).result = (call.run r').result := by
  obtain ⟨peek, hpeek, rfl⟩ := claimed?_eq_some.mp hk
  unfold Call.run Registry.authenticate
  rw [hpeek]
  dsimp only
  rw [hp, hp']
  have hmatch : p.matchAudience peek.audience = p'.matchAudience peek.audience := by
    unfold Provider.matchAudience
    rw [haudiences]
  dsimp only
  rw [hmatch]
  cases p'.matchAudience peek.audience with
  | none => rfl
  | some audience =>
    obtain ⟨hverdict, hdelay⟩ := hreaction audience
    dsimp only [Authentication.ask]
    rw [hverdict, hdelay]
    split_ifs <;> rfl

theorem holdsAnswer_of_allServed {c : Cache} {response : Fetch Answer}
    (hserved : AllServed history c.uri c.cached)
    (hnet : ∀ call ∈ history, AnswersAt c.client c.uri response call.net) : HoldsAnswer response c := by
  intro s hs
  obtain ⟨call, hcall, hserves⟩ := hserved s hs
  have hset : (c.fetch call.net).result = .ok s.set := fetch_eq_ok.mpr hserves
  rwa [fetch_of_answersAt (hnet call hcall)] at hset

/-- **A verifier reacts alike with whatever keys of the same answer in its cache.** -/
theorem reaction_of_holdsAnswer {v : KeyVerifier} {c : Cache} {response : Fetch Answer}
    {net : Network} (hc : HoldsAnswer response c) (hv : HoldsAnswer response v.keys)
    (huri : c.uri = v.keys.uri) (hclient : c.client = v.keys.client)
    (hnet : AnswersAt v.keys.client v.keys.uri response net) (clock : Clock)
    (token audience : String) :
    SameVerdict (({ v with keys := c }).verify clock net token audience).1
      (v.verify clock net token audience).1 := by
  by_cases hm : v.trustMode = .insecure
  · rw [verify_of_insecure (v := { v with keys := c }) hm, verify_of_insecure hm]
    exact ⟨rfl, rfl⟩
  · cases hhd : KeyVerifier.readHeader token with
    | error f =>
      rw [verify_of_header_error (v := { v with keys := c }) hm hhd, verify_of_header_error hm hhd]
      exact ⟨rfl, rfl⟩
    | ok hd =>
      obtain ⟨hresult, helapsed⟩ := lookup_of_holdsAnswer hv hnet clock.steady hd.kid
      rw [← huri, ← hclient] at hnet
      obtain ⟨hresult', helapsed'⟩ := lookup_of_holdsAnswer hc hnet clock.steady hd.kid
      rw [verify_of_header (v := { v with keys := c }) hm hhd, verify_of_header hm hhd]
      dsimp only
      rw [hresult, hresult', helapsed, helapsed']
      exact ⟨rfl, rfl⟩

/-! ### Any history -/

/-- **Transparency.** Where every fetch from the address of the keys ends alike, with the same
answer or the same failure, a lookup after any others is answered as without a cache; and a call
after any others gives the result that it gives with the loaded registry. -/
theorem earlier_tokens_do_not_show (client : Client) (uri : String) (response : Fetch Answer) :
    (∀ (ttl minRefresh : Nat) (qs : List Query) (q : Query),
      (∀ q' ∈ qs ++ [q], AnswersAt client uri response q'.net) →
        (q.run (Key.Lookup.after (.empty client uri ttl minRefresh) qs)).result =
          uncached response q.kid) ∧
      ∀ (net : Network) (a : AuthConfig) (r : Registry), (loadProviders client net a).result = .ok r →
        ∀ (history : List Call) (call : Call), LeadsTo r call.token uri →
          (∀ c ∈ history ++ [call], AnswersAt client uri response c.net) →
            (call.run (after r history)).result = (call.run r).result := by
  refine ⟨fun ttl minRefresh qs q hnet => query_of_answersAt hnet, ?_⟩
  intro net a r hload history call hleads hnet
  cases hk : claimed? call.token with
  | none => exact result_run_of_none hk
  | some issuer =>
    cases hp : r.get? issuer with
    | none => exact (run_congr hk ((get?_after_of_none hp history).trans hp.symm)).1
    | some p =>
      -- The provider is as it was built, but for the keys in its cache, which are of the answer.
      have huri := hleads issuer p hk hp
      obtain ⟨c, -, -, mode, uri', -, -, rfl⟩ := get?_of_load hload hp
      obtain rfl : uri' = uri := Option.some.inj huri
      obtain ⟨cached, hbuilt, hserved⟩ := get?_after_built hp history
      have hc : HoldsAnswer response (keyVerifier client (options a) c mode uri' none).keys :=
        fun s hs => by cases hs
      have hc' : HoldsAnswer response (keyVerifier client (options a) c mode uri' cached).keys :=
        holdsAnswer_of_allServed hserved fun c' hc' => hnet c' (List.mem_append_left _ hc')
      have hcall := hnet call (List.mem_append_right _ List.mem_cons_self)
      refine result_run_congr hk hbuilt hp rfl fun audience => ?_
      rw [verify_built, verify_built]
      exact reaction_of_holdsAnswer (v := keyVerifier client (options a) c mode uri' none) hc' hc rfl
        rfl hcall _ _ _

/-- What is fetched from the address of the keys while it has the document. -/
def documentResponse : Fetch Answer := (⟨0⟩ : Client).get documentNetwork [] "http://a/k"

/-- The second of two lookups, and a signed token that is presented again after another one. -/
theorem earlier_tokens_do_not_show_signed : ∃ r,
    (loadProviders ⟨0⟩ documentNetwork checkedAndUnchecked).result = .ok r ∧
    LeadsTo r signedCall.token "http://a/k" ∧
    (∀ c ∈ [signedCall, unsignedCall] ++ [signedCall],
      AnswersAt ⟨0⟩ "http://a/k" documentResponse c.net) ∧
    (signedCall.run (after r [signedCall, unsignedCall])).result = (signedCall.run r).result ∧
    ((⟨1, documentNetwork, some "k"⟩ : Query).run (Key.Lookup.after
      (.empty ⟨0⟩ "http://a/k" 3600000 10000) [⟨0, documentNetwork, none⟩])).result =
        uncached documentResponse (some "k") := by
  have hrun : ((loadProviders ⟨0⟩ documentNetwork checkedAndUnchecked).result.toOption.bind fun r =>
      (r.get? "http://a").bind fun p => keysAddress? p.verifier) = some "http://a/k" := by
    decide +kernel
  obtain ⟨r, hr, hrun⟩ := Option.bind_eq_some_iff.mp hrun
  obtain ⟨p, hp, haddress⟩ := Option.bind_eq_some_iff.mp hrun
  rw [toOption_eq_some] at hr
  have hleads : LeadsTo r signedCall.token "http://a/k" := by
    intro issuer q hissuer hq
    obtain rfl : "http://a" = issuer := Option.some.inj (claimed?_signedCall.symm.trans hissuer)
    obtain rfl : p = q := Option.some.inj (hp.symm.trans hq)
    exact haddress
  have hnet : ∀ c ∈ [signedCall, unsignedCall] ++ [signedCall],
      AnswersAt ⟨0⟩ "http://a/k" documentResponse c.net := by
    intro c hc
    simp only [List.cons_append, List.nil_append, List.mem_cons, List.not_mem_nil, or_false] at hc
    rcases hc with rfl | rfl | rfl <;> rfl
  obtain ⟨hqueries, hcalls⟩ := earlier_tokens_do_not_show ⟨0⟩ "http://a/k" documentResponse
  refine ⟨r, hr, hleads, hnet, hcalls _ _ _ hr _ _ hleads hnet, ?_⟩
  refine hqueries 3600000 10000 [⟨0, documentNetwork, none⟩] ⟨1, documentNetwork, some "k"⟩ ?_
  intro q hq
  simp only [List.cons_append, List.nil_append, List.mem_cons, List.not_mem_nil, or_false] at hq
  rcases hq with rfl | rfl <;> rfl

end TokenGate.Proofs.Auth.Transparency

/-! ## Keys that tokens are accepted under

A verifier that checks signatures accepts a token under the key that it looked up. So what holds of
the keys that a cache gives holds of the keys that tokens are accepted under: they are fresh, and a
key that its provider withdraws is no longer one of them when the time to live has passed
(`keys_are_fresh`). -/

namespace TokenGate.Proofs.Auth.Freshness

open TokenGate.Http TokenGate.Key TokenGate.Token TokenGate.Proofs.Results
open TokenGate.Proofs.Key.Lookup TokenGate.Proofs.Key.Freshness TokenGate.Proofs.Verify.Verdict
open TokenGate.Proofs.Auth.Soundness (documentNetwork signedCall)

/-- **Freshness.** Whatever queries an empty cache went through and however they were answered, a
key that it gives is chosen from the key set of the last request that brought one, which was sent
for the very query or less than the time to live before. So a key is no longer given, and no token
is accepted under it, once the time to live has passed since the last set with it came. -/
theorem keys_are_fresh (c : Cache) (hempty : c.cached = none) (qs : List Query) :
    (∀ q key, (q.run (after c qs)).result = .ok key →
      (∃ s, Current c qs q s ∧ select s.set q.kid = .ok (some key)) ∧ ¬ Withdrawn c qs q key) ∧
    ∀ (v : KeyVerifier) (clock : Clock) (net : Network) (token audience : String) (claims : Json),
      v.keys = after c qs → v.trustMode ≠ .insecure →
      (v.verify clock net token audience).1.verdict = .ok claims →
      ∃ parts hd key, SignedWith token parts hd key ∧
        (v.keys.lookup clock.steady net hd.kid).result = .ok key ∧
        ¬ Withdrawn c qs ⟨clock.steady, net, hd.kid⟩ key := by
  refine ⟨fun q key h => ⟨current_of_run hempty h, not_withdrawn_of_run hempty h⟩, ?_⟩
  intro v clock net token audience claims hv hm h
  obtain ⟨parts, hd, key, _, _, hsigned, hkey, -⟩ := signed_of_verdict hm h
  have hrun : ((⟨clock.steady, net, hd.kid⟩ : Query).run (after c qs)).result = .ok key := by
    rw [← hv]
    exact hkey
  exact ⟨parts, hd, key, hsigned, hkey, not_withdrawn_of_run hempty hrun⟩

/-- A cache that keeps the sets of a signer for an hour. -/
def hourCache : Cache := .empty ⟨0⟩ "http://a/k" 3600000 10000

/-- The network on which the address of the keys fails. -/
def failingNetwork : Network := ⟨fun _ _ => .answered 503 none []⟩

/-- A query that brings the set, and one for a key that is not in it, whose request fails. -/
def firstQueries : List Query := [⟨0, documentNetwork, none⟩, ⟨10000, failingNetwork, some "k"⟩]

/-- The signer's verifier with these queries behind it. -/
def hourVerifier : KeyVerifier := ⟨"http://a", .strict, 60, after hourCache firstQueries⟩

/-- In the last moment of the hour a token is accepted under the key that came first. -/
theorem keys_are_fresh_last_moment : hourCache.cached = none ∧ ∃ claims,
    (hourVerifier.verify ⟨1700000000, 3599999⟩ failingNetwork signedCall.token "x").1.verdict =
      .ok claims ∧
    ∃ parts hd key, SignedWith signedCall.token parts hd key ∧
      (hourVerifier.keys.lookup 3599999 failingNetwork hd.kid).result = .ok key ∧
      (∃ s, Current hourCache firstQueries ⟨3599999, failingNetwork, hd.kid⟩ s ∧
        select s.set hd.kid = .ok (some key)) ∧
      ¬ Withdrawn hourCache firstQueries ⟨3599999, failingNetwork, hd.kid⟩ key := by
  have haccepted : (hourVerifier.verify ⟨1700000000, 3599999⟩ failingNetwork signedCall.token
      "x").1.verdict.toOption.isSome := by decide +kernel
  obtain ⟨claims, hclaims⟩ := Option.isSome_iff_exists.mp haccepted
  rw [toOption_eq_some] at hclaims
  have hkeys : hourVerifier.keys = after hourCache firstQueries := by rw [hourVerifier]
  have hmode : hourVerifier.trustMode ≠ .insecure := by
    rw [hourVerifier]
    decide
  obtain ⟨hqueries, htokens⟩ := keys_are_fresh hourCache rfl firstQueries
  obtain ⟨parts, hd, key, hsigned, hkey, hwithdrawn⟩ :=
    htokens hourVerifier _ _ _ _ _ hkeys hmode hclaims
  have hrun := hkey
  rw [hkeys] at hrun
  obtain ⟨hcurrent, -⟩ := hqueries ⟨3599999, failingNetwork, hd.kid⟩ key hrun
  exact ⟨rfl, claims, hclaims, parts, hd, key, hsigned, hkey, hcurrent, hwithdrawn⟩

end TokenGate.Proofs.Auth.Freshness
