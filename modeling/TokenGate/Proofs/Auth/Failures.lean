import TokenGate.Proofs.Auth.Requests
import TokenGate.Proofs.Key.Removal

/-! # Calls that get no keys

A call gets no keys if they cannot be fetched, or if they do not come before its time limit. It
leaves every provider as it was, with the keys in its cache (`sameProviders_of_keyless`), so no
later call can tell that it was made (`after_congr`, `run_congr_all`). A token whose key is in a set
that is still fresh is judged by this key and costs no request, before as after
(`run_of_atHand`). -/

namespace TokenGate.Proofs.Auth.Failures

open TokenGate.Http TokenGate.Key TokenGate.Key.Flight TokenGate.Token
open TokenGate.Proofs.Results
open TokenGate.Proofs.Key.Lookup (lookup_of_fresh)
open TokenGate.Proofs.Key.Removal TokenGate.Proofs.Key.SingleFlight
open TokenGate.Proofs.Verify.Verdict TokenGate.Proofs.Registry.History
open TokenGate.Proofs.Auth.Requests
open TokenGate.Proofs.Auth.Soundness (signedCall)

/-- A call gets no keys: its time limit cuts it off, or the keys of the provider that its token
claims cannot be fetched. -/
inductive Keyless (call : Call) (r : Registry) : Prop
  | late (h : (call.run r).result = .error .verificationTimeout)
  | unfetched {peek : Peek} {p : Provider} {audience reason : String}
    (hpeek : Peek.ofToken call.token = .ok peek) (hp : r.get? peek.issuer = some p)
    (haudience : p.matchAudience peek.audience = some audience)
    (hverdict : (p.verifier.verify call.clock call.net call.token audience).1.verdict =
      .error (.keyFetch reason))

/-- The key of a token is at hand: the verifier that is asked about it has a fresh set that gives
the key. -/
inductive AtHand (call : Call) (r : Registry) (audience : String) (v : KeyVerifier) (hd : Header)
    (key : VerifyingKey) : Prop
  | intro {peek : Peek} {p : Provider} {s : CachedSet} (hpeek : Peek.ofToken call.token = .ok peek)
    (hp : r.get? peek.issuer = some p) (haudience : p.matchAudience peek.audience = some audience)
    (hverifier : p.verifier = .keys v) (hmode : v.trustMode ≠ .insecure)
    (hheader : KeyVerifier.readHeader call.token = .ok hd)
    (hfresh : v.keys.fresh? call.clock.steady = some s)
    (hkey : select s.set hd.kid = .ok (some key))

/-- What a token comes to with a key. -/
def judged (call : Call) (audience : String) (v : KeyVerifier) (hd : Header) (key : VerifyingKey) :
    Except Rejection Identity :=
  (((verifySigned call.token hd.algorithm key (v.expectation audience call.clock.wall)).mapError
    .ofToken).mapError Rejection.ofVerify).bind fun claims =>
      (Principal.identify claims).map (·.withToken call.token)

/-- Two registries have the same providers, with the same keys in their caches. -/
def SameProviders (r r' : Registry) : Prop := ∀ key, r.get? key = r'.get? key

/-- Two calls cannot be told apart. -/
structure SameOutcome (a a' : Authentication) : Prop where
  result : a.result = a'.result
  issuer : a.issuer = a'.issuer
  exchanges : a.exchanges = a'.exchanges
  asked : a.asked = a'.asked

/-- Nothing is left of a call. All providers are as before it, no call of any later history can be
told from one in a history without it, and a token whose key is at hand costs no request. -/
structure Forgotten (call : Call) (r : Registry) : Prop where
  providers : SameProviders (call.run r).registry r
  later : ∀ (history : List Call) (next : Call),
    SameOutcome (next.run (after (call.run r).registry history)) (next.run (after r history))
  prompt : ∀ history next audience v hd key, AtHand next (after r history) audience v hd key →
    (next.run (after (call.run r).registry history)).result = judged next audience v hd key ∧
      (next.run (after (call.run r).registry history)).exchanges = []

variable {r r' : Registry} {call : Call}

/-! ### Registries with the same providers -/

theorem ask_congr (h : SameProviders r r') (key : String) (p : Provider) (limit : Nat) (clock : Clock)
    (net : Network) (token audience : String) :
    SameOutcome (Authentication.ask r key p limit clock net token audience)
        (Authentication.ask r' key p limit clock net token audience) ∧
      SameProviders (Authentication.ask r key p limit clock net token audience).registry
        (Authentication.ask r' key p limit clock net token audience).registry := by
  unfold Authentication.ask
  dsimp only
  split_ifs
  · refine ⟨⟨rfl, rfl, rfl, rfl⟩, fun key' => ?_⟩
    rw [Registry.get?_insert, Registry.get?_insert, h key']
  · exact ⟨⟨rfl, rfl, rfl, rfl⟩, h⟩

/-- **A call sees nothing of a registry but its providers.** -/
theorem run_congr_all (h : SameProviders r r') (call : Call) :
    SameOutcome (call.run r) (call.run r') ∧
      SameProviders (call.run r).registry (call.run r').registry := by
  cases hpeek : Peek.ofToken call.token with
  | error f =>
    rw [run_of_unroutable hpeek, run_of_unroutable hpeek]
    exact ⟨⟨rfl, rfl, rfl, rfl⟩, h⟩
  | ok peek =>
    cases hp : r.get? peek.issuer with
    | none =>
      rw [run_of_unregistered hpeek hp, run_of_unregistered hpeek ((h _).symm.trans hp)]
      exact ⟨⟨rfl, rfl, rfl, rfl⟩, h⟩
    | some p =>
      have hp' : r'.get? peek.issuer = some p := (h _).symm.trans hp
      cases haudience : p.matchAudience peek.audience with
      | none =>
        rw [run_of_unmatched hpeek hp haudience, run_of_unmatched hpeek hp' haudience]
        exact ⟨⟨rfl, rfl, rfl, rfl⟩, h⟩
      | some audience =>
        rw [run_of_matched hpeek hp haudience, run_of_matched hpeek hp' haudience]
        exact ask_congr h ..

theorem after_congr (h : SameProviders r r') (history : List Call) :
    SameProviders (after r history) (after r' history) := by
  induction history generalizing r r' with
  | nil => exact h
  | cons c history ih => exact ih (run_congr_all h c).2

/-! ### Keys that do not come -/

theorem ofToken_ne_keyFetch (f : Token.Fault) (reason : String) :
    VerifyFault.ofToken f ≠ .keyFetch reason := by
  cases f <;> simp [VerifyFault.ofToken]

theorem keyVerifier_of_keyFetch {v : KeyVerifier} {clock : Clock} {net : Network}
    {token audience reason : String}
    (h : (v.verify clock net token audience).1.verdict = .error (.keyFetch reason)) :
    (v.verify clock net token audience).2 = v := by
  by_cases hm : v.trustMode = .insecure
  · rw [verify_of_insecure hm]
  · cases hhd : KeyVerifier.readHeader token with
    | error f => rw [verify_of_header_error hm hhd]
    | ok hd =>
      rw [verify_of_header hm hhd] at h ⊢
      rcases bind_eq_error.mp h with hlookup | ⟨key, -, h⟩
      · dsimp only
        rw [cache_of_keyFetch hlookup]
      · -- With a key, a fault is one of the token.
        obtain ⟨f, -, hf⟩ := mapError_eq_error.mp h
        exact absurd hf (ofToken_ne_keyFetch f reason)

/-- **A verifier that could not fetch its keys is as it was.** -/
theorem verifier_of_keyFetch {x : Verifier} {clock : Clock} {net : Network}
    {token audience reason : String}
    (h : (x.verify clock net token audience).1.verdict = .error (.keyFetch reason)) :
    (x.verify clock net token audience).2 = x := by
  cases x with
  | given react => rfl
  | keys v => exact congrArg Verifier.keys (keyVerifier_of_keyFetch h)

theorem resolve_ne_timeout (email : String) (native : List String) :
    Groups.resolve email native ≠ .error .verificationTimeout := by
  intro h
  unfold Groups.resolve at h
  rcases bind_eq_error.mp h with h | ⟨domain, -, h⟩
  · unfold Groups.emailDomain at h
    split at h
    · split_ifs at h
      cases h
    · cases h
  · split_ifs at h <;> cases h

theorem identify_ne_timeout (claims : Json) :
    Principal.identify claims ≠ .error .verificationTimeout := by
  intro h
  unfold Principal.identify at h
  split at h
  · cases h
  · rename_i p _
    unfold Principal.identity at h
    split at h
    · cases h
    · rcases bind_eq_error.mp h with h | ⟨groups, -, h⟩
      · exact resolve_ne_timeout p.email p.groups h
      · cases h

theorem ofVerify_ne_timeout (f : VerifyFault) : Rejection.ofVerify f ≠ .verificationTimeout := by
  cases f <;> simp [Rejection.ofVerify]

/-- **A call that its time limit cuts off leaves the registry as it is.** -/
theorem registry_of_timeout (h : (call.run r).result = .error .verificationTimeout) :
    (call.run r).registry = r := by
  cases hpeek : Peek.ofToken call.token with
  | error f => rw [run_of_unroutable hpeek]; rfl
  | ok peek =>
    cases hp : r.get? peek.issuer with
    | none => rw [run_of_unregistered hpeek hp]; rfl
    | some p =>
      cases haudience : p.matchAudience peek.audience with
      | none => rw [run_of_unmatched hpeek hp haudience]; rfl
      | some audience =>
        rw [run_of_matched hpeek hp haudience] at h ⊢
        unfold Authentication.ask at h ⊢
        dsimp only at h ⊢
        split_ifs at h ⊢
        · -- The verdict came in time, so the call was refused for another reason.
          exfalso
          rcases bind_eq_error.mp h with h | ⟨claims, -, h⟩
          · obtain ⟨f, -, hf⟩ := mapError_eq_error.mp h
            exact ofVerify_ne_timeout f hf
          · exact identify_ne_timeout claims (map_eq_error.mp h)
        · rfl

/-- **A call that gets no keys leaves every provider as it is.** -/
theorem sameProviders_of_keyless (h : Keyless call r) : SameProviders (call.run r).registry r := by
  cases h with
  | late h =>
    rw [registry_of_timeout h]
    exact fun _ => rfl
  | unfetched hpeek hp haudience hverdict =>
    exact unchanged_of_matched hp (run_of_matched hpeek hp haudience) (verifier_of_keyFetch hverdict)

/-! ### Keys at hand -/

/-- **A token whose key is at hand** is judged by the key, without a request. -/
theorem run_of_atHand {audience : String} {v : KeyVerifier} {hd : Header} {key : VerifyingKey}
    (h : AtHand call r audience v hd key) :
    (call.run r).result = judged call audience v hd key ∧ (call.run r).exchanges = [] := by
  obtain ⟨hpeek, hp, haudience, hverifier, hmode, hheader, hfresh, hkey⟩ := h
  have hlookup := lookup_of_fresh hfresh hkey call.net
  rw [run_of_matched hpeek hp haudience]
  unfold Authentication.ask
  rw [hverifier]
  dsimp only [Verifier.verify]
  rw [verify_of_header hmode hheader, hlookup]
  exact ⟨rfl, rfl⟩

theorem forgotten_of_keyless (h : Keyless call r) : Forgotten call r := by
  have hsame := sameProviders_of_keyless h
  have hlater : ∀ (history : List Call) (next : Call),
      SameOutcome (next.run (after (call.run r).registry history)) (next.run (after r history)) :=
    fun history next => (run_congr_all (after_congr hsame history) next).1
  refine ⟨hsame, hlater, fun history next audience v hd key hhand => ?_⟩
  obtain ⟨hresult, -, hexchanges, -⟩ := hlater history next
  rw [hresult, hexchanges]
  exact run_of_atHand hhand

/-! ### No trace -/

/-- **A failure leaves no trace.** Whatever is cached, whatever lookups are under way and in
whatever order they take their steps: a lookup that fails to fetch, or that is given up before it
has a result, leaves no trace among the others, and one that has the cache for itself leaves it as
it is. A call whose keys cannot be fetched, or that its time limit cuts off, is forgotten by the
registry. -/
theorem failures_leave_no_trace :
    (∀ (n : Nat) (c : Cache) (kids : Fin n → Option String) (i : Fin n) (events : List (Event n))
      (g h : Flight n), (∀ e ∈ events, e ≠ .abandon i) → (start c kids).follow events = some g →
      Failed i g h → Traceless c kids i events h) ∧
    (∀ (c : Cache) (now : Nat) (net : Network) (kid : Option String) (reason : String),
      (c.lookup now net kid).result = .error (.keyFetch reason) →
      (c.lookup now net kid).cache = c) ∧
    ∀ (call : Call) (r : Registry), Keyless call r → Forgotten call r :=
  ⟨fun _ _ _ _ _ _ _ hkept hf hfailed => traceless_of_failed hkept hf hfailed,
    fun _ _ _ _ _ h => cache_of_keyFetch h, fun _ _ h => forgotten_of_keyless h⟩

/-- The network on which no request is answered. -/
def silentNetwork : Network := ⟨fun _ _ => .silent⟩

/-- A call with a token of the first issuer that names a key which the issuer does not have. -/
def unknownKeyCall : Call :=
  ⟨10, ⟨1700000000, 20000⟩, silentNetwork, "eyJhbGciOiJFUzI1NiIsImtpZCI6ImsifQ."
    ++ "eyJpc3MiOiJodHRwOi8vYSIsImF1ZCI6IngiLCJlbWFpbCI6InVAZCIsImdyb3VwcyI6WyJnIl0sImV4cCI6"
    ++ "MTcwMDAwMDEwMH0."⟩

/-- The first issuer, whose key has been fetched before. -/
def signer : Provider :=
  ⟨"http://a", ["x"], .strict, .keys ⟨"http://a", .strict, 60, ⟨"http://a/k", ⟨30000⟩, 3600000, 10000,
    some ⟨⟨[⟨none, .ellipticCurve "jlM7b6C_e0YluzBmfAH7YH75-LioD-9bMAYocDGHsqM"
      "c-sdveAzGDZtBp-DpvWQAFPHNjPLBBshxV4ahsH0ALQ"⟩]⟩, 0⟩⟩⟩⟩

/-- The signed call at the same time. -/
def freshCall : Call := { signedCall with clock := ⟨1700000000, 20000⟩, net := silentNetwork }

/-- The first of two lookups sends a request. -/
def pendingEvents : List (Event 2) := List.replicate 4 (.step ⟨20000, silentNetwork, 0⟩)

/-- A lookup that is given up while its request is on its way leaves the cache as it was, for the
next lookup. A call that is cut off while it waits for keys does not keep the next one from being
accepted without a request. -/
theorem failures_leave_no_trace_silent :
    (∃ g, (start keylessCache fun _ => some "k").follow pendingEvents = some g ∧ g.sent ≠ [] ∧
      (g.abandon 0).cache = keylessCache ∧ (g.abandon 0).turn = none) ∧
    ∃ r i, r.get? "http://a" = some signer ∧
      (unknownKeyCall.run r).result = .error .verificationTimeout ∧
      (freshCall.run (unknownKeyCall.run r).registry).result = .ok i ∧
      (freshCall.run (unknownKeyCall.run r).registry).exchanges = [] := by
  obtain ⟨hlookups, -, hcalls⟩ := failures_leave_no_trace
  constructor
  · have hfollow : ((start keylessCache fun _ => some "k").follow pendingEvents).map (fun g =>
        decide (g.sent ≠ [] ∧ result? (g.stages 0) = none)) = some true := by decide +kernel
    obtain ⟨g, hg, hend⟩ := Option.map_eq_some_iff.mp hfollow
    obtain ⟨hsent, hresult⟩ := of_decide_eq_true hend
    have hkept : ∀ e ∈ pendingEvents, e ≠ .abandon 0 := by
      intro e he h
      rw [List.eq_of_mem_replicate he] at h
      cases h
    have halone : ∀ e ∈ pendingEvents, e.lookup = 0 := by
      intro e he
      rw [List.eq_of_mem_replicate he]
      rfl
    have htrace := hlookups 2 _ _ 0 pendingEvents g _ hkept hg (.abandoned hresult)
    exact ⟨g, hg, hsent, htrace.alone halone⟩
  · have hrun : (freshCall.run (Registry.empty.insert "http://a" signer)).result.toOption.isSome ∧
        (unknownKeyCall.run (Registry.empty.insert "http://a" signer)).result =
          .error .verificationTimeout ∧
        (freshCall.run (Registry.empty.insert "http://a" signer)).exchanges = [] := by
      decide +kernel
    obtain ⟨hi, hlate, hsilent⟩ := hrun
    obtain ⟨i, hi⟩ := Option.isSome_iff_exists.mp hi
    rw [toOption_eq_some] at hi
    have hforgotten : Forgotten unknownKeyCall (Registry.empty.insert "http://a" signer) :=
      hcalls _ _ (.late hlate)
    obtain ⟨hresult, -, hexchanges, -⟩ := hforgotten.later [] freshCall
    rw [after_nil, after_nil] at hresult hexchanges
    exact ⟨_, i, by simp, hlate, hresult.trans hi, hexchanges.trans hsilent⟩

end TokenGate.Proofs.Auth.Failures
