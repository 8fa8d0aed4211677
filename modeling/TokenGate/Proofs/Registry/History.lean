import TokenGate.Auth.Gate
import TokenGate.Proofs.Key.Lookup
import TokenGate.Proofs.Registry.Loading
import TokenGate.Proofs.Results
import TokenGate.Proofs.Verify.Verdict
import Mathlib.Data.List.Induction
import Mathlib.Tactic.SplitIfs

/-! # Histories of a registry

A registry changes as tokens are authenticated: the verifier that was asked may have fetched keys.
What one call does is said once (`run_eq_ok`, `registry_run`). It looks at one provider, the one
that the token claims (`run_congr`), and leaves all others alone (`get?_run_of_ne`). -/

/-! ## Calls -/

namespace TokenGate.Proofs.Registry.History

open TokenGate.Http TokenGate.Token TokenGate.Proofs.Results

/-- A call to authenticate a token. -/
structure Call where
  limit : Nat
  clock : Clock
  net : Network
  token : String

/-- What a call does to a registry. -/
def Call.run (c : Call) (r : Registry) : Authentication :=
  r.authenticate c.limit c.clock c.net c.token

/-- The registry after some calls. -/
def after (r : Registry) (calls : List Call) : Registry :=
  calls.foldl (fun r c => (c.run r).registry) r

/-- The issuer that a token claims, if it can be routed. -/
def claimed? (token : String) : Option String := (Peek.ofToken token).toOption.map Peek.issuer

theorem claimed?_eq_some {token issuer : String} :
    claimed? token = some issuer ↔ ∃ p, Peek.ofToken token = .ok p ∧ p.issuer = issuer := by
  rw [claimed?, Option.map_eq_some_iff]
  simp

variable {r r' : Registry} {c : Call} {key : String}

/-! ### What one call does -/

theorem run_of_unroutable {f : Peek.Fault} (hpeek : Peek.ofToken c.token = .error f) :
    c.run r = .reject r none (.ofPeek f) := by
  unfold Call.run Registry.authenticate
  rw [hpeek]

section Routed

variable {peek : Peek} {p : Provider}

theorem run_of_unregistered (hpeek : Peek.ofToken c.token = .ok peek)
    (hp : r.get? peek.issuer = none) :
    c.run r = .reject r (some peek.issuer) (.unknownIssuer peek.issuer) := by
  unfold Call.run Registry.authenticate
  rw [hpeek]
  dsimp only
  rw [hp]

theorem run_of_unmatched (hpeek : Peek.ofToken c.token = .ok peek)
    (hp : r.get? peek.issuer = some p) (haudience : p.matchAudience peek.audience = none) :
    c.run r = .reject r (some peek.issuer) (.audienceMismatch peek.issuer) := by
  unfold Call.run Registry.authenticate
  rw [hpeek]
  dsimp only
  rw [hp]
  dsimp only
  rw [haudience]

theorem run_of_matched {audience : String} (hpeek : Peek.ofToken c.token = .ok peek)
    (hp : r.get? peek.issuer = some p) (haudience : p.matchAudience peek.audience = some audience) :
    c.run r = .ask r peek.issuer p c.limit c.clock c.net c.token audience := by
  unfold Call.run Registry.authenticate
  rw [hpeek]
  dsimp only
  rw [hp]
  dsimp only
  rw [haudience]

end Routed

/-- **What an accepted token went through.** -/
theorem run_eq_ok {i : Identity} (h : (c.run r).result = .ok i) :
    ∃ peek p audience claims j, Peek.ofToken c.token = .ok peek ∧ r.get? peek.issuer = some p ∧
      p.matchAudience peek.audience = some audience ∧
      (p.verifier.verify c.clock c.net c.token audience).1.verdict = .ok claims ∧
      Principal.identify claims = .ok j ∧ i = j.withToken c.token := by
  unfold Call.run Registry.authenticate at h
  split at h
  · cases h
  · rename_i peek hpeek
    split at h
    · cases h
    · rename_i p hp
      split at h
      · cases h
      · rename_i audience haud
        unfold Authentication.ask at h
        dsimp only at h
        split_ifs at h
        obtain ⟨claims, hclaims, h⟩ := except_bind_eq_ok.mp h
        obtain ⟨j, hj, rfl⟩ := except_map_eq_ok.mp h
        exact ⟨peek, p, audience, claims, j, hpeek, hp, haud, mapError_eq_ok.mp hclaims, hj, rfl⟩

/-- **What a call leaves behind**: the registry as it was, or with the verifier that was asked in
the place of the one before. -/
theorem registry_run (c : Call) (r : Registry) : (c.run r).registry = r ∨
    ∃ peek p audience, Peek.ofToken c.token = .ok peek ∧ r.get? peek.issuer = some p ∧
      p.matchAudience peek.audience = some audience ∧
      (c.run r).registry = r.insert peek.issuer
        { p with verifier := (p.verifier.verify c.clock c.net c.token audience).2 } := by
  unfold Call.run Registry.authenticate
  split
  · exact Or.inl rfl
  · rename_i peek hpeek
    split
    · exact Or.inl rfl
    · rename_i p hp
      split
      · exact Or.inl rfl
      · rename_i audience haud
        unfold Authentication.ask
        dsimp only
        split_ifs
        · exact Or.inr ⟨peek, p, audience, hpeek, hp, haud, rfl⟩
        · exact Or.inl rfl

theorem issuer_run (c : Call) (r : Registry) : (c.run r).issuer = claimed? c.token := by
  unfold Call.run Registry.authenticate claimed?
  cases Peek.ofToken c.token with
  | error f => rfl
  | ok peek =>
    dsimp only
    split
    · rfl
    · split
      · rfl
      · unfold Authentication.ask
        dsimp only
        split_ifs <;> rfl

/-- **A call leaves alone every provider that its token does not claim.** -/
theorem get?_run_of_ne (h : claimed? c.token ≠ some key) :
    (c.run r).registry.get? key = r.get? key := by
  rcases registry_run c r with hr | ⟨peek, p, audience, hp, -, -, hr⟩
  · rw [hr]
  · rw [hr, Registry.get?_insert, if_neg]
    intro hkey
    exact h (claimed?_eq_some.mpr ⟨peek, hp, hkey⟩)

/-- **A call depends on the claimed provider alone**: two registries that agree on it give the same
answer, and still agree on it afterwards. -/
theorem run_congr (hk : claimed? c.token = some key) (h : r.get? key = r'.get? key) :
    (c.run r).result = (c.run r').result ∧
      (c.run r).registry.get? key = (c.run r').registry.get? key := by
  obtain ⟨peek, hpeek, rfl⟩ := claimed?_eq_some.mp hk
  unfold Call.run Registry.authenticate
  rw [hpeek]
  dsimp only
  rw [h]
  cases hp : r'.get? peek.issuer with
  | none => exact ⟨rfl, h⟩
  | some p =>
    dsimp only
    cases p.matchAudience peek.audience with
    | none => exact ⟨rfl, h⟩
    | some audience =>
      dsimp only
      unfold Authentication.ask
      dsimp only
      split_ifs
      · exact ⟨rfl, by simp⟩
      · exact ⟨rfl, h⟩

/-! ### What a history does -/

@[simp] theorem after_nil (r : Registry) : after r [] = r := rfl

@[simp] theorem after_concat (r : Registry) (calls : List Call) (c : Call) :
    after r (calls ++ [c]) = (c.run (after r calls)).registry := by
  rw [after, List.foldl_append]
  rfl

/-- **What holds of a registry and is kept by every call holds after every history.** -/
theorem invariant_after {P : List Call → Registry → Prop} (start : P [] r)
    (step : ∀ calls c r, P calls r → P (calls ++ [c]) (c.run r).registry) (calls : List Call) :
    P calls (after r calls) := by
  induction calls using List.reverseRecOn with
  | nil => exact start
  | append_singleton calls c ih =>
    rw [after_concat]
    exact step calls c _ ih

end TokenGate.Proofs.Registry.History

/-! ## Where the providers of a registry come from

After any history, a registry that was loaded has under each key the provider of a configuration
with that issuer, and in its cache nothing but key sets that were answered, to one of the calls so
far, at the address of its keys (`originates_after`). -/

namespace TokenGate.Proofs.Registry.Provenance

open TokenGate.Http TokenGate.Load
open TokenGate.Proofs.Key.Lookup (cache_lookup)
open TokenGate.Proofs.Key.Served TokenGate.Proofs.Verify.Verdict
open TokenGate.Proofs.Registry.History TokenGate.Proofs.Registry.Loaded
open TokenGate.Proofs.Registry.Loading (get?_of_load)

/-- A key set was answered at an address to one of some calls. -/
def Served (calls : List Call) (uri : String) (set : Key.JwkSet) : Prop :=
  ∃ c ∈ calls, Serves c.net uri set

/-- All that a cache may hold after some calls was served. -/
def AllServed (calls : List Call) (uri : String) (cached : Option Key.CachedSet) : Prop :=
  ∀ s, cached = some s → Served calls uri s.set

/-- The provider under a key is that of a configuration with this issuer, with keys that were
served. -/
def Originates (client : Client) (net : Network) (a : AuthConfig) (calls : List Call) (key : String)
    (p : Provider) : Prop :=
  ∃ c ∈ (plan a).1, c.issuer = key ∧ ∃ mode uri cached, c.trustMode = .ok mode ∧
    KeysAt client net c mode uri ∧ p = built client (options a) c mode uri cached ∧
    AllServed calls uri cached

variable {client : Client} {net : Network} {a : AuthConfig} {calls : List Call} {call : Call}

theorem allServed_concat {uri : String} {cached : Option Key.CachedSet}
    (h : AllServed calls uri cached) : AllServed (calls ++ [call]) uri cached := by
  intro s hs
  obtain ⟨c, hc, hserves⟩ := h s hs
  exact ⟨c, List.mem_append_left _ hc, hserves⟩

/-- **A lookup caches what is served to its call.** -/
theorem allServed_lookup {c : Key.Cache} (h : AllServed calls c.uri c.cached) (call : Call)
    (kid : Option String) : ∃ cached,
      (c.lookup call.clock.steady call.net kid).cache = { c with cached := cached } ∧
        AllServed (calls ++ [call]) c.uri cached := by
  rcases cache_lookup c call.clock.steady call.net kid with hc | ⟨set, hset, hc⟩
  · exact ⟨c.cached, hc, allServed_concat h⟩
  · refine ⟨_, hc, fun s hs => ?_⟩
    cases hs
    exact ⟨call, List.mem_append_right _ List.mem_cons_self, fetch_eq_ok.mp hset⟩

/-- A verification keeps a verifier as it was built, but for the keys in its cache. -/
theorem verify_keyVerifier {o : Provider.Options} {c : ProviderConfig} {mode : TrustMode}
    {uri : String} {cached : Option Key.CachedSet} (h : AllServed calls uri cached) (call : Call)
    (audience : String) : ∃ cached',
      ((keyVerifier client o c mode uri cached).verify call.clock call.net call.token audience).2 =
        keyVerifier client o c mode uri cached' ∧ AllServed (calls ++ [call]) uri cached' := by
  rcases verifier_verify (keyVerifier client o c mode uri cached) call.clock call.net call.token
    audience with hv | ⟨kid, hv⟩
  · exact ⟨cached, hv, allServed_concat h⟩
  · obtain ⟨cached', hc, hserved⟩ := allServed_lookup
      (c := (keyVerifier client o c mode uri cached).keys) h call kid
    rw [hc] at hv
    exact ⟨cached', hv, hserved⟩

section Key

variable {r : Registry} {key : String} {o : Provider.Options} {c : ProviderConfig} {mode : TrustMode}
variable {uri : String} {cached : Option Key.CachedSet}

theorem get?_run_of_none (h : r.get? key = none) : (call.run r).registry.get? key = none := by
  rcases registry_run call r with hr | ⟨peek, q, audience, -, hq, -, hr⟩
  · rw [hr]
    exact h
  · rw [hr, Registry.get?_insert, if_neg, h]
    intro hkey
    rw [hkey, h] at hq
    cases hq

/-- **One call keeps every provider as it was built**, but for the keys in its cache. -/
theorem get?_run_built (hserved : AllServed calls uri cached) (call : Call)
    (h : r.get? key = some (built client o c mode uri cached)) : ∃ cached',
      (call.run r).registry.get? key = some (built client o c mode uri cached') ∧
        AllServed (calls ++ [call]) uri cached' := by
  rcases registry_run call r with hr | ⟨peek, q, audience, -, hq, -, hr⟩
  · rw [hr]
    exact ⟨cached, h, allServed_concat hserved⟩
  · rw [hr, Registry.get?_insert]
    split_ifs with hkey
    · -- The provider that was asked has the verifier as it was built, with keys served so far.
      rw [hkey, h] at hq
      cases hq
      obtain ⟨cached', hv, hserved'⟩ := verify_keyVerifier hserved call audience
      refine ⟨cached', ?_, hserved'⟩
      rw [verify_built, hv]
      rfl
    · exact ⟨cached, h, allServed_concat hserved⟩

theorem get?_after_of_none (h : r.get? key = none) (calls : List Call) :
    (after r calls).get? key = none :=
  invariant_after (P := fun _ r => r.get? key = none) h (fun _ _ _ h => get?_run_of_none h) calls

/-- **After any history, a provider is as it was built**, but for the keys in its cache. -/
theorem get?_after_built (h : r.get? key = some (built client o c mode uri none))
    (calls : List Call) : ∃ cached,
      (after r calls).get? key = some (built client o c mode uri cached) ∧
        AllServed calls uri cached := by
  refine invariant_after (P := fun calls r => ∃ cached,
    r.get? key = some (built client o c mode uri cached) ∧ AllServed calls uri cached)
    ⟨none, h, fun s hs => by cases hs⟩ ?_ calls
  rintro calls call r ⟨cached, hbuilt, hserved⟩
  exact get?_run_built hserved call hbuilt

end Key

/-- **After any history, every provider has its origin in the configuration.** -/
theorem originates_after {r : Registry} (hload : (loadProviders client net a).result = .ok r)
    (calls : List Call) : ∀ key p, (after r calls).get? key = some p →
      Originates client net a calls key p := by
  intro key p hp
  cases hr : r.get? key with
  | none =>
    rw [get?_after_of_none hr] at hp
    cases hp
  | some q =>
    obtain ⟨c, hc, hissuer, mode, uri, hmode, huri, rfl⟩ := get?_of_load hload hr
    obtain ⟨cached, hbuilt, hserved⟩ := get?_after_built hr calls
    rw [hp] at hbuilt
    exact ⟨c, hc, hissuer, mode, uri, cached, hmode, huri, Option.some.inj hbuilt, hserved⟩

end TokenGate.Proofs.Registry.Provenance
