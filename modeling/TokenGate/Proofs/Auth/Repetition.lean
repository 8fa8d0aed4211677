import TokenGate.Proofs.Auth.Requests
import TokenGate.Proofs.Auth.Transparency

/-! # Calls that are repeated

A lookup may refuse a key, fetch a set or fail, and leaves a cache in which the same lookup goes
another way. At the same instant and with the same answers of the network it comes to the same
result and leaves the cache as it is (`repeats_lookup`). So does a call with the same token
(`run_run`): a token that is presented again is accepted or rejected as before, and one that was
accepted costs no request (`repetition_changes_nothing`). -/

namespace TokenGate.Proofs.Auth.Repetition

open TokenGate.Http TokenGate.Key TokenGate.Token TokenGate.Load TokenGate.Proofs.Results
open TokenGate.Proofs.Key.Lookup (lookup_cases lookup_of_fresh refresh_of_ok refresh_of_error
  fresh?_of_cached fresh?_eq_some)
open TokenGate.Proofs.Key.Served (answer_eq_ok)
open TokenGate.Proofs.Verify.Verdict TokenGate.Proofs.Registry.History
open TokenGate.Proofs.Registry.Loaded TokenGate.Proofs.Registry.Provenance
open TokenGate.Proofs.Auth.Transparency TokenGate.Proofs.Auth.Requests
open TokenGate.Proofs.Auth.Soundness (documentNetwork checkedAndUnchecked signedCall)

/-! ### One lookup -/

section Lookup

variable (c : Cache) (now : Nat) (net : Network) (kid : Option String)

/-- A lookup comes to the same as an earlier one. -/
structure Repeats (l l' : Lookup) : Prop where
  result : l'.result = l.result
  cache : l'.cache = l.cache
  elapsed : l'.elapsed = l.elapsed

/-- **A lookup that is repeated** comes to the same, in the cache that it left behind. -/
theorem repeats_lookup :
    Repeats (c.lookup now net kid) ((c.lookup now net kid).cache.lookup now net kid) := by
  rcases lookup_cases c now net kid with ⟨s, -, -, hl⟩ | ⟨-, hl⟩
  · rw [hl]
    dsimp only
    rw [hl]
    exact ⟨rfl, rfl, rfl⟩
  · cases hf : (c.fetch net).result with
    | error f =>
      have hcache : (c.lookup now net kid).cache = c := by rw [hl, refresh_of_error hf]
      rw [hcache]
      exact ⟨rfl, rfl, rfl⟩
    | ok set =>
      -- Now the set is cached. If it does not answer, the same set is fetched again.
      rw [hl, refresh_of_ok hf]
      dsimp only
      rcases lookup_cases { c with cached := some ⟨set, now⟩ } now net kid with
        ⟨s, hs, -, hl'⟩ | ⟨-, hl'⟩
      · obtain rfl := Option.some.inj (fresh?_eq_some.mp hs).1
        rw [hl']
        exact ⟨rfl, rfl, rfl⟩
      · have hf' : (Cache.fetch { c with cached := some ⟨set, now⟩ } net).result = .ok set := hf
        rw [hl', refresh_of_ok hf']
        exact ⟨rfl, rfl, rfl⟩

variable {c now net kid}

theorem exchanges_of_found {key : VerifyingKey} (httl : 0 < c.ttl)
    (h : (c.lookup now net kid).result = .ok key) :
    ((c.lookup now net kid).cache.lookup now net kid).exchanges = [] := by
  rcases lookup_cases c now net kid with ⟨s, -, -, hl⟩ | ⟨-, hl⟩
  · rw [hl]
    dsimp only
    rw [hl]
  · cases hf : (c.fetch net).result with
    | error f =>
      rw [hl, refresh_of_error hf] at h
      cases h
    | ok set =>
      rw [hl, refresh_of_ok hf] at h ⊢
      dsimp only at h ⊢
      -- The set that came is fresh and has the key.
      have hfresh := fresh?_of_cached (c := { c with cached := some ⟨set, now⟩ }) httl rfl
      rw [lookup_of_fresh hfresh (answer_eq_ok h)]

end Lookup

/-! ### One verification -/

section Verify

variable (v : KeyVerifier) (clock : Clock) (net : Network) (token : String)

/-- **A verification that is repeated**, for whatever audience, has the same verdict and leaves the
verifier as it is. -/
theorem verify_verify (audience audience' : String) :
    SameVerdict (((v.verify clock net token audience).2).verify clock net token audience').1
        (v.verify clock net token audience').1 ∧
      (((v.verify clock net token audience).2).verify clock net token audience').2 =
        (v.verify clock net token audience).2 := by
  by_cases hm : v.trustMode = .insecure
  · rw [verify_of_insecure hm]
    dsimp only
    rw [verify_of_insecure hm]
    exact ⟨⟨rfl, rfl⟩, rfl⟩
  · cases hhd : KeyVerifier.readHeader token with
    | error f =>
      rw [verify_of_header_error hm hhd]
      dsimp only
      rw [verify_of_header_error hm hhd]
      exact ⟨⟨rfl, rfl⟩, rfl⟩
    | ok hd =>
      obtain ⟨hresult, hcache, helapsed⟩ := repeats_lookup v.keys clock.steady net hd.kid
      rw [verify_of_header hm hhd, verify_of_header hm hhd]
      dsimp only
      rw [verify_of_header (v := { v with keys := (v.keys.lookup clock.steady net hd.kid).cache })
        hm hhd]
      dsimp only
      rw [hresult, hcache, helapsed]
      exact ⟨⟨rfl, rfl⟩, rfl⟩

variable {v clock net token}

theorem exchanges_of_verified {audience : String} {claims : Json} (httl : 0 < v.keys.ttl)
    (h : (v.verify clock net token audience).1.verdict = .ok claims) :
    (((v.verify clock net token audience).2).verify clock net token audience).1.exchanges = [] := by
  by_cases hm : v.trustMode = .insecure
  · rw [verify_of_insecure hm]
    dsimp only
    rw [verify_of_insecure hm]
  · cases hhd : KeyVerifier.readHeader token with
    | error f =>
      rw [verify_of_header_error hm hhd] at h
      cases h
    | ok hd =>
      rw [verify_of_header hm hhd] at h ⊢
      obtain ⟨key, hkey, -⟩ := except_bind_eq_ok.mp h
      dsimp only
      rw [verify_of_header (v := { v with keys := (v.keys.lookup clock.steady net hd.kid).cache })
        hm hhd]
      exact exchanges_of_found httl hkey

end Verify

theorem verifier_verify_verify (x : Verifier) (clock : Clock) (net : Network)
    (token audience audience' : String) :
    SameVerdict (((x.verify clock net token audience).2).verify clock net token audience').1
        (x.verify clock net token audience').1 ∧
      (((x.verify clock net token audience).2).verify clock net token audience').2 =
        (x.verify clock net token audience).2 := by
  cases x with
  | given react => exact ⟨⟨rfl, rfl⟩, rfl⟩
  | keys v =>
    obtain ⟨hverdict, hverifier⟩ := verify_verify v clock net token audience audience'
    exact ⟨hverdict, congrArg Verifier.keys hverifier⟩

/-! ### One call -/

variable {call : Call} {r : Registry} {i : Identity}

/-- **A call that is repeated** gives the same result and leaves every provider as it is. -/
theorem run_run (call : Call) (r : Registry) :
    (call.run (call.run r).registry).result = (call.run r).result ∧
      ∀ key, (call.run (call.run r).registry).registry.get? key = (call.run r).registry.get? key := by
  rcases registry_run call r with hr | ⟨peek, p, audience, hpeek, hp, -, hr⟩
  · rw [hr]
    exact ⟨rfl, fun key => by rw [hr]⟩
  · have hk : claimed? call.token = some peek.issuer := claimed?_eq_some.mpr ⟨peek, hpeek, rfl⟩
    have hp' : (call.run r).registry.get? peek.issuer = some
        { p with verifier := (p.verifier.verify call.clock call.net call.token audience).2 } := by
      rw [hr, Registry.get?_insert, if_pos rfl]
    have hagain := verifier_verify_verify p.verifier call.clock call.net call.token audience
    refine ⟨result_run_congr hk hp' hp rfl fun audience' => (hagain audience').1, fun key => ?_⟩
    rcases registry_run call (call.run r).registry with hr' | ⟨peek', q, audience', hpeek', hq, -, hr'⟩
    · rw [hr']
    · -- The verifier that is put in its place again is the one that is there.
      obtain rfl : peek = peek' := Except.ok.inj (hpeek.symm.trans hpeek')
      obtain rfl := Option.some.inj (hp'.symm.trans hq)
      rw [hr', Registry.get?_insert]
      split_ifs with hkey
      · rw [← hkey, hp']
        dsimp only
        rw [(hagain audience').2]
      · rfl

theorem registry_of_run_eq_ok (h : (call.run r).result = .ok i) :
    ∃ peek p audience claims, Peek.ofToken call.token = .ok peek ∧ r.get? peek.issuer = some p ∧
      p.matchAudience peek.audience = some audience ∧
      (p.verifier.verify call.clock call.net call.token audience).1.verdict = .ok claims ∧
      (call.run r).registry = r.insert peek.issuer
        { p with verifier := (p.verifier.verify call.clock call.net call.token audience).2 } := by
  obtain ⟨peek, p, audience, claims, -, hpeek, hp, haudience, hverdict, -⟩ := run_eq_ok h
  refine ⟨peek, p, audience, claims, hpeek, hp, haudience, hverdict, ?_⟩
  rw [run_of_matched hpeek hp haudience] at h ⊢
  unfold Authentication.ask at h ⊢
  dsimp only at h ⊢
  split_ifs at h ⊢
  rfl

/-- A token that was accepted is accepted again without a request, if all sets stay fresh for some
time. -/
theorem exchanges_of_accepted
    (httl : ∀ key p v, r.get? key = some p → p.verifier = .keys v → 0 < v.keys.ttl)
    (h : (call.run r).result = .ok i) : (call.run (call.run r).registry).exchanges = [] := by
  obtain ⟨peek, p, audience, claims, hpeek, hp, haudience, hverdict, hr⟩ := registry_of_run_eq_ok h
  have hp' : (call.run r).registry.get? peek.issuer = some
      { p with verifier := (p.verifier.verify call.clock call.net call.token audience).2 } := by
    rw [hr, Registry.get?_insert, if_pos rfl]
  rw [run_of_matched hpeek hp' haudience, exchanges_ask]
  dsimp only
  cases hx : p.verifier with
  | given react => rfl
  | keys v =>
    rw [hx] at hverdict
    exact exchanges_of_verified (httl _ _ _ hp hx) hverdict

/-! ### Loaded registries -/

/-- **Repetition.** Whatever keys a history has left in the caches of a loaded registry, a call with
a token that is made again, at the same time and with the same answers of the network, gives the
same identity or the same rejection, and leaves every provider as the first call left it. If the
first call succeeded and sets stay fresh for any time, the second one sends no request. -/
theorem repetition_changes_nothing {client : Client} {net : Network} {a : AuthConfig} {r : Registry}
    (hload : (loadProviders client net a).result = .ok r) (history : List Call) (call : Call) :
    (call.run (after r (history ++ [call]))).result = (call.run (after r history)).result ∧
      (∀ key, (after r (history ++ [call, call])).get? key =
        (after r (history ++ [call])).get? key) ∧
      ∀ i, (call.run (after r history)).result = .ok i → 0 < a.jwksCacheTtl →
        (call.run (after r (history ++ [call]))).exchanges = [] := by
  have htwice : history ++ [call, call] = (history ++ [call]) ++ [call] := by simp
  obtain ⟨hresult, hregistry⟩ := run_run call (after r history)
  simp only [htwice, after_concat]
  refine ⟨hresult, hregistry, fun i hi httl => exchanges_of_accepted ?_ hi⟩
  intro key p v hp hv
  obtain ⟨c, -, -, mode, uri, cached, -, -, rfl, -⟩ := originates_after hload history _ _ hp
  obtain rfl := Verifier.keys.inj hv
  exact Nat.mul_pos (UInt64.lt_iff_toNat_lt.mp httl) (by decide)

/-- The signed call, at a time at which the keys that it has brought are no longer fresh. -/
def lateCall : Call := { signedCall with clock := ⟨1700000000, 3600000⟩ }

/-- The late call fetches the keys again, and is accepted. The next one does without. -/
theorem repetition_changes_nothing_late : ∃ r i,
    (loadProviders ⟨0⟩ documentNetwork checkedAndUnchecked).result = .ok r ∧
    (lateCall.run (after r [signedCall])).result = .ok i ∧
    (lateCall.run (after r [signedCall])).exchanges ≠ [] ∧
    0 < checkedAndUnchecked.jwksCacheTtl ∧
    (lateCall.run (after r ([signedCall] ++ [lateCall]))).result = .ok i ∧
    (lateCall.run (after r ([signedCall] ++ [lateCall]))).exchanges = [] := by
  have hrun : ((loadProviders ⟨0⟩ documentNetwork checkedAndUnchecked).result.toOption.bind fun r =>
      (lateCall.run (after r [signedCall])).result.toOption.map fun _ =>
        decide ((lateCall.run (after r [signedCall])).exchanges ≠ [])) = some true := by
    decide +kernel
  obtain ⟨r, hr, hrun⟩ := Option.bind_eq_some_iff.mp hrun
  obtain ⟨i, hi, hsent⟩ := Option.map_eq_some_iff.mp hrun
  rw [toOption_eq_some] at hr hi
  have httl : 0 < checkedAndUnchecked.jwksCacheTtl := by decide
  obtain ⟨hresult, -, hsilent⟩ := repetition_changes_nothing hr [signedCall] lateCall
  exact ⟨r, i, hr, hi, of_decide_eq_true hsent, httl, hresult.trans hi, hsilent i hi httl⟩

end TokenGate.Proofs.Auth.Repetition
