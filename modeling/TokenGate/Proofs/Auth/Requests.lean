import TokenGate.Proofs.Auth.Soundness
import TokenGate.Proofs.Registry.Trust

/-! # The requests of a call

A call may ask for keys over the network, but only for those of the provider that its token claims,
and only once. Every step in front of the look-up of a key is a gate: a call that does not pass it
is quiet, which is to say that it sends nothing and leaves all keys as they are (`run_cases`). This
holds of a loaded registry whatever keys its caches hold (`requests_confined`). A server that is
asked for keys may redirect the request, though, to any other, and then that one is asked as well
(`not_forall_requests_single`). -/

namespace TokenGate.Proofs.Auth.Requests

open TokenGate.Http TokenGate.Token TokenGate.Load TokenGate.Proofs.Results
open TokenGate.Proofs.Http.Fetch (Trail trail_get get_of_target_error)
open TokenGate.Proofs.Key.Lookup (lookup_cases exchanges_refresh cache_lookup)
open TokenGate.Proofs.Verify.Verdict TokenGate.Proofs.Registry.History
open TokenGate.Proofs.Registry.Loaded TokenGate.Proofs.Registry.Provenance
open TokenGate.Proofs.Registry.Loading (get?_of_load)
open TokenGate.Proofs.Registry.Trust (issuerNetwork)
open TokenGate.Proofs.Auth.Soundness

/-- A call sends nothing, and leaves every provider as it is, with the keys in its cache. -/
structure Quiet (call : Call) (r : Registry) : Prop where
  silent : (call.run r).exchanges = []
  unchanged : ∀ key, (call.run r).registry.get? key = r.get? key

/-- A provider with other keys in its cache. -/
def withCached (cached : Option Key.CachedSet) (p : Provider) : Provider :=
  match p.verifier with
  | .keys v => { p with verifier := .keys { v with keys := { v.keys with cached := cached } } }
  | .given _ => p

/-- A registry has the providers of another, with any keys in their caches. -/
def SameButCaches (r r' : Registry) : Prop :=
  ∀ key, ∃ cached, r'.get? key = (r.get? key).map (withCached cached)

variable {call : Call} {r r' : Registry}

/-! ### One look-up of a key -/

theorem exchanges_lookup (c : Key.Cache) (now : Nat) (net : Network) (kid : Option String) :
    (c.lookup now net kid).exchanges = [] ∨
      ∃ u, target c.uri = .ok u ∧ Trail net [] u (c.lookup now net kid).exchanges := by
  rcases lookup_cases c now net kid with ⟨s, -, -, hl⟩ | ⟨-, hl⟩
  · exact Or.inl (by rw [hl])
  · rw [hl, exchanges_refresh]
    cases hu : target c.uri with
    | error f => exact Or.inl (by rw [get_of_target_error hu])
    | ok u => exact Or.inr ⟨u, rfl, trail_get c.client hu⟩

/-! ### One call -/

/-- **What a verifier does**: it is as it was and has sent nothing, or it has looked up the key that
the header of the token names. -/
theorem verify_cases (x : Verifier) (clock : Clock) (net : Network) (token audience : String) :
    ((x.verify clock net token audience).1.exchanges = [] ∧
        (x.verify clock net token audience).2 = x) ∨
      ∃ v hd, x = .keys v ∧ v.trustMode ≠ .insecure ∧ KeyVerifier.readHeader token = .ok hd ∧
        (x.verify clock net token audience).1.exchanges =
          (v.keys.lookup clock.steady net hd.kid).exchanges := by
  cases x with
  | given react => exact Or.inl ⟨rfl, rfl⟩
  | keys v =>
    unfold Verifier.verify
    dsimp only
    by_cases hm : v.trustMode = .insecure
    · exact Or.inl (by rw [verify_of_insecure hm]; exact ⟨rfl, rfl⟩)
    · cases hhd : KeyVerifier.readHeader token with
      | error f => exact Or.inl (by rw [verify_of_header_error hm hhd]; exact ⟨rfl, rfl⟩)
      | ok hd => exact Or.inr ⟨v, hd, rfl, hm, rfl, by rw [verify_of_header hm hhd]⟩

theorem quiet_of_reject {issuer : Option String} {f : Rejection}
    (h : call.run r = .reject r issuer f) : Quiet call r :=
  ⟨by rw [h]; rfl, fun key => by rw [h]; rfl⟩

theorem unchanged_of_matched {peek : Peek} {p : Provider} {audience : String}
    (hp : r.get? peek.issuer = some p)
    (hrun : call.run r = .ask r peek.issuer p call.limit call.clock call.net call.token audience)
    (hsame : (p.verifier.verify call.clock call.net call.token audience).2 = p.verifier)
    (key : String) : (call.run r).registry.get? key = r.get? key := by
  unfold Authentication.ask at hrun
  dsimp only at hrun
  rw [hsame] at hrun
  split_ifs at hrun
  · rw [hrun, Registry.get?_insert]
    split_ifs with hkey
    · rw [← hkey, hp]
    · rfl
  · rw [hrun]

theorem exchanges_ask (r : Registry) (key : String) (p : Provider) (limit : Nat) (clock : Clock)
    (net : Network) (token audience : String) :
    (Authentication.ask r key p limit clock net token audience).exchanges =
      (p.verifier.verify clock net token audience).1.exchanges := by
  unfold Authentication.ask
  dsimp only
  split_ifs <;> rfl

theorem quiet_of_matched {peek : Peek} {p : Provider} {audience : String}
    (hp : r.get? peek.issuer = some p)
    (hrun : call.run r = .ask r peek.issuer p call.limit call.clock call.net call.token audience)
    (hsilent : (p.verifier.verify call.clock call.net call.token audience).1.exchanges = [])
    (hsame : (p.verifier.verify call.clock call.net call.token audience).2 = p.verifier) :
    Quiet call r :=
  ⟨by rw [hrun, exchanges_ask, hsilent], unchanged_of_matched hp hrun hsame⟩

/-- **What a call does to the network and the registry**: it is quiet, or it has passed every gate,
and what it sends is sent by the look-up of a key. -/
theorem run_cases (call : Call) (r : Registry) : Quiet call r ∨
    ∃ peek p audience v hd, Peek.ofToken call.token = .ok peek ∧ r.get? peek.issuer = some p ∧
      p.matchAudience peek.audience = some audience ∧ p.verifier = .keys v ∧
      v.trustMode ≠ .insecure ∧ KeyVerifier.readHeader call.token = .ok hd ∧
      (call.run r).exchanges = (v.keys.lookup call.clock.steady call.net hd.kid).exchanges := by
  cases hpeek : Peek.ofToken call.token with
  | error f => exact Or.inl (quiet_of_reject (run_of_unroutable hpeek))
  | ok peek =>
    cases hp : r.get? peek.issuer with
    | none => exact Or.inl (quiet_of_reject (run_of_unregistered hpeek hp))
    | some p =>
      cases haudience : p.matchAudience peek.audience with
      | none => exact Or.inl (quiet_of_reject (run_of_unmatched hpeek hp haudience))
      | some audience =>
        have hrun := run_of_matched hpeek hp haudience
        rcases verify_cases p.verifier call.clock call.net call.token audience with
          ⟨hsilent, hsame⟩ | ⟨v, hd, hv, hm, hhd, hexchanges⟩
        · exact Or.inl (quiet_of_matched hp hrun hsilent hsame)
        · refine Or.inr ⟨peek, p, audience, v, hd, rfl, hp, haudience, hv, hm, hhd, ?_⟩
          rw [hrun, exchanges_ask, hexchanges]

/-! ### Gates -/

/-- **A gate**: a condition without which no key is looked up keeps a call quiet. -/
theorem quiet_of_gate (h : ∀ peek p audience v hd, Peek.ofToken call.token = .ok peek →
    r.get? peek.issuer = some p → p.matchAudience peek.audience = some audience →
    p.verifier = .keys v → v.trustMode ≠ .insecure →
    KeyVerifier.readHeader call.token = .ok hd → False) : Quiet call r := by
  rcases run_cases call r with hquiet | ⟨peek, p, audience, v, hd, hpeek, hp, ha, hv, hm, hhd, -⟩
  · exact hquiet
  · exact absurd (h peek p audience v hd hpeek hp ha hv hm hhd) id

section Loaded

variable {client : Client} {net : Network} {a : AuthConfig}

theorem built_of_sameButCaches (hload : (loadProviders client net a).result = .ok r)
    (hstate : SameButCaches r r') {key : String} {p : Provider} (hp : r'.get? key = some p) :
    ∃ c ∈ (plan a).1, c.issuer = key ∧ ∃ mode uri cached, KeysAt client net c mode uri ∧
      p = built client (options a) c mode uri cached := by
  obtain ⟨cached, hsame⟩ := hstate key
  rw [hp] at hsame
  obtain ⟨q, hq, rfl⟩ := Option.map_eq_some_iff.mp hsame.symm
  obtain ⟨c, hc, hissuer, mode, uri, -, huri, rfl⟩ := get?_of_load hload hq
  exact ⟨c, hc, hissuer, mode, uri, cached, huri, rfl⟩

theorem sameButCaches_after (hload : (loadProviders client net a).result = .ok r)
    (calls : List Call) : SameButCaches r (after r calls) := by
  intro key
  cases hp : r.get? key with
  | none => exact ⟨none, get?_after_of_none hp calls⟩
  | some p =>
    obtain ⟨c, -, -, mode, uri, -, -, rfl⟩ := get?_of_load hload hp
    obtain ⟨cached, hbuilt, -⟩ := get?_after_built hp calls
    exact ⟨cached, hbuilt⟩

end Loaded

theorem exists_cached_verify (v : KeyVerifier) (clock : Clock) (net : Network)
    (token audience : String) : ∃ cached, (v.verify clock net token audience).2 =
      { v with keys := { v.keys with cached := cached } } := by
  rcases verifier_verify v clock net token audience with hv | ⟨kid, hv⟩
  · exact ⟨v.keys.cached, hv⟩
  · rcases cache_lookup v.keys clock.steady net kid with hc | ⟨set, -, hc⟩
    · exact ⟨v.keys.cached, by rw [hv, hc]⟩
    · exact ⟨_, by rw [hv, hc]⟩

theorem exists_withCached_verify (p : Provider) (clock : Clock) (net : Network)
    (token audience : String) : ∃ cached,
      { p with verifier := (p.verifier.verify clock net token audience).2 } = withCached cached p := by
  obtain ⟨issuer, audiences, mode, x⟩ := p
  cases x with
  | given react => exact ⟨none, rfl⟩
  | keys v =>
    obtain ⟨cached, hv⟩ := exists_cached_verify v clock net token audience
    exact ⟨cached, congrArg (fun v => Provider.mk issuer audiences mode (.keys v)) hv⟩

theorem withCached_withCached (cached cached' : Option Key.CachedSet) (p : Provider) :
    withCached cached (withCached cached' p) = withCached cached p := by
  obtain ⟨issuer, audiences, mode, x⟩ := p
  cases x <;> rfl

/-- **A call changes nothing but the keys in the caches**, whatever was in them. -/
theorem sameButCaches_run (hstate : SameButCaches r r') (call : Call) :
    SameButCaches r (call.run r').registry := by
  intro key
  obtain ⟨cached, hkey⟩ := hstate key
  rcases registry_run call r' with hr | ⟨peek, p, audience, -, hp, -, hr⟩
  · rw [hr]
    exact ⟨cached, hkey⟩
  · rw [hr, Registry.get?_insert]
    split_ifs with hissuer
    · rw [← hissuer, hp] at hkey
      obtain ⟨q, hq, rfl⟩ := Option.map_eq_some_iff.mp hkey.symm
      obtain ⟨cached', hverified⟩ :=
        exists_withCached_verify (withCached cached q) call.clock call.net call.token audience
      exact ⟨cached', by rw [hverified, withCached_withCached, ← hissuer, hq]; rfl⟩
    · exact ⟨cached, hkey⟩

section Request

variable {client : Client} {net : Network} {a : AuthConfig}

/-- The request of a call, if there is one, is for the keys of the claimed provider. -/
theorem request_of_run (hload : (loadProviders client net a).result = .ok r)
    (hstate : SameButCaches r r') (call : Call) : (call.run r').exchanges = [] ∨
      ∃ c ∈ (plan a).1, ∃ p v u, claimed? call.token = some c.issuer ∧
        r'.get? c.issuer = some p ∧ p.issuer = c.issuer ∧ p.verifier = .keys v ∧
        KeysAt client net c p.trustMode v.keys.uri ∧ target v.keys.uri = .ok u ∧
        Trail call.net [] u (call.run r').exchanges := by
  rcases run_cases call r' with hquiet | ⟨peek, p, audience, v, hd, hpeek, hp, -, hv, -, -, hsent⟩
  · exact Or.inl hquiet.silent
  · rw [hsent]
    rcases exchanges_lookup v.keys call.clock.steady call.net hd.kid with h | ⟨u, hu, h⟩
    · exact Or.inl h
    · obtain ⟨c, hc, hissuer, mode, uri, cached, huri, rfl⟩ := built_of_sameButCaches hload hstate hp
      obtain rfl := Verifier.keys.inj hv
      rw [← hissuer] at hp
      exact Or.inr ⟨c, hc, _, _, u, claimed?_eq_some.mpr ⟨peek, hpeek, hissuer.symm⟩, hp, rfl, rfl,
        huri, hu, h⟩

end Request

/-! ### What a call sends and when it is quiet -/

/-- A call asks for the keys of the claimed provider, wherever that request is redirected to, or for
nothing, and is quiet unless it passes every gate. -/
structure Confined (client : Client) (net : Network) (a : AuthConfig) (r : Registry) (call : Call) :
    Prop where
  request : (call.run r).exchanges = [] ∨
    ∃ c ∈ (plan a).1, ∃ p v u, claimed? call.token = some c.issuer ∧
      r.get? c.issuer = some p ∧ p.issuer = c.issuer ∧ p.verifier = .keys v ∧
      KeysAt client net c p.trustMode v.keys.uri ∧ target v.keys.uri = .ok u ∧
      Trail call.net [] u (call.run r).exchanges
  single : ∀ e, (call.run r).exchanges.head? = some e → e.redirect? = none →
    (call.run r).exchanges = [e]
  unroutable : ∀ f, Peek.ofToken call.token = .error f →
    Quiet call r ∧ (call.run r).result = .error (.ofPeek f)
  unregistered : ∀ peek, Peek.ofToken call.token = .ok peek → peek.issuer ∉ r.issuers →
    Quiet call r ∧ (call.run r).result = .error (.unknownIssuer peek.issuer)
  unmatched : ∀ peek p, Peek.ofToken call.token = .ok peek → r.get? peek.issuer = some p →
    (∀ name ∈ p.audiences, name ∉ peek.audience) →
    Quiet call r ∧ (call.run r).result = .error (.audienceMismatch peek.issuer)
  insecure : ∀ peek p, Peek.ofToken call.token = .ok peek → r.get? peek.issuer = some p →
    p.trustMode = .insecure → Quiet call r
  unreadable : ∀ f, Header.ofToken call.token = .error f → Quiet call r
  forbidden : ∀ hd, Header.ofToken call.token = .ok hd →
    hd.algorithm ∉ ([.rs256, .rs384, .rs512, .ps256, .ps384, .ps512, .es256, .es384] :
      List Algorithm) → Quiet call r

/-- **Requests are confined.** Whatever keys are in the caches of a loaded registry, a call asks
once at most for keys, those of the provider whose issuer the token claims, and sends another
request only where that one is redirected. It sends none, and leaves all keys as they are, if the
token cannot be routed, if no provider or no audience fits it, if the provider's signatures go
unchecked, or if its header cannot be read or names another algorithm. -/
theorem requests_confined {client : Client} {net : Network} {a : AuthConfig} {r r' : Registry}
    (hload : (loadProviders client net a).result = .ok r) (hstate : SameButCaches r r')
    (call : Call) : Confined client net a r' call where
  request := request_of_run hload hstate call
  single e he hdirect := by
    rcases request_of_run hload hstate call with h | ⟨c, -, p, v, u, -, -, -, -, -, -, htrail⟩
    · rw [h] at he
      cases he
    · exact htrail.eq_of_head? he hdirect
  unroutable f hpeek := by
    have hrun : call.run r' = _ := run_of_unroutable hpeek
    exact ⟨quiet_of_reject hrun, by rw [hrun]; rfl⟩
  unregistered peek hpeek hissuer := by
    have hp : r'.get? peek.issuer = none := by
      rwa [Registry.mem_issuers, Option.not_isSome_iff_eq_none] at hissuer
    have hrun := run_of_unregistered hpeek hp
    exact ⟨quiet_of_reject hrun, by rw [hrun]; rfl⟩
  unmatched peek p hpeek hp haudience := by
    have hmatch : p.matchAudience peek.audience = none := by
      unfold Provider.matchAudience
      simpa using haudience
    have hrun := run_of_unmatched hpeek hp hmatch
    exact ⟨quiet_of_reject hrun, by rw [hrun]; rfl⟩
  insecure peek p hpeek hp hmode := by
    refine quiet_of_gate fun peek' p' audience v hd hpeek' hp' _ hv hm _ => ?_
    obtain rfl : peek = peek' := Except.ok.inj (hpeek.symm.trans hpeek')
    obtain rfl : p = p' := Option.some.inj (hp.symm.trans hp')
    obtain ⟨c, -, -, mode, uri, cached, -, rfl⟩ := built_of_sameButCaches hload hstate hp
    obtain rfl := Verifier.keys.inj hv
    exact hm hmode
  unreadable f hheader := by
    refine quiet_of_gate fun _ _ _ _ hd _ _ _ _ _ hhd => ?_
    rw [(header_of_readHeader hhd).1] at hheader
    cases hheader
  forbidden hd hheader halgorithm := by
    refine quiet_of_gate fun _ _ _ _ hd' _ _ _ _ _ hhd => ?_
    obtain ⟨hheader', hallowed⟩ := header_of_readHeader hhd
    obtain rfl : hd = hd' := Except.ok.inj (hheader.symm.trans hheader')
    exact halgorithm (isAllowed_iff_mem.mp hallowed)

/-- The configuration of the issuer of the network. -/
def issuerConfig : AuthConfig :=
  { AuthConfig.default with providers := [⟨"http://a", ["x"], false, false, none⟩] }

/-- A call with a token of the issuer, while there are no keys at their address. -/
def keylessCall : Call := { signedCall with net := issuerNetwork }

/-- Without a key in the cache, and after a request that brought none, a call sends a request. -/
theorem requests_confined_keyless : ∃ r,
    (loadProviders ⟨0⟩ issuerNetwork issuerConfig).result = .ok r ∧
    SameButCaches r (after r [keylessCall]) ∧
    (keylessCall.run (after r [keylessCall])).exchanges ≠ [] ∧
    Confined ⟨0⟩ issuerNetwork issuerConfig (after r [keylessCall]) keylessCall := by
  have hrun : ((loadProviders ⟨0⟩ issuerNetwork issuerConfig).result.toOption.map fun r =>
      decide ((keylessCall.run (after r [keylessCall])).exchanges ≠ [])) = some true := by
    decide +kernel
  obtain ⟨r, hr, hsent⟩ := Option.map_eq_some_iff.mp hrun
  rw [toOption_eq_some] at hr
  have hstate := sameButCaches_after hr [keylessCall]
  exact ⟨r, hr, hstate, of_decide_eq_true hsent, requests_confined hr hstate keylessCall⟩

/-- A network on which the keys of the issuer have moved to another host. -/
def movedNetwork : Network :=
  ⟨fun _ u => if u.render = "http://a/k" then .answered 302 (some "http://b/keys") []
    else .answered 200 none (Text.Utf8.encode document)⟩

/-- A call with a token of the issuer while its keys have moved. -/
def movedCall : Call := { signedCall with net := movedNetwork }

/-- **A call may send more than one request, and not only to the claimed provider**: if the address
of the keys redirects it. -/
theorem not_forall_requests_single : ¬ ∀ (client : Client) (net : Network) (a : AuthConfig)
    (r r' : Registry) (call : Call), (loadProviders client net a).result = .ok r →
      SameButCaches r r' → (call.run r').exchanges.length ≤ 1 ∧
        ∀ e ∈ (call.run r').exchanges, ∃ key p v, claimed? call.token = some key ∧
          r'.get? key = some p ∧ p.verifier = .keys v ∧ target v.keys.uri = .ok e.url := by
  intro h
  have hrun : ((loadProviders ⟨0⟩ issuerNetwork issuerConfig).result.toOption.map fun r =>
      (movedCall.run r).exchanges.length) = some 2 := by decide +kernel
  obtain ⟨r, hr, hlength⟩ := Option.map_eq_some_iff.mp hrun
  rw [toOption_eq_some] at hr
  have hsingle := (h ⟨0⟩ issuerNetwork issuerConfig r r movedCall hr (sameButCaches_after hr [])).1
  omega

end TokenGate.Proofs.Auth.Requests
