import TokenGate.Proofs.Auth.Requests
import TokenGate.Proofs.Registry.Filing
import TokenGate.Proofs.Verify.Contract

/-! # Providers under the wrong key

The key under which a provider is found is the issuer that a token claims, and it is not taken on
trust: the verifier of a discovered provider belongs to the issuer that was configured, and looks at
the issuer of the claims again, whether or not it checks signatures (`issuer_of_verdict`). So a
provider that was discovered for one issuer and filed under another one authenticates nobody,
whatever keys it has (`refused_of_misfiledAt`), and calls do not change that
(`misfiledAt_after`). -/

namespace TokenGate.Proofs.Auth.Misfiling

open TokenGate.Http TokenGate.Token TokenGate.Proofs.Results
open TokenGate.Proofs.Registry.Filing TokenGate.Proofs.Registry.History
open TokenGate.Proofs.Registry.Loaded
open TokenGate.Proofs.Verify.Agreement
open TokenGate.Proofs.Verify.Contract (meets_of_routed)
open TokenGate.Proofs.Auth.Requests
open TokenGate.Proofs.Auth.Soundness

/-- A provider was discovered for another issuer than a key, whatever keys are in its cache. -/
def Misfiled (key : String) (p : Provider) : Prop :=
  ∃ (client : Client) (net : Network) (earlier : List Exchange) (c : ProviderConfig)
    (o : Provider.Options) (q : Provider) (cached : Option Key.CachedSet),
    (Provider.discover client net earlier c o).result = .ok q ∧ c.issuer ≠ key ∧
      p = withCached cached q

/-- A registry has such a provider under a key. -/
def MisfiledAt (r : Registry) (key : String) : Prop := ∃ p, r.get? key = some p ∧ Misfiled key p

variable {r : Registry} {key : String} {p : Provider}

/-! ### What is verified -/

/-- **A verifier accepts the tokens of its own issuer only**, if they can be routed. -/
theorem issuer_of_verdict {v : KeyVerifier} {clock : Clock} {net : Network} {token audience : String}
    {peek : Peek} {claims : Json} (hpeek : Peek.ofToken token = .ok peek)
    (h : (v.verify clock net token audience).1.verdict = .ok claims) : peek.issuer = v.issuer := by
  obtain ⟨bytes, hbytes, hvalue⟩ := value_of_verdict h
  obtain ⟨ms, stop, hroot⟩ := root_of_verdict hpeek h hbytes
  have hrouted := (agrees_of_object hpeek hbytes hvalue hroot).issuer
  have hverified := (meets_of_routed hpeek h).issuer
  exact Json.string.inj (Option.some.inj (hrouted.symm.trans hverified))

/-- **An accepted token claims the issuer of the verifier** that its provider has, whatever the key
is under which the provider is found. -/
theorem issuer_of_run_eq_ok {call : Call} {v : KeyVerifier} {i : Identity}
    (hclaimed : claimed? call.token = some key) (hp : r.get? key = some p)
    (hverifier : p.verifier = .keys v) (h : (call.run r).result = .ok i) : key = v.issuer := by
  obtain ⟨peek, hpeek, rfl⟩ := claimed?_eq_some.mp hclaimed
  obtain ⟨peek', q, audience, claims, -, hpeek', hq, -, hverdict, -⟩ := run_eq_ok h
  obtain rfl : peek = peek' := Except.ok.inj (hpeek.symm.trans hpeek')
  obtain rfl : p = q := Option.some.inj (hp.symm.trans hq)
  rw [hverifier] at hverdict
  exact issuer_of_verdict hpeek hverdict

/-! ### What is misfiled -/

theorem misfiled_of_discover {client : Client} {net : Network} {earlier : List Exchange}
    {c : ProviderConfig} {o : Provider.Options}
    (h : (Provider.discover client net earlier c o).result = .ok p) (hissuer : c.issuer ≠ key) :
    Misfiled key p := by
  obtain ⟨mode, uri, -, -, hp⟩ := built_of_discover h
  exact ⟨client, net, earlier, c, o, p, none, h, hissuer, by rw [hp]; rfl⟩

theorem verifier_of_misfiled (h : Misfiled key p) : ∃ v, p.verifier = .keys v ∧ v.issuer ≠ key := by
  obtain ⟨client, net, earlier, c, o, q, cached, hq, hissuer, rfl⟩ := h
  obtain ⟨mode, uri, -, -, rfl⟩ := built_of_discover hq
  exact ⟨_, rfl, hissuer⟩

theorem misfiled_withCached (h : Misfiled key p) (cached : Option Key.CachedSet) :
    Misfiled key (withCached cached p) := by
  obtain ⟨client, net, earlier, c, o, q, cached', hq, hissuer, rfl⟩ := h
  exact ⟨client, net, earlier, c, o, q, cached, hq, hissuer, withCached_withCached cached cached' q⟩

/-- **A misfiled provider authenticates nobody.** -/
theorem refused_of_misfiledAt (h : MisfiledAt r key) {call : Call}
    (hclaimed : claimed? call.token = some key) : ∃ f, (call.run r).result = .error f := by
  obtain ⟨p, hp, hmisfiled⟩ := h
  obtain ⟨v, hverifier, hissuer⟩ := verifier_of_misfiled hmisfiled
  cases hresult : (call.run r).result with
  | error f => exact ⟨f, rfl⟩
  | ok i => exact absurd (issuer_of_run_eq_ok hclaimed hp hverifier hresult).symm hissuer

theorem exists_withCached_self (p : Provider) : ∃ cached, withCached cached p = p := by
  obtain ⟨issuer, audiences, mode, x⟩ := p
  cases x with
  | given react => exact ⟨none, rfl⟩
  | keys v => exact ⟨v.keys.cached, rfl⟩

theorem sameButCaches_refl (r : Registry) : SameButCaches r r := by
  intro key
  cases r.get? key with
  | none => exact ⟨none, rfl⟩
  | some p =>
    obtain ⟨cached, hp⟩ := exists_withCached_self p
    exact ⟨cached, congrArg some hp.symm⟩

/-- **Calls leave a misfiled provider where it is**, with other keys at most. -/
theorem misfiledAt_after (h : MisfiledAt r key) (history : List Call) :
    MisfiledAt (after r history) key := by
  have hsame : SameButCaches r (after r history) :=
    invariant_after (P := fun _ r' => SameButCaches r r') (sameButCaches_refl r)
      (fun _ call _ hstate => sameButCaches_run hstate call) history
  obtain ⟨p, hp, hmisfiled⟩ := h
  obtain ⟨cached, hkey⟩ := hsame key
  rw [hp] at hkey
  exact ⟨withCached cached p, hkey, misfiled_withCached hmisfiled cached⟩

/-- **Keys are exact and fail closed.** Whatever is registered, and under whatever keys, the
registry is a map with exact keys. If the provider under a key was discovered for another issuer,
then no call with a token that claims the key is ever authenticated, in whatever trust mode, with
whatever keys cached, at whatever time and after whatever other calls. -/
theorem exact_keys_fail_closed :
    (∀ rs : List Registration, Files rs (registered rs)) ∧
    ∀ (r : Registry) (key : String) (p : Provider), r.get? key = some p → Misfiled key p →
      ∀ (history : List Call) (call : Call), claimed? call.token = some key →
        ∃ f, (call.run (after r history)).result = .error f := by
  refine ⟨files_registered, fun r key p hp hmisfiled history call hclaimed => ?_⟩
  exact refused_of_misfiledAt (misfiledAt_after ⟨p, hp, hmisfiled⟩ history) hclaimed

/-- The configuration of an issuer. -/
def ownConfig : ProviderConfig := ⟨"http://a", ["x"], false, false, none⟩

/-- The configuration of another issuer, which takes the document of the first one, and so its
keys. -/
def otherConfig : ProviderConfig := ⟨"http://b", ["x"], true, false, none⟩

/-- A signed token is accepted by the provider of its issuer. Then the provider of another issuer is
added under the same key: it has the key that signed the token, and refuses the token. -/
theorem exact_keys_fail_closed_replaced : ∃ p q,
    (Provider.discover ⟨0⟩ documentNetwork [] ownConfig .default).result = .ok p ∧
    (Provider.discover ⟨0⟩ documentNetwork [] otherConfig .default).result = .ok q ∧
    claimed? signedCall.token = some "http://a" ∧
    (∃ i, (signedCall.run (registered [.register p])).result = .ok i) ∧
    (registered [.register p, .add "http://a" q]).get? "http://a" = some q ∧ Misfiled "http://a" q ∧
    ∃ f, (signedCall.run (after (registered [.register p, .add "http://a" q]) [signedCall])).result =
      .error f := by
  obtain ⟨hfiles, hrefused⟩ := exact_keys_fail_closed
  have hrun : ((Provider.discover ⟨0⟩ documentNetwork [] ownConfig .default).result.toOption.bind
      fun p => (Provider.discover ⟨0⟩ documentNetwork [] otherConfig .default).result.toOption.bind
        fun q => (signedCall.run (registered [.register p])).result.toOption.map fun _ => ()) =
      some () := by
    decide +kernel
  obtain ⟨p, hp, hrun⟩ := Option.bind_eq_some_iff.mp hrun
  obtain ⟨q, hq, hrun⟩ := Option.bind_eq_some_iff.mp hrun
  obtain ⟨i, hi, -⟩ := Option.map_eq_some_iff.mp hrun
  rw [toOption_eq_some] at hp hq hi
  have hlast : LastFor [.register p, .add "http://a" q] "http://a" (.add "http://a" q) :=
    ⟨[.register p], [], rfl, rfl, fun ⟨_, h, _⟩ => by cases h⟩
  have hget := ((hfiles _).found _ _).mpr ⟨_, hlast, rfl⟩
  have hmisfiled : Misfiled "http://a" q := misfiled_of_discover hq (by decide)
  exact ⟨p, q, hp, hq, claimed?_signedCall, ⟨i, hi⟩, hget, hmisfiled,
    hrefused _ _ _ hget hmisfiled [signedCall] signedCall claimed?_signedCall⟩

end TokenGate.Proofs.Auth.Misfiling
