import TokenGate.Proofs.Auth.Groups
import TokenGate.Proofs.Auth.Soundness

/-! # Principals of different issuers

What an identity says of its principal does not name the issuer that vouched for it. So a token of
one issuer can make an identity that says the same as that of a token of another, whatever their
trust modes are (`not_forall_issuers_distinguished`). It does so exactly if the payloads agree in
email address, groups and expiry, and only the token tells the identities apart
(`alike_iff_payloads_agree`). -/

namespace TokenGate.Proofs.Auth.Impersonation

open TokenGate.Json TokenGate.Http TokenGate.Token TokenGate.Load TokenGate.Proofs.Token.Segments
open TokenGate.Proofs.Registry.History TokenGate.Proofs.Auth.Identified
open TokenGate.Proofs.Auth.Groups (hasDomain_unique)
open TokenGate.Proofs.Auth.Soundness

/-- Two identities say the same, whatever tokens they carry. -/
def Alike (i i' : Identity) : Prop := i.kind = i'.kind ∧ i.auth = i'.auth ∧ i.user = i'.user

theorem alike_withToken {i i' : Identity} {token token' : String} :
    Alike (i.withToken token) (i'.withToken token') ↔ Alike i i' := Iff.rfl

theorem claimed?_signedCall_ne : claimed? signedCall.token ≠ claimed? unsignedCall.token := by
  decide +kernel

/-- **Issuers are not told apart.** A token of an issuer whose signatures go unchecked makes an
identity that says the same as one of an issuer whose signatures are checked. -/
theorem not_forall_issuers_distinguished : ¬ ∀ (client : Client) (net : Network) (a : AuthConfig)
    (r : Registry) (c c' : Call) (i i' : Identity),
    (loadProviders client net a).result = .ok r → claimed? c.token ≠ claimed? c'.token →
      (c.run r).result = .ok i → (c'.run r).result = .ok i' → ¬ Alike i i' := by
  intro h
  obtain ⟨r, i, i', hr, hi, hi', halike⟩ := run_signedCall_unsignedCall
  exact h _ _ _ r signedCall unsignedCall i i' hr claimed?_signedCall_ne hi hi' halike

/-! ### What claims determine -/

theorem qualify_injective {domain : String} {groups groups' : List String}
    (h : qualify domain groups = qualify domain groups') : groups = groups' := by
  refine List.map_injective_iff.mpr ?_ h
  intro g g' hg
  rwa [String.append_left_inj, String.append_left_inj] at hg

theorem strings_injective {ss ss' : List String} (h : Json.strings ss = Json.strings ss') :
    ss = ss' := by
  refine List.map_injective_iff.mpr ?_ (Json.array.inj h)
  intro s s' hs
  exact Json.string.inj hs

/-- **Identities say the same exactly if their claims do**, in email address, groups and expiry. -/
theorem alike_of_identifies {claims claims' : Json} {p p' : Principal} {domain domain' : String}
    {i i' : Identity} (h : Identifies claims p domain i) (h' : Identifies claims' p' domain' i') :
    Alike i i' ↔ claims.get? "email" = claims'.get? "email" ∧
      claims.get? "groups" = claims'.get? "groups" ∧ claims.get? "exp" = claims'.get? "exp" := by
  rw [h.email, h'.email, h.groups, h'.groups, h.exp, h'.exp]
  obtain ⟨expiration, hexpiration, rfl⟩ := h.identity
  obtain ⟨expiration', hexpiration', rfl⟩ := h'.identity
  constructor
  · -- The domain is a part of the address, so it can be taken off the groups again.
    rintro ⟨-, -, huser⟩
    obtain ⟨hemail, hgroups, hexp⟩ := User.mk.inj (Option.some.inj huser)
    have hdomain : domain = domain' := hasDomain_unique h.address (hemail ▸ h'.address)
    rw [hdomain] at hgroups
    rw [hemail, qualify_injective hgroups, hexp]
    exact ⟨rfl, rfl, rfl⟩
  · rintro ⟨hemail, hgroups, hexp⟩
    have hemail : p.email = p'.email := Json.string.inj (Option.some.inj hemail)
    have hgroups : p.groups = p'.groups := strings_injective (Option.some.inj hgroups)
    have hexp : p.exp = p'.exp := by
      have := Option.some.inj hexp
      exact Int64.toInt_inj.mp (Json.Number.int.inj (Json.number.inj this))
    have hdomain : domain = domain' := hasDomain_unique h.address (hemail ▸ h'.address)
    rw [hexp, hexpiration'] at hexpiration
    cases hexpiration
    rw [hemail, hgroups, hexp, hdomain]
    exact ⟨rfl, rfl, rfl⟩

theorem ne_of_claimed?_ne {token token' : String} {i i' : Identity}
    (h : claimed? token ≠ claimed? token') : i.withToken token ≠ i'.withToken token' := by
  intro hi
  have htoken : some token = some token' := congrArg Identity.token hi
  exact h (congrArg claimed? (Option.some.inj htoken))

/-- **What two issuers can make alike.** Two identities that come from a loaded registry for tokens
of different issuers, at whatever times and after whatever histories, say the same exactly if the
payloads of the tokens agree in email address, groups and expiry: the issuers and their trust modes
leave no trace there. The identities differ all the same, by the tokens that they carry, and so do
the issuers that are reported beside them. -/
theorem alike_iff_payloads_agree (client : Client) (net : Network) (a : AuthConfig) (r : Registry)
    (hload : (loadProviders client net a).result = .ok r) (history history' : List Call)
    (c c' : Call) (i i' : Identity) (hissuers : claimed? c.token ≠ claimed? c'.token)
    (h : (c.run (after r history)).result = .ok i)
    (h' : (c'.run (after r history')).result = .ok i') :
    ∃ claims claims', (∃ bytes, HasPayload c.token bytes ∧ Json.ofBytes bytes = .ok claims) ∧
      (∃ bytes, HasPayload c'.token bytes ∧ Json.ofBytes bytes = .ok claims') ∧
      (Alike i i' ↔ claims.get? "email" = claims'.get? "email" ∧
        claims.get? "groups" = claims'.get? "groups" ∧ claims.get? "exp" = claims'.get? "exp") ∧
      i ≠ i' ∧ (c.run (after r history)).issuer ≠ (c'.run (after r history')).issuer := by
  obtain ⟨_, _, _, _, _, claims, _, _, _, hgrounds⟩ := grounds_of_run hload h
  obtain ⟨_, _, _, _, _, claims', _, _, _, hgrounds'⟩ := grounds_of_run hload h'
  obtain ⟨p, domain, j, hp, rfl⟩ := hgrounds.principal
  obtain ⟨p', domain', j', hp', rfl⟩ := hgrounds'.principal
  exact ⟨claims, claims', hgrounds.payload, hgrounds'.payload,
    alike_withToken.trans (alike_of_identifies hp hp'), ne_of_claimed?_ne hissuers,
    by rwa [issuer_run, issuer_run]⟩

theorem alike_iff_payloads_agree_signed_unsigned : ∃ r i i',
    (loadProviders ⟨0⟩ documentNetwork checkedAndUnchecked).result = .ok r ∧
    claimed? signedCall.token ≠ claimed? unsignedCall.token ∧
    (signedCall.run (after r [])).result = .ok i ∧
    (unsignedCall.run (after r [])).result = .ok i' ∧
    ∃ claims claims',
      (∃ bytes, HasPayload signedCall.token bytes ∧ Json.ofBytes bytes = .ok claims) ∧
      (∃ bytes, HasPayload unsignedCall.token bytes ∧ Json.ofBytes bytes = .ok claims') ∧
      (Alike i i' ↔ claims.get? "email" = claims'.get? "email" ∧
        claims.get? "groups" = claims'.get? "groups" ∧ claims.get? "exp" = claims'.get? "exp") ∧
      i ≠ i' ∧ (signedCall.run (after r [])).issuer ≠ (unsignedCall.run (after r [])).issuer := by
  obtain ⟨r, i, i', hr, hi, hi', -⟩ := run_signedCall_unsignedCall
  exact ⟨r, i, i', hr, claimed?_signedCall_ne, hi, hi',
    alike_iff_payloads_agree _ _ _ _ hr [] [] _ _ _ _ claimed?_signedCall_ne hi hi'⟩

end TokenGate.Proofs.Auth.Impersonation
