import TokenGate.Proofs.Auth.Groups
import TokenGate.Proofs.Auth.Soundness
import TokenGate.Proofs.Json.Members
import TokenGate.Proofs.Verify.Acceptance

/-! # Authentication is complete

A token whose payload says all that an identity needs, for the issuer under which a provider is
registered and for one of its audiences, at a time when it holds, is accepted after whatever history
(`authenticated_complete`). Nothing else that the payload says can keep it from that; and unless the
configuration leaves signatures unchecked, the token has to be signed with the key that is found for
it. -/

namespace TokenGate.Proofs.Auth.Completeness

open TokenGate.Json TokenGate.Http TokenGate.Token TokenGate.Load TokenGate.Proofs.Results
open TokenGate.Proofs.Json.Members TokenGate.Proofs.Json.Records TokenGate.Proofs.Json.Shapes
open TokenGate.Proofs.Json.Entries (increasing_of_value ofBytes_eq_ok)
open TokenGate.Proofs.Token.Segments TokenGate.Proofs.Token.Acceptance
open TokenGate.Proofs.Verify.Verdict TokenGate.Proofs.Verify.Agreement
open TokenGate.Proofs.Verify.Acceptance TokenGate.Proofs.Registry.History
open TokenGate.Proofs.Registry.Loaded TokenGate.Proofs.Registry.Provenance
open TokenGate.Proofs.Auth.Groups (resolve_of_hasDomain)
open TokenGate.Proofs.Auth.Identified TokenGate.Proofs.Auth.Soundness

/-! ### Principals -/

/-- A payload says of a principal what an identity has to know. -/
structure Describes (claims : Json) (q : Principal) (domain : String) : Prop where
  email : claims.get? "email" = some (.string q.email)
  address : HasDomain q.email domain
  groups : claims.get? "groups" = some (.strings q.groups)
  groups_ne : q.groups ≠ []
  exp : claims.get? "exp" = some (.int q.exp.toInt)

/-- **Claims that describe a principal are read as this principal.** -/
theorem shape_of_describes {ms : List (String × Json)} (hms : Increasing ms) {q : Principal}
    {domain : String} (h : Describes (.object ms) q domain) :
    Principal.shape (.object ms) = .ok q := by
  have hemail : lookup? "email" ms = some (.string q.email) := h.email
  have hgroups : lookup? "groups" ms = some (.strings q.groups) := h.groups
  have hexp : lookup? "exp" ms = some (.int q.exp.toInt) := h.exp
  obtain ⟨p, hp⟩ : ∃ p, Principal.shape (.object ms) = .ok p := by
    refine exists_shape _ _ hms ?_ ?_
    · simp only [Principal.fields, List.mem_cons, List.not_mem_nil, or_false, forall_eq_or_imp,
        forall_eq, name_needed, name_free, hemail, hgroups, hexp, Option.some.injEq]
      refine ⟨?_, ?_, ?_⟩
      · rintro w rfl a
        exact ⟨_, set_needed.mpr ⟨_, rfl, rfl⟩⟩
      · rintro w rfl a
        exact ⟨_, set_free.mpr ⟨_, list_strings _, rfl⟩⟩
      · rintro w rfl a
        exact ⟨_, set_needed.mpr ⟨_, int64_toInt _, rfl⟩⟩
    · simp [Principal.fields, hemail, hgroups, hexp]
  have hpemail := (shape_reads email_reads hms hp).1 _ hemail
  have hpgroups := (shape_reads groups_reads hms hp).1 _ hgroups
  have hpexp := (shape_reads exp_reads hms hp).1 _ hexp
  rw [list_strings] at hpgroups
  rw [int64_toInt] at hpexp
  obtain ⟨email, groups, exp⟩ := p
  cases hpemail
  cases hpgroups
  cases hpexp
  exact hp

/-- **Claims that describe a principal make its identity**, if the expiry is a time of the
calendar. -/
theorem identify_of_describes {ms : List (String × Json)} (hms : Increasing ms) {q : Principal}
    {domain : String} (h : Describes (.object ms) q domain) (hnonneg : 0 ≤ q.exp.toInt)
    (hle : q.exp.toInt ≤ Time.maxSeconds) :
    ∃ expiration : Time.Timestamp, expiration.seconds = q.exp.toInt ∧ expiration.nanos = 0 ∧
      Principal.identify (.object ms) =
        .ok (Identity.oidcUser ⟨q.email, qualify domain q.groups, q.exp⟩ expiration) := by
  have hlow : Time.minSeconds ≤ q.exp.toInt := le_trans (by decide) hnonneg
  have hrange : (Time.minSeconds ≤ q.exp.toInt ∧ q.exp.toInt ≤ Time.maxSeconds) ∧
      (0 < 1000000000 ∨ (q.exp.toInt % 60 = 59 ∧ 0 < 2000000000)) :=
    ⟨⟨hlow, hle⟩, Or.inl (by decide)⟩
  refine ⟨⟨q.exp.toInt, 0, hrange.1, hrange.2⟩, rfl, rfl, ?_⟩
  rw [Principal.identify, shape_of_describes hms h]
  dsimp only
  rw [Principal.identity, Time.Timestamp.ofUnix?, dif_pos hrange]
  dsimp only
  rw [resolve_of_hasDomain h.address, if_neg h.groups_ne]
  rfl

/-! ### One call -/

variable {client : Client} {net : Network} {a : AuthConfig} {r : Registry} {call : Call}

/-- **A call gives the identity of the claims that its verifier hands on without delay.** -/
theorem result_of_handsOn {peek : Peek} {p : Provider} {audience : String} {claims : Json}
    {i : Identity} (hpeek : Peek.ofToken call.token = .ok peek) (hp : r.get? peek.issuer = some p)
    (haudience : p.matchAudience peek.audience = some audience)
    (hverify : HandsOn (p.verifier.verify call.clock call.net call.token audience).1 claims)
    (hi : Principal.identify claims = .ok i) :
    (call.run r).result = .ok (i.withToken call.token) := by
  obtain ⟨hverdict, hdelay⟩ := hverify
  have hintime : Authentication.inTime call.limit (.after 0) = true := rfl
  rw [Call.run, Registry.authenticate, hpeek]
  dsimp only
  rw [hp]
  dsimp only
  rw [haudience]
  dsimp only [Authentication.ask]
  rw [hverdict, hdelay, if_pos hintime]
  dsimp only [Except.mapError, Except.bind]
  rw [hi]
  rfl

/-- A provider matches a name of an audience that meets its own. -/
theorem exists_matchAudience {p : Provider} {names : List String}
    (h : ∃ name ∈ p.audiences, name ∈ names) :
    ∃ name, p.matchAudience names = some name ∧ name ∈ names := by
  obtain ⟨name, hname, hmem⟩ := h
  have hsome : (p.audiences.find? names.contains).isSome := by
    rw [List.find?_isSome]
    exact ⟨name, hname, by simpa using hmem⟩
  obtain ⟨found, hfound⟩ := Option.isSome_iff_exists.mp hsome
  exact ⟨found, hfound, by simpa using List.find?_some hfound⟩

theorem issuer_ne_of_keysAt {c : ProviderConfig} {mode : TrustMode} {uri : String}
    (h : KeysAt client net c mode uri) : c.issuer ≠ "" := by
  intro hempty
  obtain ⟨earlier, m, hm, -⟩ := h
  have htarget : target (ProviderMetadata.discoveryUrl "") = .error .builder := by decide +kernel
  rw [hempty, ProviderMetadata.discover, Client.get, htarget] at hm
  cases hm

/-! ### Completeness -/

/-- A payload says all that an identity needs, for an issuer with some audiences and at a time: it
has registered claims that hold and meet the audiences, and it describes a principal. -/
structure Suffices (claims : Json) (issuer : String) (audiences : List String) (leeway : ℕ) (now : ℤ)
    (q : Principal) (domain : String) : Prop where
  registered : ∃ names, Registered claims issuer names leeway now q.exp.toInt ∧
    ∃ name ∈ audiences, name ∈ names
  described : Describes claims q domain
  exp_le : q.exp.toInt ≤ Time.maxSeconds

/-- **Completeness.** Whatever is configured and however the network answers, after any history of a
loaded registry and at any time of the calendar that is not less than the tolerance: a token whose
payload suffices for the provider under its issuer makes the identity of the principal that the
payload describes. Unless signatures go unchecked, it has to be signed with the key that is found
for it at that time. -/
theorem authenticated_complete (client : Client) (net : Network) (a : AuthConfig) (r : Registry)
    (hload : (loadProviders client net a).result = .ok r) (history : List Call) (call : Call)
    (issuer : String) (p : Provider) (hp : (after r history).get? issuer = some p)
    (now : Time.Timestamp) (hnow : call.clock.wall.toInt = now.seconds)
    (hleeway : a.leeway.toNat ≤ now.seconds) (bytes : List UInt8) (claims : Json)
    (hpayload : HasPayload call.token bytes) (hobject : IsObject bytes claims) (q : Principal)
    (domain : String)
    (hclaims : Suffices claims issuer p.audiences a.leeway.toNat now.seconds q domain)
    (hsigned : p.trustMode ≠ .insecure → ∃ v c hd key, p.verifier = .keys v ∧
      SignedWith call.token c hd key ∧
      (v.keys.lookup call.clock.steady call.net hd.kid).result = .ok key) :
    ∃ expiration : Time.Timestamp, expiration.seconds = q.exp.toInt ∧ expiration.nanos = 0 ∧
      (call.run (after r history)).result =
        .ok ((Identity.oidcUser ⟨q.email, qualify domain q.groups, q.exp⟩ expiration).withToken
          call.token) := by
  obtain ⟨c, -, rfl, mode, uri, cached, -, huri, rfl, -⟩ := originates_after hload history _ _ hp
  obtain ⟨names, hregistered, hmeets⟩ := hclaims.registered
  -- The payload is routed to the provider, which matches a name of the audience.
  have hbytes := payloadBytes?_of_hasPayload hpayload
  obtain ⟨name, hmatch, hname⟩ := exists_matchAudience hmeets
  have hpeek : Peek.ofToken call.token = .ok ⟨c.issuer, names⟩ :=
    ofToken_of_object hbytes hobject hregistered.issuer hregistered.audience
      (issuer_ne_of_keysAt huri) (List.ne_nil_of_mem hname)
  -- Its verifier hands on the value of the payload, which describes the principal.
  have hverify : HandsOn ((keyVerifier client (options a) c mode uri cached).verify call.clock
      call.net call.token name).1 claims := by
    rw [← hnow] at hregistered hleeway
    refine verify_of_registered hbytes hobject hregistered hname hleeway
      (hnow ▸ now.in_range.2) hclaims.exp_le fun hm => ?_
    obtain ⟨v, parts, hd, key, hv, hsigned, hkey⟩ := hsigned hm
    cases hv
    exact ⟨parts, hd, key, hsigned, hkey⟩
  obtain ⟨ms, rfl⟩ := object_of_get? hregistered.issuer
  have hms := increasing_of_value (ofBytes_eq_ok.mp hobject.value).1
  obtain ⟨expiration, hseconds, hnanos, hidentify⟩ :=
    identify_of_describes hms hclaims.described hregistered.exp_nonneg hclaims.exp_le
  exact ⟨expiration, hseconds, hnanos, result_of_handsOn hpeek hp hmatch hverify hidentify⟩

/-! ### A signed token -/

/-- The payload of the signed token, which expires in a hundred seconds. -/
def signedPayload : List UInt8 :=
  Text.Utf8.encode ("\x7b\"iss\":\"http://a\",\"aud\":\"x\",\"email\":\"u@d\",\"groups\":[\"g\"],"
    ++ "\"exp\":1700000100\x7d")

theorem suffices_signedPayload : ∃ claims, IsObject signedPayload claims ∧
    Suffices claims "http://a" ["x"] 60 1700000000 ⟨"u@d", ["g"], 1700000100⟩ "d" := by
  have hread : ((Json.ofBytes signedPayload).toOption.map fun v => decide
      ((v.get? "iss").bind Json.asString? = some "http://a" ∧
        (v.get? "aud").bind Json.asString? = some "x" ∧
        (v.get? "email").bind Json.asString? = some "u@d" ∧
        ((v.get? "groups").bind fun w => (Shape.list Shape.string w).toOption) = some ["g"] ∧
        (v.get? "exp").bind Json.asInt64? = some 1700000100 ∧
        (v.get? "nbf").isNone ∧ (v.get? "sub").isNone)) = some true := by
    decide +kernel
  have hnames : HasDistinctNames (Document.ofBytes signedPayload).root := by decide +kernel
  obtain ⟨claims, hvalue, hread⟩ := Option.map_eq_some_iff.mp hread
  obtain ⟨hiss, haud, hemail, hgroups, hexp, hnbf, hsub⟩ := of_decide_eq_true hread
  obtain ⟨iss, hiss, hissuer⟩ := Option.bind_eq_some_iff.mp hiss
  obtain ⟨aud, haud, haudience⟩ := Option.bind_eq_some_iff.mp haud
  obtain ⟨email, hemail, haddress⟩ := Option.bind_eq_some_iff.mp hemail
  obtain ⟨groups, hgroups, hlist⟩ := Option.bind_eq_some_iff.mp hgroups
  obtain ⟨exp, hexp, hexpiry⟩ := Option.bind_eq_some_iff.mp hexp
  obtain rfl := eq_string_of_asString? hissuer
  obtain rfl := eq_string_of_asString? haudience
  obtain rfl := eq_string_of_asString? haddress
  obtain rfl := eq_strings_of_shape (toOption_eq_some.mp hlist)
  obtain rfl := eq_int_of_asInt64? hexpiry
  have hregistered : Registered claims "http://a" ["x"] 60 1700000000 1700000100 := {
    issuer := hiss
    audience := by rw [haud]; rfl
    expiry := hexp
    exp_nonneg := by decide
    not_expired := by decide
    start := fun w hw => by simp [hw] at hnbf
    subject := fun w hw => by simp [hw] at hsub }
  have hdescribed : Describes claims ⟨"u@d", ["g"], 1700000100⟩ "d" := {
    email := hemail
    address := ⟨['u'], by decide, by decide, by decide, by decide⟩
    groups := hgroups
    groups_ne := List.cons_ne_nil _ _
    exp := hexp }
  exact ⟨claims, ⟨toOption_eq_some.mp hvalue, hnames⟩,
    ⟨["x"], hregistered, "x", List.mem_cons_self, List.mem_cons_self⟩, hdescribed, by decide⟩

/-- It is accepted after an unsigned token. -/
theorem authenticated_complete_signed : ∃ r p claims expiration,
    (loadProviders ⟨0⟩ documentNetwork checkedAndUnchecked).result = .ok r ∧
    (after r [unsignedCall]).get? "http://a" = some p ∧ p.trustMode = .strict ∧
    signedCall.clock.wall.toInt = 1700000000 ∧ checkedAndUnchecked.leeway.toNat ≤ 1700000000 ∧
    HasPayload signedCall.token signedPayload ∧ IsObject signedPayload claims ∧
    Suffices claims "http://a" p.audiences checkedAndUnchecked.leeway.toNat 1700000000
      ⟨"u@d", ["g"], 1700000100⟩ "d" ∧
    (∃ v c hd key, p.verifier = .keys v ∧ SignedWith signedCall.token c hd key ∧
      (v.keys.lookup signedCall.clock.steady signedCall.net hd.kid).result = .ok key) ∧
    Time.Timestamp.seconds expiration = 1700000100 ∧
    (signedCall.run (after r [unsignedCall])).result =
      .ok ((Identity.oidcUser ⟨"u@d", ["g@d"], 1700000100⟩ expiration).withToken
        signedCall.token) := by
  have hrun : ((loadProviders ⟨0⟩ documentNetwork checkedAndUnchecked).result.toOption.bind fun r =>
      ((after r [unsignedCall]).get? "http://a").bind fun p =>
        (signedCall.run (after r [unsignedCall])).result.toOption.map fun _ =>
          decide (p.trustMode = .strict ∧ p.audiences = ["x"])) = some true := by
    decide +kernel
  have hpayload : payloadBytes? signedCall.token = some signedPayload := by decide +kernel
  obtain ⟨r, hr, hrun⟩ := Option.bind_eq_some_iff.mp hrun
  obtain ⟨p, hp, hrun⟩ := Option.bind_eq_some_iff.mp hrun
  obtain ⟨i, hi, hrun⟩ := Option.map_eq_some_iff.mp hrun
  obtain ⟨hmode, haudiences⟩ := of_decide_eq_true hrun
  rw [toOption_eq_some] at hr hi
  obtain ⟨claims, hobject, hclaims⟩ := suffices_signedPayload
  rw [← haudiences] at hclaims
  -- What the token went through says that it is signed with the key that is found.
  have hsigned : ∃ v c hd key, p.verifier = .keys v ∧ SignedWith signedCall.token c hd key ∧
      (v.keys.lookup signedCall.clock.steady signedCall.net hd.kid).result = .ok key := by
    obtain ⟨peek, hpeek, c, -, hissuer, mode, uri, cached, audience, claims, j, -, -, -, hp', -,
      hverdict, -⟩ := verdict_of_run hr hi
    have hkey : c.issuer = "http://a" := by
      rw [hissuer]
      exact Option.some.inj
        ((claimed?_eq_some.mpr ⟨peek, hpeek, rfl⟩).symm.trans claimed?_signedCall)
    rw [hkey, hp] at hp'
    cases hp'
    have hm : mode ≠ .insecure := fun h => by cases h.symm.trans hmode
    obtain ⟨parts, hd, key, -, -, hsigned, hlookup, -⟩ := signed_of_verdict hm hverdict
    exact ⟨_, parts, hd, key, rfl, hsigned, hlookup⟩
  have hnow : signedCall.clock.wall.toInt = 1700000000 := by decide
  have hleeway : checkedAndUnchecked.leeway.toNat ≤ 1700000000 := by decide
  have hpayload := hasPayload_of_payloadBytes? hpayload
  obtain ⟨expiration, hseconds, -, hresult⟩ := authenticated_complete _ _ _ _ hr _ _ _ _ hp
    ⟨1700000000, 0, by decide, by decide⟩ hnow (by decide) _ _ hpayload hobject _ _ hclaims
    fun _ => hsigned
  exact ⟨r, p, claims, expiration, hr, hp, hmode, hnow, hleeway, hpayload, hobject, hclaims, hsigned,
    hseconds, hresult⟩

end TokenGate.Proofs.Auth.Completeness
