import TokenGate.Proofs.Registry.Loading

/-! # Trust is relaxed on request only

The trust mode of a provider says which flags its configuration sets (`trustMode_eq_ok`), and the
settings of the default provider never set the flag for signatures, however they are overridden
(`trustMode_ne_insecure`). A provider of a loaded registry was made of a configuration and of the
document that was fetched for it, so it checks no less than was asked for (`trust_opted_in`). -/

namespace TokenGate.Proofs.Registry.Trust

open TokenGate.Http TokenGate.Load TokenGate.Proofs.Results
open TokenGate.Proofs.Registry.Discovery TokenGate.Proofs.Registry.Loaded
open TokenGate.Proofs.Registry.Loading

/-- A provider was made of a configuration, in its place among the configured ones, and of the
document that was fetched for it there. -/
structure MadeOf (client : Client) (net : Network) (a : AuthConfig) (c : ProviderConfig)
    (m : ProviderMetadata) (p : Provider) : Prop where
  fetched : ∃ before after, described a = before ++ c :: after ∧
    (Provider.discover client net (sent client net (options a) before) c (options a)).result =
      .ok p ∧
    Publishes client net (sent client net (options a) before) c.issuer m
  issuer : p.issuer = c.issuer
  audiences : p.audiences = c.audiences
  trustMode : c.trustMode = .ok p.trustMode
  strict : p.trustMode = .strict → m.issuer = p.issuer
  verifier : ∃ v, p.verifier = .keys v ∧ v.issuer = p.issuer ∧ v.trustMode = p.trustMode ∧
    c.jwksUri.or m.jwksUri = some v.keys.uri

/-- A provider under a key checks all that it was not explicitly configured to skip. -/
structure OptedIn (client : Client) (net : Network) (a : AuthConfig) (key : String)
    (p : Provider) : Prop where
  issuer : p.issuer = key
  issuer_ne : key ≠ ""
  web : ∃ u, Url.ofText key = .ok u ∧ u.isWeb = true
  audiences_ne : p.audiences ≠ []
  audience_ne : "" ∉ p.audiences
  madeOf : ∃ c m, MadeOf client net a c m p
  insecure : p.trustMode = .insecure → ∃ c ∈ a.providers, c.issuer = key ∧
    c.skipIssuerVerify = true ∧ c.skipSignatureVerify = true
  skipsIssuer : p.trustMode = .skipIssuerVerification →
    (∃ c ∈ a.providers, c.issuer = key ∧ c.skipIssuerVerify = true) ∨
      (a.defaultProvider.issuer = some key ∧ a.defaultProvider.skipIssuerVerify = true)

variable {client : Client} {net : Network} {earlier : List Exchange} {o : Provider.Options}
variable {a : AuthConfig} {c : ProviderConfig} {m : ProviderMetadata} {p : Provider}
variable {mode : TrustMode} {key : String}

/-! ### Flags -/

/-- **A trust mode says which flags are set.** -/
theorem trustMode_eq_ok : c.trustMode = .ok mode ↔
    c.skipIssuerVerify = mode.skipsIssuerCheck ∧ c.skipSignatureVerify = mode.skipsSignature := by
  unfold ProviderConfig.trustMode
  cases c.skipIssuerVerify <;> cases c.skipSignatureVerify <;> cases mode <;> decide

theorem trustMode_of_discover (h : (Provider.discover client net earlier c o).result = .ok p) :
    c.trustMode = .ok p.trustMode := by
  obtain ⟨mode, uri, hmode, -, rfl⟩ := built_of_discover h
  exact hmode

/-! ### The default provider -/

theorem of_toConfig {d : DefaultProvider} (h : d.toConfig = .ok (some c)) :
    d.issuer = some c.issuer ∧ d.skipIssuerVerify = c.skipIssuerVerify ∧
      c.skipSignatureVerify = false := by
  unfold DefaultProvider.toConfig at h
  cases hissuer : d.issuer with
  | none =>
    rw [hissuer] at h
    cases h
  | some issuer =>
    rw [hissuer] at h
    dsimp only at h
    split_ifs at h <;> cases h
    exact ⟨rfl, rfl, rfl⟩

/-- **The default provider checks signatures**, whatever its settings are. -/
theorem trustMode_ne_insecure {d : DefaultProvider} (hconfig : d.toConfig = .ok (some c))
    (h : (Provider.discover client net earlier c o).result = .ok p) : p.trustMode ≠ .insecure := by
  intro hmode
  have hflag := (trustMode_eq_ok.mp (trustMode_of_discover h)).2
  rw [(of_toConfig hconfig).2.2, hmode] at hflag
  cases hflag

theorem mem_described : c ∈ described a ↔
    a.defaultProvider.toConfig = .ok (some c) ∨ c ∈ a.providers := by
  unfold described
  cases hconfig : a.defaultProvider.toConfig with
  | error f => simp
  | ok c' => cases c' <;> simp [eq_comm]

/-! ### Providers and their configurations -/

/-- **A provider is made of the configuration that it was discovered for.** -/
theorem madeOf_of_discover {before after : List ProviderConfig}
    (hconfigs : described a = before ++ c :: after)
    (h : (Provider.discover client net (sent client net (options a) before) c (options a)).result =
      .ok p) : Usable c ∧ ∃ m, MadeOf client net a c m p := by
  obtain ⟨mode, m, uri, hmode, husable, hpublished, htolerated, huri, rfl⟩ := discover_eq_ok.mp h
  refine ⟨husable, m, ⟨before, after, hconfigs, h, hpublished⟩, rfl, rfl, hmode, ?_, _, rfl, rfl, rfl,
    huri⟩
  intro hstrict
  exact htolerated.resolve_right (not_not_intro hstrict)

/-- **Only explicit configurations skip signatures**, and they set both flags. -/
theorem insecure_opted_in (hc : c ∈ described a) (h : c.trustMode = .ok .insecure) :
    c ∈ a.providers ∧ c.skipIssuerVerify = true ∧ c.skipSignatureVerify = true := by
  obtain ⟨hissuer, hsignature⟩ := trustMode_eq_ok.mp h
  rcases mem_described.mp hc with hdefault | hc
  · rw [(of_toConfig hdefault).2.2] at hsignature
    cases hsignature
  · exact ⟨hc, hissuer, hsignature⟩

theorem skipsIssuer_opted_in (hc : c ∈ described a)
    (h : c.trustMode = .ok .skipIssuerVerification) :
    (c ∈ a.providers ∧ c.skipIssuerVerify = true) ∨
      (a.defaultProvider.issuer = some c.issuer ∧ a.defaultProvider.skipIssuerVerify = true) := by
  have hissuer : c.skipIssuerVerify = true := (trustMode_eq_ok.mp h).1
  rcases mem_described.mp hc with hdefault | hc
  · obtain ⟨hname, hskip, -⟩ := of_toConfig hdefault
    exact Or.inr ⟨hname, hskip.trans hissuer⟩
  · exact Or.inl ⟨hc, hissuer⟩

/-! ### Loaded registries -/

theorem optedIn_of_load {r : Registry} (hload : (loadProviders client net a).result = .ok r)
    (hp : r.get? key = some p) : OptedIn client net a key p := by
  obtain ⟨rfl, before, c, after, hconfigs, hresult⟩ := discover_of_load hload hp
  obtain ⟨husable, m, hmade⟩ := madeOf_of_discover hconfigs hresult
  have hc : c ∈ described a := by
    rw [hconfigs]
    exact List.mem_append_right _ List.mem_cons_self
  have hmode := hmade.trustMode
  exact
    { issuer := rfl
      issuer_ne := hmade.issuer ▸ husable.issuer_ne
      web := hmade.issuer ▸ husable.web
      audiences_ne := hmade.audiences ▸ husable.audiences_ne
      audience_ne := hmade.audiences ▸ husable.audience_ne
      madeOf := ⟨c, m, hmade⟩
      insecure := by
        intro h
        rw [h] at hmode
        obtain ⟨hmem, hflags⟩ := insecure_opted_in hc hmode
        exact ⟨c, hmem, hmade.issuer.symm, hflags⟩
      skipsIssuer := by
        intro h
        rw [h] at hmode
        rw [hmade.issuer]
        exact (skipsIssuer_opted_in hc hmode).imp_left fun ⟨hmem, hskip⟩ =>
          ⟨c, hmem, rfl, hskip⟩ }

/-- **Trust is relaxed on request only**: a provider of a loaded registry checks all that it was not
explicitly configured to skip, and the default provider always checks signatures. -/
theorem trust_opted_in (client : Client) (net : Network) (a : AuthConfig) :
    (∀ r, (loadProviders client net a).result = .ok r →
      ∀ key p, r.get? key = some p → OptedIn client net a key p) ∧
    ∀ (layers : List DefaultProvider) (c : ProviderConfig) (o : Provider.Options)
      (earlier : List Exchange) (p : Provider),
      (layers.foldl AuthConfig.override a).defaultProvider.toConfig = .ok (some c) →
        (Provider.discover client net earlier c o).result = .ok p → p.trustMode ≠ .insecure :=
  ⟨fun _ hload _ _ hp => optedIn_of_load hload hp,
    fun _ _ _ _ _ hconfig hp => trustMode_ne_insecure hconfig hp⟩

/-- The network on which every address answers with the document of an issuer. -/
def issuerNetwork : Network :=
  ⟨fun _ _ => .answered 200 none
    (Text.Utf8.encode "\x7b\"issuer\":\"http://a\",\"jwks_uri\":\"http://a/k\"\x7d")⟩

/-- The configuration with this issuer as the default provider and another one that skips all it
can. -/
def relaxedConfig : AuthConfig :=
  { AuthConfig.default with
    defaultProvider := ⟨some "http://a", some "x", none, false⟩
    providers := [⟨"http://b", ["x"], true, true, some "http://b/k"⟩] }

/-- Overrides that let the default provider skip what it can. -/
def relaxedLayer : DefaultProvider := ⟨none, none, some "y", true⟩

/-- One provider is strict and one insecure; overridden, the former only skips the issuer. -/
theorem trust_opted_in_relaxed :
    (∃ r p q, (loadProviders ⟨0⟩ issuerNetwork relaxedConfig).result = .ok r ∧
      r.get? "http://a" = some p ∧ p.trustMode = .strict ∧
      OptedIn ⟨0⟩ issuerNetwork relaxedConfig "http://a" p ∧
      r.get? "http://b" = some q ∧ q.trustMode = .insecure ∧
      OptedIn ⟨0⟩ issuerNetwork relaxedConfig "http://b" q) ∧
    ∃ c p, ([relaxedLayer].foldl AuthConfig.override relaxedConfig).defaultProvider.toConfig =
        .ok (some c) ∧
      (Provider.discover ⟨0⟩ issuerNetwork [] c .default).result = .ok p ∧
      p.trustMode = .skipIssuerVerification ∧ p.trustMode ≠ .insecure := by
  obtain ⟨hentries, hdefault⟩ := trust_opted_in ⟨0⟩ issuerNetwork relaxedConfig
  constructor
  · have hrun : ((loadProviders ⟨0⟩ issuerNetwork relaxedConfig).result.toOption.bind fun r =>
        (r.get? "http://a").bind fun p => (r.get? "http://b").map fun q =>
          decide (p.trustMode = .strict ∧ q.trustMode = .insecure)) = some true := by
      decide +kernel
    obtain ⟨r, hr, hrun⟩ := Option.bind_eq_some_iff.mp hrun
    obtain ⟨p, hp, hrun⟩ := Option.bind_eq_some_iff.mp hrun
    obtain ⟨q, hq, hmodes⟩ := Option.map_eq_some_iff.mp hrun
    rw [toOption_eq_some] at hr
    obtain ⟨hstrict, hinsecure⟩ := of_decide_eq_true hmodes
    exact ⟨r, p, q, hr, hp, hstrict, hentries r hr _ p hp, hq, hinsecure, hentries r hr _ q hq⟩
  · have hconfig : ([relaxedLayer].foldl AuthConfig.override relaxedConfig).defaultProvider.toConfig =
        .ok (some ⟨"http://a", ["x", "y"], true, false, none⟩) := by
      decide +kernel
    have hrun : ((Provider.discover ⟨0⟩ issuerNetwork [] ⟨"http://a", ["x", "y"], true, false, none⟩
        .default).result.toOption.map fun p =>
          decide (p.trustMode = .skipIssuerVerification)) = some true := by
      decide +kernel
    obtain ⟨p, hp, hmode⟩ := Option.map_eq_some_iff.mp hrun
    rw [toOption_eq_some] at hp
    exact ⟨_, p, hconfig, hp, of_decide_eq_true hmode, hdefault _ _ _ _ p hconfig hp⟩

end TokenGate.Proofs.Registry.Trust
