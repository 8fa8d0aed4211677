import TokenGate.Proofs.Http.Fetch
import TokenGate.Provider.Registry
import Mathlib.Tactic.SplitIfs

/-! # Providers that are discovered and loaded

A provider is what its configuration and the document of its issuer say (`discover_eq_ok`), and a
loaded registry has it under its issuer (`get?_load_congr`). -/

/-! ## Providers that are discovered

A provider is discovered exactly if its configuration is usable and its issuer publishes a document
that is tolerated and leaves no doubt where the keys are; the provider is then what its
configuration says (`discover_eq_ok`). One request is sent for it at most, to the place of the
document, and it is followed where it is redirected (`exchanges_discover`). -/

namespace TokenGate.Proofs.Registry.Discovery

open TokenGate.Http TokenGate.Proofs.Results TokenGate.Proofs.Http.Fetch

/-- An issuer publishes a document, as the network answers after some exchanges. -/
def Publishes (client : Client) (net : Network) (earlier : List Exchange) (issuer : String)
    (m : ProviderMetadata) : Prop :=
  ∃ answer, (client.get net earlier (ProviderMetadata.discoveryUrl issuer)).result = .ok answer ∧
    ProviderMetadata.ofAnswer issuer answer = .ok m

/-- A document may speak for an issuer: it names the issuer, or the trust mode tolerates another. -/
def Tolerated (m : ProviderMetadata) (issuer : String) (mode : TrustMode) : Prop :=
  m.issuer = issuer ∨ mode ≠ .strict

/-- A configuration names an issuer on the web and audiences, none of them empty. -/
structure Usable (c : ProviderConfig) : Prop where
  issuer_ne : c.issuer ≠ ""
  web : ∃ u, Url.ofText c.issuer = .ok u ∧ u.isWeb = true
  audiences_ne : c.audiences ≠ []
  audience_ne : "" ∉ c.audiences

variable {client : Client} {net : Network} {earlier : List Exchange} {c : ProviderConfig}
variable {o : Provider.Options} {p : Provider} {mode : TrustMode} {m : ProviderMetadata}

/-! ### The configuration -/

theorem validateIssuer_eq_ok {issuer : String} : Provider.validateIssuer issuer = .ok () ↔
    issuer ≠ "" ∧ ∃ u, Url.ofText issuer = .ok u ∧ u.isWeb = true := by
  unfold Provider.validateIssuer
  split_ifs with hempty
  · simp [hempty]
  · cases hu : Url.ofText issuer with
    | error f => simp
    | ok u => simp [hempty]

theorem precheck_eq_ok : Provider.precheck c = .ok mode ↔
    c.trustMode = .ok mode ∧ Provider.validateIssuer c.issuer = .ok () ∧ c.audiences ≠ [] := by
  unfold Provider.precheck
  simp only [bind_eq_ok]
  constructor
  · rintro ⟨mode', hmode, _, hissuer, h⟩
    split_ifs at h with hempty
    cases h
    exact ⟨hmode, hissuer, hempty⟩
  · rintro ⟨hmode, hissuer, hempty⟩
    exact ⟨mode, hmode, (), hissuer, by rw [if_neg hempty]; rfl⟩

theorem validate_eq_ok {issuer : String} {audiences : List String} :
    Provider.validate issuer audiences = .ok () ↔
      issuer ≠ "" ∧ audiences ≠ [] ∧ "" ∉ audiences := by
  unfold Provider.validate
  split_ifs with hissuer haudiences
  · simp [hissuer]
  · rcases haudiences with h | h <;> simp [h]
  · exact ⟨fun _ => ⟨hissuer, not_or.mp haudiences⟩, fun _ => rfl⟩

theorem make_eq_ok {issuer : String} {audiences : List String} {verifier : Verifier} :
    Provider.make issuer audiences mode verifier = .ok p ↔
      Provider.validate issuer audiences = .ok () ∧ p = ⟨issuer, audiences, mode, verifier⟩ := by
  unfold Provider.make
  simp only [bind_eq_ok, pure_eq_ok]
  constructor
  · rintro ⟨_, hvalid, hp⟩
    exact ⟨hvalid, hp.symm⟩
  · rintro ⟨hvalid, hp⟩
    exact ⟨(), hvalid, hp.symm⟩

theorem usable_iff : Usable c ↔ Provider.validateIssuer c.issuer = .ok () ∧ c.audiences ≠ [] ∧
    Provider.validate c.issuer c.audiences = .ok () := by
  rw [validateIssuer_eq_ok, validate_eq_ok]
  constructor
  · rintro ⟨hissuer, hweb, hne, hmem⟩
    exact ⟨⟨hissuer, hweb⟩, hne, hissuer, hne, hmem⟩
  · rintro ⟨⟨hissuer, hweb⟩, hne, -, -, hmem⟩
    exact ⟨hissuer, hweb, hne, hmem⟩

/-! ### The document -/

theorem checkIssuer_isOk {issuer : String} :
    (∃ events, m.checkIssuer issuer mode = .ok events) ↔ Tolerated m issuer mode := by
  unfold ProviderMetadata.checkIssuer Tolerated TrustMode.skipsIssuerCheck
  by_cases hissuer : m.issuer = issuer
  · simp [hissuer]
  · by_cases hmode : mode = .strict <;> simp [hissuer, hmode]

/-- **A document is accepted** if it is published and tolerated. -/
theorem metadata_eq_ok {issuer : String} :
    (ProviderMetadata.discover client net earlier issuer mode).result = .ok m ↔
      Publishes client net earlier issuer m ∧ Tolerated m issuer mode := by
  unfold ProviderMetadata.discover Publishes
  rw [← checkIssuer_isOk]
  dsimp only
  cases hget : (client.get net earlier (ProviderMetadata.discoveryUrl issuer)).result with
  | error e => simp
  | ok answer =>
    dsimp only
    cases hm : ProviderMetadata.ofAnswer issuer answer with
    | error e => simp [hm]
    | ok m' =>
      dsimp only
      cases hcheck : m'.checkIssuer issuer mode with
      | error e =>
        simp only [reduceCtorEq, Except.ok.injEq, exists_eq_left', hm, false_iff, not_and,
          not_exists]
        rintro rfl events h
        rw [hcheck] at h
        cases h
      | ok events =>
        simp only [Except.ok.injEq, exists_eq_left', hm]
        constructor
        · rintro rfl
          exact ⟨rfl, events, hcheck⟩
        · exact And.left

theorem exchanges_metadata (client : Client) (net : Network) (earlier : List Exchange)
    (issuer : String) (mode : TrustMode) :
    (ProviderMetadata.discover client net earlier issuer mode).exchanges =
      (client.get net earlier (ProviderMetadata.discoveryUrl issuer)).exchanges := by
  unfold ProviderMetadata.discover
  dsimp only
  cases (client.get net earlier (ProviderMetadata.discoveryUrl issuer)).result with
  | error e => dsimp only
  | ok answer =>
    dsimp only
    cases ProviderMetadata.ofAnswer issuer answer with
    | error e => dsimp only
    | ok m =>
      dsimp only
      cases m.checkIssuer issuer mode <;> dsimp only

/-! ### The provider -/

theorem discover_of_precheck_error {f : ProviderFault} (h : Provider.precheck c = .error f) :
    Provider.discover client net earlier c o = ⟨.error f, [], []⟩ := by
  unfold Provider.discover
  rw [h]

/-- After the checks of the configuration, the document decides and is what is asked for. -/
theorem discover_of_precheck (h : Provider.precheck c = .ok mode) :
    (Provider.discover client net earlier c o).result =
        (ProviderMetadata.discover client net earlier c.issuer mode).result.bind
          (Provider.assemble client c o mode) ∧
      (Provider.discover client net earlier c o).exchanges =
        (client.get net earlier (ProviderMetadata.discoveryUrl c.issuer)).exchanges := by
  unfold Provider.discover
  rw [h]
  dsimp only
  rw [← exchanges_metadata client net earlier c.issuer mode]
  cases (ProviderMetadata.discover client net earlier c.issuer mode).result.bind
    (Provider.assemble client c o mode) <;> constructor <;> dsimp only

theorem assemble_eq_ok : Provider.assemble client c o mode m = .ok p ↔
    ∃ uri, c.jwksUri.or m.jwksUri = some uri ∧ Provider.validate c.issuer c.audiences = .ok () ∧
      p = ⟨c.issuer, c.audiences, mode, .keys ⟨c.issuer, mode, o.leeway,
        .empty client uri (o.cacheTtl.toNat * 1000) (o.minRefresh.toNat * 1000)⟩⟩ := by
  unfold Provider.assemble
  cases c.jwksUri.or m.jwksUri with
  | none => simp
  | some uri => simp [make_eq_ok]

/-- **What is discovered and when**: a usable configuration whose document is published and
tolerated, and says where the keys are unless the configuration does, gives the provider that it
describes. -/
theorem discover_eq_ok : (Provider.discover client net earlier c o).result = .ok p ↔
    ∃ mode m uri, c.trustMode = .ok mode ∧ Usable c ∧ Publishes client net earlier c.issuer m ∧
      Tolerated m c.issuer mode ∧ c.jwksUri.or m.jwksUri = some uri ∧
      p = ⟨c.issuer, c.audiences, mode, .keys ⟨c.issuer, mode, o.leeway,
        .empty client uri (o.cacheTtl.toNat * 1000) (o.minRefresh.toNat * 1000)⟩⟩ := by
  constructor
  · intro h
    cases hpre : Provider.precheck c with
    | error f =>
      rw [discover_of_precheck_error hpre] at h
      cases h
    | ok mode =>
      obtain ⟨hmode, hissuer, hne⟩ := precheck_eq_ok.mp hpre
      rw [(discover_of_precheck hpre).1] at h
      obtain ⟨m, hm, hp⟩ := except_bind_eq_ok.mp h
      obtain ⟨hpublished, htolerated⟩ := metadata_eq_ok.mp hm
      obtain ⟨uri, huri, hvalid, hp⟩ := assemble_eq_ok.mp hp
      exact ⟨mode, m, uri, hmode, usable_iff.mpr ⟨hissuer, hne, hvalid⟩, hpublished, htolerated,
        huri, hp⟩
  · rintro ⟨mode, m, uri, hmode, husable, hpublished, htolerated, huri, hp⟩
    obtain ⟨hissuer, hne, hvalid⟩ := usable_iff.mp husable
    rw [(discover_of_precheck (precheck_eq_ok.mpr ⟨hmode, hissuer, hne⟩)).1, except_bind_eq_ok]
    exact ⟨m, metadata_eq_ok.mpr ⟨hpublished, htolerated⟩,
      assemble_eq_ok.mpr ⟨uri, huri, hvalid, hp⟩⟩

/-- **Discovery sends one request at most**, to the place of the document, and follows it. -/
theorem exchanges_discover (client : Client) (net : Network) (earlier : List Exchange)
    (c : ProviderConfig) (o : Provider.Options) :
    (Provider.discover client net earlier c o).exchanges = [] ∨
      ∃ u, target (ProviderMetadata.discoveryUrl c.issuer) = .ok u ∧
        Trail net earlier u (Provider.discover client net earlier c o).exchanges := by
  cases hpre : Provider.precheck c with
  | error f => exact Or.inl (by rw [discover_of_precheck_error hpre])
  | ok mode =>
    rw [(discover_of_precheck hpre).2]
    cases hu : target (ProviderMetadata.discoveryUrl c.issuer) with
    | error f => exact Or.inl (by rw [get_of_target_error hu])
    | ok u => exact Or.inr ⟨u, rfl, trail_get client hu⟩

end TokenGate.Proofs.Registry.Discovery

/-! ## Registries that were loaded

A provider that is discovered is built of its configuration (`built_of_discover`), and a step of
loading registers it under its issuer (`registry_next`). What a loaded registry has under a key
depends on the configurations with that issuer alone (`get?_load_congr`). -/

namespace TokenGate.Proofs.Registry.Loaded

open TokenGate.Http TokenGate.Load
open TokenGate.Proofs.Http.Fetch (get_congr)
open TokenGate.Proofs.Registry.Discovery

/-- The verifier of a configuration whose keys are at an address, with some keys in its cache. -/
def keyVerifier (client : Client) (o : Provider.Options) (c : ProviderConfig) (mode : TrustMode)
    (uri : String) (cached : Option Key.CachedSet) : KeyVerifier :=
  ⟨c.issuer, mode, o.leeway,
    ⟨uri, client, o.cacheTtl.toNat * 1000, o.minRefresh.toNat * 1000, cached⟩⟩

/-- The provider of a configuration with this verifier. -/
def built (client : Client) (o : Provider.Options) (c : ProviderConfig) (mode : TrustMode)
    (uri : String) (cached : Option Key.CachedSet) : Provider :=
  ⟨c.issuer, c.audiences, mode, .keys (keyVerifier client o c mode uri cached)⟩

theorem verify_built (client : Client) (o : Provider.Options) (c : ProviderConfig)
    (mode : TrustMode) (uri : String) (cached : Option Key.CachedSet) (clock : Clock)
    (net : Network) (token audience : String) :
    (built client o c mode uri cached).verifier.verify clock net token audience =
      (((keyVerifier client o c mode uri cached).verify clock net token audience).1,
        .keys ((keyVerifier client o c mode uri cached).verify clock net token audience).2) := rfl

/-- The keys of a configuration are at an address: the configured one, or else the one that the
document of the issuer names. -/
def KeysAt (client : Client) (net : Network) (c : ProviderConfig) (mode : TrustMode)
    (uri : String) : Prop :=
  ∃ earlier m, (ProviderMetadata.discover client net earlier c.issuer mode).result = .ok m ∧
    c.jwksUri.or m.jwksUri = some uri

variable {client : Client} {net : Network} {earlier : List Exchange} {c : ProviderConfig}
variable {o : Provider.Options} {p : Provider} {key : String}

/-! ### One provider -/

/-- **What a provider that is discovered looks like.** -/
theorem built_of_discover (h : (Provider.discover client net earlier c o).result = .ok p) :
    ∃ mode uri, c.trustMode = .ok mode ∧ KeysAt client net c mode uri ∧
      p = built client o c mode uri none := by
  obtain ⟨mode, m, uri, hmode, -, hm, htolerated, huri, rfl⟩ := discover_eq_ok.mp h
  exact ⟨mode, uri, hmode, ⟨earlier, m, metadata_eq_ok.mpr ⟨hm, htolerated⟩, huri⟩, rfl⟩

theorem issuer_of_discover (h : (Provider.discover client net earlier c o).result = .ok p) :
    p.issuer = c.issuer := by
  obtain ⟨mode, uri, -, -, rfl⟩ := built_of_discover h
  rfl

theorem discover_congr (hnet : ∀ e e' u, net.reply e u = net.reply e' u)
    (earlier earlier' : List Exchange) : (Provider.discover client net earlier c o).result =
      (Provider.discover client net earlier' c o).result := by
  unfold Provider.discover ProviderMetadata.discover
  rw [get_congr hnet client earlier earlier']

/-! ### One step of loading -/

/-- **What a step of loading does**: it registers the provider that is discovered, if one is. -/
theorem registry_next (p : Progress) (c : ProviderConfig) :
    (p.next client net o c).registry =
      match (Provider.discover client net p.exchanges c o).result with
      | .ok q => p.registry.insert c.issuer q
      | .error _ => p.registry := by
  unfold Progress.next
  dsimp only
  cases hd : (Provider.discover client net p.exchanges c o).result with
  | error f => rfl
  | ok q =>
    dsimp only
    rw [← issuer_of_discover hd]
    rfl

theorem get?_next_of_ne (p : Progress) (hne : c.issuer ≠ key) :
    (p.next client net o c).registry.get? key = p.registry.get? key := by
  rw [registry_next]
  cases (Provider.discover client net p.exchanges c o).result with
  | error f => rfl
  | ok q => rw [Registry.get?_insert, if_neg hne]

theorem get?_next_congr (hnet : ∀ e e' u, net.reply e u = net.reply e' u) {p p' : Progress}
    (h : p.registry.get? key = p'.registry.get? key) :
    (p.next client net o c).registry.get? key = (p'.next client net o c).registry.get? key := by
  rw [registry_next, registry_next, discover_congr hnet p.exchanges p'.exchanges]
  cases (Provider.discover client net p'.exchanges c o).result with
  | error f => exact h
  | ok q =>
    rw [Registry.get?_insert, Registry.get?_insert]
    split_ifs
    · rfl
    · exact h

/-! ### All steps -/

theorem registry_discardDefault (f : Option ProviderFault) :
    (Progress.start.discardDefault f).registry = .empty := by
  cases f <;> rfl

/-- **What loading finds under a key depends on the configurations with that issuer alone.** -/
theorem get?_foldl_filter (hnet : ∀ e e' u, net.reply e u = net.reply e' u)
    (configs : List ProviderConfig) {p p' : Progress}
    (h : p.registry.get? key = p'.registry.get? key) :
    (configs.foldl (Progress.next client net o) p).registry.get? key =
      ((configs.filter (·.issuer = key)).foldl
        (Progress.next client net o) p').registry.get? key := by
  induction configs generalizing p p' with
  | nil => exact h
  | cons c configs ih =>
    rw [List.foldl_cons]
    by_cases hc : c.issuer = key
    · rw [List.filter_cons_of_pos (by simpa using hc), List.foldl_cons]
      exact ih (get?_next_congr hnet h)
    · rw [List.filter_cons_of_neg (by simpa using hc)]
      exact ih ((get?_next_of_ne p hc).trans h)

/-! ### Loading -/

variable {a b : AuthConfig} {r r' : Registry}

theorem registry_of_load (h : (loadProviders client net a).result = .ok r) :
    r = (run client net a).registry := by
  unfold loadProviders at h
  dsimp only at h
  split_ifs at h
  cases h
  rfl

/-- **Loading isolates issuers**: two configurations with the same options and, for an issuer, the
same providers in the same order give the issuer the same provider. -/
theorem get?_load_congr (hnet : ∀ e e' u, net.reply e u = net.reply e' u)
    (hoptions : options a = options b)
    (hconfigs : (plan a).1.filter (·.issuer = key) = (plan b).1.filter (·.issuer = key))
    (ha : (loadProviders client net a).result = .ok r)
    (hb : (loadProviders client net b).result = .ok r') : r.get? key = r'.get? key := by
  have hload : ∀ a : AuthConfig, (run client net a).registry.get? key =
      (((plan a).1.filter (·.issuer = key)).foldl (Progress.next client net (options a))
        Progress.start).registry.get? key := by
    intro a
    refine get?_foldl_filter hnet _ ?_
    rw [registry_discardDefault]
    rfl
  rw [registry_of_load ha, registry_of_load hb, hload a, hload b, hoptions, hconfigs]

end TokenGate.Proofs.Registry.Loaded
