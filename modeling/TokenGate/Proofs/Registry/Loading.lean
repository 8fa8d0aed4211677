import TokenGate.Proofs.Registry.Discovery
import Mathlib.Data.List.Forall2

/-! # What loading amounts to

Loading discovers the configured providers one after the other (`discoveries`), each once. All that
it does is a matter of these discoveries: its exchanges are theirs, its registry has under each
issuer the provider that was discovered last for it, and its counts are those of the discoveries
that failed (`load_tallies`). A discovery sends one request, but a server may redirect it to any
place, even to that of the keys (`not_forall_discoveries_single`). -/

namespace TokenGate.Proofs.Registry.Loading

open TokenGate.Http TokenGate.Load TokenGate.Proofs.Results TokenGate.Proofs.Http.Fetch
open TokenGate.Proofs.Registry.Discovery TokenGate.Proofs.Registry.Loaded

/-- The configured providers: the default one, if its settings describe one, and then the others. -/
def described (a : AuthConfig) : List ProviderConfig :=
  match a.defaultProvider.toConfig with
  | .ok (some c) => c :: a.providers
  | _ => a.providers

/-- The number of faults in the settings of the default provider. -/
def defaultFaults (a : AuthConfig) : Nat :=
  match a.defaultProvider.toConfig with
  | .ok _ => 0
  | .error _ => 1

/-- The discoveries of some configurations, each after the exchanges of those before it. -/
def discoveries (client : Client) (net : Network) (o : Provider.Options) :
    List Exchange → List ProviderConfig → List (ProviderMetadata.Discovery Provider)
  | _, [] => []
  | earlier, c :: cs =>
    Provider.discover client net earlier c o ::
      discoveries client net o (earlier ++ (Provider.discover client net earlier c o).exchanges) cs

/-- What is sent for some configurations, discovered one after the other. -/
def sent (client : Client) (net : Network) (o : Provider.Options) (configs : List ProviderConfig) :
    List Exchange :=
  (discoveries client net o [] configs).flatMap (·.exchanges)

/-- All discoveries of a configuration. -/
def discovered (client : Client) (net : Network) (a : AuthConfig) :
    List (ProviderMetadata.Discovery Provider) :=
  discoveries client net (options a) [] (described a)

/-- The providers that were discovered, in their order. -/
def providers (ds : List (ProviderMetadata.Discovery Provider)) : List Provider :=
  ds.filterMap (·.result.toOption)

/-- The number of discoveries that failed. -/
def failures (ds : List (ProviderMetadata.Discovery Provider)) : Nat :=
  ds.countP (·.result.toOption.isNone)

/-- A discovery keeps to a configuration: it sends one request at most, to the place of the
document, and others only where that one is redirected; and a provider that it ends with has the
configured issuer and no keys yet. -/
structure KeepsTo (net : Network) (c : ProviderConfig)
    (d : ProviderMetadata.Discovery Provider) : Prop where
  request : d.exchanges = [] ∨ ∃ earlier u,
    target (ProviderMetadata.discoveryUrl c.issuer) = .ok u ∧ Trail net earlier u d.exchanges
  single : ∀ e, d.exchanges.head? = some e → e.redirect? = none → d.exchanges = [e]
  provider : ∀ p, d.result = .ok p →
    p.issuer = c.issuer ∧ ∃ v, p.verifier = .keys v ∧ v.keys.cached = none

/-- What loading amounts to, given the discoveries of the configurations and the number of faults in
the settings of the default provider. -/
structure Tallies (net : Network) (configs : List ProviderConfig)
    (ds : List (ProviderMetadata.Discovery Provider)) (faults : Nat) (l : Outcome) : Prop where
  each : List.Forall₂ (KeepsTo net) configs ds
  exchanges : l.exchanges = ds.flatMap (·.exchanges)
  loaded : (∃ r, l.result = .ok r) ↔ ∃ d ∈ ds, ∃ p, d.result = .ok p
  registered : ∀ r, l.result = .ok r →
    ∀ key, r.get? key = ((providers ds).filter (·.issuer = key)).getLast?
  reported : ∀ r, l.result = .ok r →
    l.events.getLast? = some (.registryReady r.size (failures ds + faults))
  refused : (∀ d ∈ ds, ∀ p, d.result ≠ .ok p) →
    l.result = .error (.noProviders (configs.length + faults) (configs.length + faults))

variable {client : Client} {net : Network} {o : Provider.Options} {a : AuthConfig}
variable {c : ProviderConfig} {ds : List (ProviderMetadata.Discovery Provider)} {p : Provider}
variable {r : Registry} {key : String}

/-! ### Discoveries -/

theorem mem_providers : p ∈ providers ds ↔ ∃ d ∈ ds, d.result = .ok p := by
  unfold providers
  simp

theorem providers_eq_nil : providers ds = [] ↔ ∀ d ∈ ds, ∀ p, d.result ≠ .ok p := by
  rw [List.eq_nil_iff_forall_not_mem]
  simp only [mem_providers]
  exact ⟨fun h d hd p hp => h p ⟨d, hd, hp⟩, fun h p ⟨d, hd, hp⟩ => h d hd p hp⟩

theorem providers_cons (d : ProviderMetadata.Discovery Provider) :
    providers (d :: ds) = d.result.toOption.toList ++ providers ds := by
  unfold providers
  cases hd : d.result with
  | error f => rw [List.filterMap_cons_none (by rw [hd]; rfl)]; rfl
  | ok p => rw [List.filterMap_cons_some (by rw [hd]; rfl)]; rfl

theorem failures_of_providers (h : providers ds = []) : failures ds = ds.length := by
  refine List.countP_eq_length.mpr fun d hd => ?_
  cases hresult : d.result with
  | error f => rfl
  | ok p => exact absurd hresult (providers_eq_nil.mp h d hd p)

theorem keepsTo_discover (earlier : List Exchange) (c : ProviderConfig) :
    KeepsTo net c (Provider.discover client net earlier c o) where
  request := by
    rcases exchanges_discover client net earlier c o with h | ⟨u, hu, h⟩
    · exact Or.inl h
    · exact Or.inr ⟨earlier, u, hu, h⟩
  single e he hdirect := by
    rcases exchanges_discover client net earlier c o with h | ⟨u, -, htrail⟩
    · rw [h] at he
      cases he
    · exact htrail.eq_of_head? he hdirect
  provider p hp := by
    obtain ⟨mode, uri, -, -, rfl⟩ := built_of_discover hp
    exact ⟨rfl, _, rfl, rfl⟩

theorem keepsTo_discoveries (configs : List ProviderConfig) (earlier : List Exchange) :
    List.Forall₂ (KeepsTo net) configs (discoveries client net o earlier configs) := by
  induction configs generalizing earlier with
  | nil => exact .nil
  | cons c configs ih => exact .cons (keepsTo_discover earlier c) (ih _)

/-- **Every discovery is that of one configuration**, after the exchanges of those before it. -/
theorem exists_of_mem_discoveries {configs : List ProviderConfig}
    {d : ProviderMetadata.Discovery Provider} {earlier : List Exchange}
    (h : d ∈ discoveries client net o earlier configs) :
    ∃ before c after, configs = before ++ c :: after ∧ d = Provider.discover client net
      (earlier ++ (discoveries client net o earlier before).flatMap (·.exchanges)) c o := by
  induction configs generalizing earlier with
  | nil => cases h
  | cons c configs ih =>
    rw [discoveries, List.mem_cons] at h
    rcases h with rfl | h
    · exact ⟨[], c, configs, rfl, by rw [discoveries, List.flatMap_nil, List.append_nil]⟩
    · obtain ⟨before, c', after, rfl, rfl⟩ := ih h
      exact ⟨c :: before, c', after, rfl,
        by rw [discoveries, List.flatMap_cons, List.append_assoc]⟩

/-! ### One step of loading -/

theorem configured_next (p : Progress) (c : ProviderConfig) :
    (p.next client net o c).configured = p.configured + 1 := by
  unfold Progress.next
  dsimp only
  cases (Provider.discover client net p.exchanges c o).result <;> rfl

theorem exchanges_next (p : Progress) (c : ProviderConfig) :
    (p.next client net o c).exchanges =
      p.exchanges ++ (Provider.discover client net p.exchanges c o).exchanges := by
  unfold Progress.next
  dsimp only
  cases (Provider.discover client net p.exchanges c o).result <;> rfl

theorem failed_next (p : Progress) (c : ProviderConfig) :
    (p.next client net o c).failed =
      p.failed + failures [Provider.discover client net p.exchanges c o] := by
  unfold Progress.next failures
  dsimp only
  cases hd : (Provider.discover client net p.exchanges c o).result with
  | error f => simp [hd, Except.toOption]
  | ok q => simp [hd, Except.toOption]

theorem get?_next (p : Progress) (c : ProviderConfig) (key : String) :
    (p.next client net o c).registry.get? key =
      (((Provider.discover client net p.exchanges c o).result.toOption.toList.filter
        (·.issuer = key)).getLast?).or (p.registry.get? key) := by
  rw [registry_next]
  cases hd : (Provider.discover client net p.exchanges c o).result with
  | error f => rfl
  | ok q =>
    rw [Registry.get?_insert, ← issuer_of_discover hd]
    by_cases hkey : q.issuer = key <;> simp [Except.toOption, hkey]

/-! ### All steps -/

theorem configured_foldl (configs : List ProviderConfig) (p : Progress) :
    (configs.foldl (Progress.next client net o) p).configured = p.configured + configs.length := by
  induction configs generalizing p with
  | nil => rfl
  | cons c configs ih =>
    rw [List.foldl_cons, ih, configured_next, List.length_cons]
    omega

theorem exchanges_foldl (configs : List ProviderConfig) (p : Progress) :
    (configs.foldl (Progress.next client net o) p).exchanges =
      p.exchanges ++ (discoveries client net o p.exchanges configs).flatMap (·.exchanges) := by
  induction configs generalizing p with
  | nil => exact (List.append_nil _).symm
  | cons c configs ih =>
    rw [List.foldl_cons, ih, exchanges_next, discoveries, List.flatMap_cons, List.append_assoc]

theorem failed_foldl (configs : List ProviderConfig) (p : Progress) :
    (configs.foldl (Progress.next client net o) p).failed =
      p.failed + failures (discoveries client net o p.exchanges configs) := by
  induction configs generalizing p with
  | nil => rfl
  | cons c configs ih =>
    rw [List.foldl_cons, ih, failed_next, exchanges_next, discoveries]
    simp only [failures, List.countP_cons, List.countP_nil]
    omega

/-- **Under a key stands the last provider that was discovered for it.** -/
theorem get?_foldl (configs : List ProviderConfig) (p : Progress) (key : String) :
    (configs.foldl (Progress.next client net o) p).registry.get? key =
      ((providers (discoveries client net o p.exchanges configs)).filter
        (·.issuer = key)).getLast?.or (p.registry.get? key) := by
  induction configs generalizing p with
  | nil => rfl
  | cons c configs ih =>
    rw [List.foldl_cons, ih, get?_next, exchanges_next, discoveries, providers_cons,
      List.filter_append, List.getLast?_append, Option.or_assoc]

/-! ### Loading -/

theorem fst_plan (a : AuthConfig) : (plan a).1 = described a := by
  unfold plan described
  cases a.defaultProvider.toConfig with
  | error f => rfl
  | ok c => cases c <;> rfl

theorem start_plan (a : AuthConfig) :
    (Progress.start.discardDefault (plan a).2).configured = defaultFaults a ∧
      (Progress.start.discardDefault (plan a).2).failed = defaultFaults a ∧
      (Progress.start.discardDefault (plan a).2).exchanges = [] := by
  unfold plan defaultFaults
  cases a.defaultProvider.toConfig with
  | error f => exact ⟨rfl, rfl, rfl⟩
  | ok c => cases c <;> exact ⟨rfl, rfl, rfl⟩

theorem run_eq (client : Client) (net : Network) (a : AuthConfig) :
    (run client net a).configured = (described a).length + defaultFaults a ∧
      (run client net a).failed = failures (discovered client net a) + defaultFaults a ∧
      (run client net a).exchanges = (discovered client net a).flatMap (·.exchanges) ∧
      ∀ key, (run client net a).registry.get? key =
        ((providers (discovered client net a)).filter (·.issuer = key)).getLast? := by
  obtain ⟨hconfigured, hfailed, hexchanges⟩ := start_plan a
  unfold run discovered
  dsimp only
  rw [configured_foldl, failed_foldl, exchanges_foldl, hconfigured, hfailed, hexchanges, fst_plan]
  refine ⟨Nat.add_comm _ _, Nat.add_comm _ _, rfl, fun key => ?_⟩
  rw [get?_foldl, hexchanges, registry_discardDefault, Registry.get?_empty, Option.or_none]

theorem isEmpty_run (client : Client) (net : Network) (a : AuthConfig) :
    (run client net a).registry.isEmpty = true ↔ providers (discovered client net a) = [] := by
  rw [Registry.isEmpty_iff]
  simp only [(run_eq client net a).2.2.2]
  constructor
  · intro h
    refine List.eq_nil_iff_forall_not_mem.mpr fun p hp => ?_
    have hmem : p ∈ (providers (discovered client net a)).filter (·.issuer = p.issuer) :=
      List.mem_filter.mpr ⟨hp, decide_eq_true rfl⟩
    rw [List.getLast?_eq_none_iff.mp (h p.issuer)] at hmem
    cases hmem
  · intro h key
    rw [h]
    rfl

theorem load_of_nonempty (h : providers (discovered client net a) ≠ []) :
    loadProviders client net a = ⟨.ok (run client net a).registry, (run client net a).exchanges,
      (run client net a).events ++
        [.registryReady (run client net a).registry.size (run client net a).failed]⟩ := by
  unfold loadProviders
  dsimp only
  rw [if_neg (mt (isEmpty_run client net a).mp h)]

theorem load_of_empty (h : providers (discovered client net a) = []) :
    loadProviders client net a = ⟨.error (.noProviders (run client net a).configured
      (run client net a).failed), (run client net a).exchanges, (run client net a).events⟩ := by
  unfold loadProviders
  dsimp only
  rw [if_pos ((isEmpty_run client net a).mpr h)]

theorem isOk_load (client : Client) (net : Network) (a : AuthConfig) :
    (∃ r, (loadProviders client net a).result = .ok r) ↔ providers (discovered client net a) ≠ [] := by
  constructor
  · rintro ⟨r, hr⟩ hempty
    rw [load_of_empty hempty] at hr
    cases hr
  · intro h
    rw [load_of_nonempty h]
    exact ⟨_, rfl⟩

theorem exchanges_load (client : Client) (net : Network) (a : AuthConfig) :
    (loadProviders client net a).exchanges = (discovered client net a).flatMap (·.exchanges) := by
  rw [← (run_eq client net a).2.2.1]
  by_cases h : providers (discovered client net a) = []
  · rw [load_of_empty h]
  · rw [load_of_nonempty h]

/-- **A registered provider was discovered** for one of the configurations. -/
theorem discover_of_load (hload : (loadProviders client net a).result = .ok r)
    (hp : r.get? key = some p) :
    p.issuer = key ∧ ∃ before c after, described a = before ++ c :: after ∧
      (Provider.discover client net (sent client net (options a) before) c (options a)).result =
        .ok p := by
  rw [registry_of_load hload, (run_eq client net a).2.2.2] at hp
  obtain ⟨hmem, hissuer⟩ := List.mem_filter.mp (List.mem_of_getLast? hp)
  obtain ⟨d, hd, hresult⟩ := mem_providers.mp hmem
  obtain ⟨before, c, after, hconfigs, rfl⟩ := exists_of_mem_discoveries hd
  exact ⟨of_decide_eq_true hissuer, before, c, after, hconfigs, hresult⟩

/-- **A loaded provider is that of a configuration with its key as issuer**, with no keys yet. -/
theorem get?_of_load (hload : (loadProviders client net a).result = .ok r)
    (hp : r.get? key = some p) :
    ∃ c ∈ (plan a).1, c.issuer = key ∧ ∃ mode uri, c.trustMode = .ok mode ∧
      KeysAt client net c mode uri ∧ p = built client (options a) c mode uri none := by
  obtain ⟨rfl, before, c, after, hconfigs, hresult⟩ := discover_of_load hload hp
  rw [fst_plan, hconfigs]
  exact ⟨c, List.mem_append_right _ List.mem_cons_self, (issuer_of_discover hresult).symm,
    built_of_discover hresult⟩

/-- **Loading builds the registry that its configuration describes**: every configured provider is
discovered once and in order, the last one that is discovered for an issuer is registered for it,
and what fails is counted. -/
theorem load_tallies (client : Client) (net : Network) (a : AuthConfig) :
    Tallies net (described a) (discovered client net a) (defaultFaults a)
      (loadProviders client net a) where
  each := keepsTo_discoveries (described a) []
  exchanges := exchanges_load client net a
  loaded := by
    rw [isOk_load, ne_eq, providers_eq_nil]
    push Not
    rfl
  registered r hr key := by
    rw [registry_of_load hr]
    exact (run_eq client net a).2.2.2 key
  reported r hr := by
    rw [load_of_nonempty ((isOk_load client net a).mp ⟨r, hr⟩), ← registry_of_load hr,
      (run_eq client net a).2.1]
    exact List.getLast?_concat
  refused h := by
    have hempty := providers_eq_nil.mpr h
    -- Everything failed, so both counts are the number of configurations.
    have heach : List.Forall₂ (KeepsTo net) (described a) (discovered client net a) :=
      keepsTo_discoveries (described a) []
    obtain ⟨hconfigured, hfailed, -⟩ := run_eq client net a
    rw [load_of_empty hempty, hconfigured, hfailed, failures_of_providers hempty,
      heach.length_eq]

/-- A configuration of one issuer, with its keys at a place of their own. -/
def keyedConfig : AuthConfig :=
  { AuthConfig.default with providers := [⟨"http://a", ["x"], false, false, some "http://a/k"⟩] }

/-- A network on which the document of the issuer has moved to the place of the keys. -/
def misledNetwork : Network :=
  ⟨fun _ u => if u.render = "http://a/.well-known/openid-configuration" then
      .answered 302 (some "/k") []
    else .answered 404 none []⟩

/-- **A discovery may send more than one request, and not only to the place of the document**: if
that place redirects it, be it to the keys. -/
theorem not_forall_discoveries_single : ¬ ∀ (client : Client) (net : Network) (a : AuthConfig),
    List.Forall₂ (fun c d => d.exchanges.length ≤ 1 ∧ ∀ e ∈ d.exchanges,
        target (ProviderMetadata.discoveryUrl c.issuer) = .ok e.url ∧
          ∀ uri, c.jwksUri = some uri → target uri ≠ .ok e.url)
      (described a) (discovered client net a) := by
  intro h
  have hlengths : (discovered ⟨0⟩ misledNetwork keyedConfig).map (·.exchanges.length) = [2] := by
    decide +kernel
  have hsingle := h ⟨0⟩ misledNetwork keyedConfig
  generalize discovered ⟨0⟩ misledNetwork keyedConfig = ds at hlengths hsingle
  cases hsingle with
  | @cons _ d _ _ hfirst _ =>
    have hlength : d.exchanges.length = 2 := (List.cons.inj hlengths).1
    have hle : d.exchanges.length ≤ 1 := hfirst.1
    omega

end TokenGate.Proofs.Registry.Loading
