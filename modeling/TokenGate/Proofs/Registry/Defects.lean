import TokenGate.Proofs.Key.Lookup
import TokenGate.Proofs.Registry.Trust

/-! # Configurations that are refused

A configuration with contradictory flags, an issuer that is no URL of the web, or no audiences is
refused before anything is sent. Without such a defect one request is made, for the document of the
issuer, and the answer decides (`discovery_decides`). An audience that is empty makes a
configuration just as unusable, but is noticed only when the document is there
(`not_forall_unusable_refused`): until then the issuer is asked, and a fault of the network covers
up that of the configuration. -/

namespace TokenGate.Proofs.Registry.Defects

open TokenGate.Http TokenGate.Json TokenGate.Proofs.Results
open TokenGate.Proofs.Http.Fetch
open TokenGate.Proofs.Registry.Discovery TokenGate.Proofs.Registry.Trust

/-- What is wrong with a configuration by itself, but for empty audiences. -/
inductive Defective (c : ProviderConfig) : Prop
  | flags (hsignature : c.skipSignatureVerify = true) (hissuer : c.skipIssuerVerify = false)
  | noIssuer (h : c.issuer = "")
  | notUrl {f : Url.Fault} (h : Url.ofText c.issuer = .error f)
  | notWeb {u : Url} (h : Url.ofText c.issuer = .ok u) (hweb : u.isWeb = false)
  | noAudiences (h : c.audiences = [])

/-- The network answers the request for the document of a configuration, at once or where it is
redirected to, with one that may speak for the issuer: it names the configured issuer, or another
one is tolerated. -/
structure Documented (net : Network) (earlier : List Exchange) (c : ProviderConfig)
    (m : ProviderMetadata) : Prop where
  answered : ∃ u a, target (ProviderMetadata.discoveryUrl c.issuer) = .ok u ∧
    Answers net maxRedirects earlier u a ∧ (200 ≤ a.status ∧ a.status < 300) ∧
    readBytes ProviderMetadata.nodeShape a.body = .ok m
  issuer : m.issuer = c.issuer ∨ c.skipIssuerVerify = true

variable {client : Client} {net : Network} {earlier : List Exchange} {c : ProviderConfig}
variable {o : Provider.Options} {mode : TrustMode} {m : ProviderMetadata} {f : ProviderFault}

/-! ### Before the request -/

theorem trustMode_error (h : c.trustMode = .error f) : ∃ reason, f = .invalidConfig reason := by
  unfold ProviderConfig.trustMode TrustMode.ofFlags at h
  split at h <;> cases h
  exact ⟨_, rfl⟩

theorem validateIssuer_error {issuer : String} (h : Provider.validateIssuer issuer = .error f) :
    ∃ reason, f = .invalidConfig reason := by
  unfold Provider.validateIssuer at h
  split_ifs at h
  · cases h
    exact ⟨_, rfl⟩
  · split at h
    · cases h
      exact ⟨_, rfl⟩
    · split_ifs at h
      cases h
      exact ⟨_, rfl⟩

theorem precheck_error (h : Provider.precheck c = .error f) : ∃ reason, f = .invalidConfig reason := by
  unfold Provider.precheck at h
  rcases bind_eq_error.mp h with h | ⟨mode, -, h⟩
  · exact trustMode_error h
  rcases bind_eq_error.mp h with h | ⟨-, -, h⟩
  · exact validateIssuer_error h
  · split_ifs at h <;> cases h
    exact ⟨_, rfl⟩

theorem trustMode_cases (c : ProviderConfig) : (∃ mode, c.trustMode = .ok mode) ∨
    c.skipSignatureVerify = true ∧ c.skipIssuerVerify = false := by
  unfold ProviderConfig.trustMode
  cases c.skipIssuerVerify <;> cases c.skipSignatureVerify <;> simp [TrustMode.ofFlags]

/-- **The checks before the request find all defects but empty audiences.** -/
theorem not_defective_iff : ¬Defective c ↔ ∃ mode, Provider.precheck c = .ok mode := by
  constructor
  · intro h
    obtain ⟨mode, hmode⟩ := (trustMode_cases c).resolve_right fun hf => h (.flags hf.1 hf.2)
    have haudiences : c.audiences ≠ [] := fun hempty => h (.noAudiences hempty)
    have hissuer : c.issuer ≠ "" := fun hempty => h (.noIssuer hempty)
    refine ⟨mode, precheck_eq_ok.mpr ⟨hmode, validateIssuer_eq_ok.mpr ⟨hissuer, ?_⟩, haudiences⟩⟩
    cases hu : Url.ofText c.issuer with
    | error f => exact absurd (.notUrl hu) h
    | ok u => exact ⟨u, rfl, by_contra fun hweb => h (.notWeb hu (Bool.not_eq_true _ ▸ hweb))⟩
  · rintro ⟨mode, hmode⟩ hdefect
    obtain ⟨hmode, hissuer, haudiences⟩ := precheck_eq_ok.mp hmode
    obtain ⟨hissuer, u, hu, hweb⟩ := validateIssuer_eq_ok.mp hissuer
    cases hdefect with
    | flags hsignature hissuer =>
      rw [ProviderConfig.trustMode, hissuer, hsignature] at hmode
      cases hmode
    | noIssuer h => exact hissuer h
    | notUrl h =>
      rw [hu] at h
      cases h
    | notWeb h hweb' =>
      rw [hu] at h
      cases h
      rw [hweb] at hweb'
      cases hweb'
    | noAudiences h => exact haudiences h

/-- **A defective configuration is refused without a request.** -/
theorem discover_of_defective (h : Defective c) : ∃ reason,
    Provider.discover client net earlier c o = ⟨.error (.invalidConfig reason), [], []⟩ := by
  cases hpre : Provider.precheck c with
  | ok mode => exact absurd h (not_defective_iff.mpr ⟨mode, hpre⟩)
  | error f =>
    obtain ⟨reason, rfl⟩ := precheck_error hpre
    exact ⟨reason, discover_of_precheck_error hpre⟩

/-! ### The document -/

theorem publishes_iff : Publishes client net earlier c.issuer m ↔ ∃ u a,
    target (ProviderMetadata.discoveryUrl c.issuer) = .ok u ∧
      Answers net maxRedirects earlier u a ∧ (200 ≤ a.status ∧ a.status < 300) ∧
      readBytes ProviderMetadata.nodeShape a.body = .ok m := by
  have hanswer : ∀ a : Answer, ProviderMetadata.ofAnswer c.issuer a = .ok m ↔
      (200 ≤ a.status ∧ a.status < 300) ∧
        readBytes ProviderMetadata.nodeShape a.body = .ok m := by
    intro a
    unfold ProviderMetadata.ofAnswer isSuccess
    split_ifs with h
    · refine iff_of_false nofun fun hm => ?_
      simp [hm.1] at h
    · cases readBytes ProviderMetadata.nodeShape a.body <;> simp_all
  unfold Publishes
  simp only [get_eq_ok, hanswer]
  constructor
  · rintro ⟨a, ⟨u, hu, ha⟩, hm⟩
    exact ⟨u, a, hu, ha, hm⟩
  · rintro ⟨u, a, hu, ha, hm⟩
    exact ⟨a, ⟨u, hu, ha⟩, hm⟩

theorem metadata_eq_ok_iff (hmode : c.trustMode = .ok mode) :
    (ProviderMetadata.discover client net earlier c.issuer mode).result = .ok m ↔
      Documented net earlier c m := by
  have hskip : mode ≠ .strict ↔ c.skipIssuerVerify = true := by
    rw [(trustMode_eq_ok.mp hmode).1, TrustMode.skipsIssuerCheck, decide_eq_true_eq]
  rw [metadata_eq_ok, publishes_iff, Tolerated, hskip]
  exact ⟨fun h => ⟨h.1, h.2⟩, fun h => ⟨h.answered, h.issuer⟩⟩

theorem metadata_error {issuer : String}
    (h : (ProviderMetadata.discover client net earlier issuer mode).result = .error f) :
    ∃ reason, f = .discoveryFailed issuer reason := by
  unfold ProviderMetadata.discover at h
  dsimp only at h
  split at h
  · cases h
    exact ⟨_, rfl⟩
  split at h
  · rename_i hanswer
    cases h
    unfold ProviderMetadata.ofAnswer at hanswer
    split_ifs at hanswer
    · cases hanswer
      exact ⟨_, rfl⟩
    · split at hanswer <;> cases hanswer
      exact ⟨_, rfl⟩
  split at h
  · rename_i hcheck
    cases h
    unfold ProviderMetadata.checkIssuer at hcheck
    split_ifs at hcheck
    cases hcheck
    exact ⟨_, rfl⟩
  · cases h

/-! ### The provider -/

theorem assemble_error (h : Provider.assemble client c o mode m = .error f) :
    ∃ reason, f = .invalidConfig reason := by
  unfold Provider.assemble at h
  split at h
  · cases h
    exact ⟨_, rfl⟩
  · rcases bind_eq_error.mp h with h | ⟨-, -, h⟩
    · unfold Provider.validate at h
      split_ifs at h <;> cases h <;> exact ⟨_, rfl⟩
    · cases h

theorem exists_assemble (hissuer : c.issuer ≠ "") (haudiences : c.audiences ≠ []) :
    (∃ p, Provider.assemble client c o mode m = .ok p) ↔
      (c.jwksUri ≠ none ∨ m.jwksUri ≠ none) ∧ "" ∉ c.audiences := by
  have hvalid : Provider.validate c.issuer c.audiences = .ok () ↔ "" ∉ c.audiences :=
    validate_eq_ok.trans ⟨fun h => h.2.2, fun h => ⟨hissuer, haudiences, h⟩⟩
  simp only [assemble_eq_ok, hvalid]
  constructor
  · rintro ⟨p, uri, huri, hmem, -⟩
    refine ⟨?_, hmem⟩
    by_contra hnone
    obtain ⟨hc, hm⟩ := not_or.mp hnone
    rw [not_not.mp hc, not_not.mp hm] at huri
    cases huri
  · rintro ⟨hkeys, hmem⟩
    cases huri : c.jwksUri.or m.jwksUri with
    | none =>
      obtain ⟨hc, hm⟩ := Option.or_eq_none_iff.mp huri
      exact absurd hkeys (not_or.mpr ⟨not_not.mpr hc, not_not.mpr hm⟩)
    | some uri => exact ⟨_, uri, rfl, hmem, rfl⟩

/-- A document says where the keys are, unless the configuration does, and no audience is empty. -/
def Suffices (c : ProviderConfig) (m : ProviderMetadata) : Prop :=
  (c.jwksUri ≠ none ∨ m.jwksUri ≠ none) ∧ "" ∉ c.audiences

/-- **What discovery ends with** if the checks of the configuration have passed. -/
theorem result_cases (client : Client) (net : Network) (earlier : List Exchange)
    (o : Provider.Options) (h : Provider.precheck c = .ok mode) :
    ((∀ m, ¬Documented net earlier c m) ∧ ∃ reason,
      (Provider.discover client net earlier c o).result = .error (.discoveryFailed c.issuer reason)) ∨
    ∃ m, (∀ m', Documented net earlier c m' ↔ m' = m) ∧
      ((Suffices c m ∧ ∃ p, (Provider.discover client net earlier c o).result = .ok p) ∨
        (¬Suffices c m ∧ ∃ reason,
          (Provider.discover client net earlier c o).result = .error (.invalidConfig reason))) := by
  obtain ⟨hmode, hissuer, haudiences⟩ := precheck_eq_ok.mp h
  have hdocument : ∀ m, (ProviderMetadata.discover client net earlier c.issuer mode).result = .ok m ↔
      Documented net earlier c m := fun m => metadata_eq_ok_iff hmode
  rw [(discover_of_precheck h).1]
  cases hm : (ProviderMetadata.discover client net earlier c.issuer mode).result with
  | error f =>
    obtain ⟨reason, rfl⟩ := metadata_error hm
    simp only [hm, reduceCtorEq, false_iff] at hdocument
    exact Or.inl ⟨hdocument, reason, rfl⟩
  | ok m =>
    simp only [hm, Except.ok.injEq] at hdocument
    refine Or.inr ⟨m, fun m' => (hdocument m').symm.trans eq_comm, ?_⟩
    have hmade : (∃ p, Provider.assemble client c o mode m = .ok p) ↔ Suffices c m :=
      exists_assemble (validateIssuer_eq_ok.mp hissuer).1 haudiences
    cases hp : Provider.assemble client c o mode m with
    | error f =>
      obtain ⟨reason, rfl⟩ := assemble_error hp
      refine Or.inr ⟨fun hsuffices => ?_, reason, hp⟩
      obtain ⟨p, hp'⟩ := hmade.mpr hsuffices
      rw [hp] at hp'
      cases hp'
    | ok p => exact Or.inl ⟨hmade.mp ⟨p, hp⟩, p, hp⟩

/-- What becomes of a configuration without such a defect: one request is made, if the place of the
document is an address, and no other unless that one is redirected; and the answer decides. -/
structure Decided (client : Client) (net : Network) (earlier : List Exchange) (c : ProviderConfig)
    (o : Provider.Options) : Prop where
  asked : ∀ u, target (ProviderMetadata.discoveryUrl c.issuer) = .ok u →
    (net.exchange earlier u).redirect? = none →
    (Provider.discover client net earlier c o).exchanges = [net.exchange earlier u]
  redirected : ∀ u, target (ProviderMetadata.discoveryUrl c.issuer) = .ok u →
    Trail net earlier u (Provider.discover client net earlier c o).exchanges
  unasked : (∀ u, target (ProviderMetadata.discoveryUrl c.issuer) ≠ .ok u) →
    (Provider.discover client net earlier c o).exchanges = []
  accepted : (∃ p, (Provider.discover client net earlier c o).result = .ok p) ↔
    ∃ m, Documented net earlier c m ∧ Suffices c m
  refused : (∃ reason, (Provider.discover client net earlier c o).result =
    .error (.invalidConfig reason)) ↔ ∃ m, Documented net earlier c m ∧ ¬Suffices c m
  failed : (∃ reason, (Provider.discover client net earlier c o).result =
    .error (.discoveryFailed c.issuer reason)) ↔ ∀ m, ¬Documented net earlier c m

/-- **Without a defect the answer decides.** -/
theorem decided_of_not_defective (h : ¬Defective c) : Decided client net earlier c o := by
  obtain ⟨mode, hpre⟩ := not_defective_iff.mp h
  have hexchanges : (Provider.discover client net earlier c o).exchanges =
      (client.get net earlier (ProviderMetadata.discoveryUrl c.issuer)).exchanges :=
    (discover_of_precheck hpre).2
  have htrail : ∀ u, target (ProviderMetadata.discoveryUrl c.issuer) = .ok u →
      Trail net earlier u (Provider.discover client net earlier c o).exchanges := by
    intro u hu
    rw [hexchanges]
    exact trail_get client hu
  constructor
  · exact fun u hu hdirect => (htrail u hu).eq_singleton hdirect
  · exact htrail
  · intro hnone
    rw [hexchanges]
    cases hu : target (ProviderMetadata.discoveryUrl c.issuer) with
    | error f => rw [get_of_target_error hu]
    | ok u => exact absurd hu (hnone u)
  -- Each fault excludes the other one and success, so each case settles all three equivalences.
  all_goals
    obtain ⟨hnone, reason, hresult⟩ | ⟨m, hm, ⟨hm', p, hresult⟩ | ⟨hm', reason, hresult⟩⟩ :=
      result_cases client net earlier o hpre
    all_goals simp [*]

/-- **What is refused before the request and what after it.** A configuration that contradicts
itself, has no issuer on the web or no audiences is refused, and nothing is sent. Any other one has
one request made, for the document of its issuer. It is accepted if a document comes, which may
speak for the issuer and does not leave open where the keys are, and if no audience is empty. The
fault is one of the configuration if only the latter fails, and one of the discovery if there is no
such document. -/
theorem discovery_decides (client : Client) (net : Network) (earlier : List Exchange)
    (c : ProviderConfig) (o : Provider.Options) :
    (Defective c → ∃ reason,
      Provider.discover client net earlier c o = ⟨.error (.invalidConfig reason), [], []⟩) ∧
    (¬Defective c → Decided client net earlier c o) :=
  ⟨discover_of_defective, decided_of_not_defective⟩

/-- **Not all that is unusable is refused at once.** With an empty audience the issuer is asked for
its document, and if it cannot be reached the fault is not that of the configuration. -/
theorem not_forall_unusable_refused : ¬ ∀ (client : Client) (net : Network) (earlier : List Exchange)
    (c : ProviderConfig) (o : Provider.Options), Defective c ∨ "" ∈ c.audiences →
      (∃ reason, (Provider.discover client net earlier c o).result = .error (.invalidConfig reason)) ∧
        (Provider.discover client net earlier c o).exchanges = [] := by
  intro h
  obtain ⟨-, hsilent⟩ := h ⟨0⟩ .unreachable [] ⟨"http://a", ["x", ""], false, false, none⟩ .default
    (Or.inr (by decide))
  revert hsilent
  decide +kernel

end TokenGate.Proofs.Registry.Defects
