import TokenGate.Proofs.Registry.Trust
import TokenGate.Settings.Config

/-! # Layers of settings for the default provider

Layers of settings can be put together before they are applied, in their order (`overlay_assoc`),
and what all of them say is said once (`overlay_overlay_self`). Each text is the last one that a
layer sets, and the flag is on if one layer switches it on. A text that is set to nothing takes the
place of an earlier one like any other, and counts as not set when the settings become a
configuration (`overrides_layered`). -/

namespace TokenGate.Proofs.Settings.Overrides

open TokenGate.Proofs.Results TokenGate.Proofs.Registry.Discovery TokenGate.Proofs.Registry.Trust

/-- The text of a setting, if it is set and not empty. -/
def text? (o : Option String) : Option String := o.filter (· ≠ "")

theorem text?_some (s : String) : text? (some s) = if s = "" then none else some s := by
  rw [text?, Option.filter_some]
  by_cases hs : s = "" <;> simp [hs]

theorem text?_eq_some {o : Option String} {s : String} : text? o = some s ↔ o = some s ∧ s ≠ "" := by
  rw [text?, Option.filter_eq_some_iff, decide_eq_true_eq]

variable {base layer layer' d : DefaultProvider} {layers : List DefaultProvider}

/-! ### Layers -/

@[simp] theorem empty_overlay (layer : DefaultProvider) :
    DefaultProvider.empty.overlay layer = layer := by
  simp [DefaultProvider.overlay, DefaultProvider.empty]

/-- **Two layers in turn are their overlay.** -/
theorem overlay_assoc (base layer layer' : DefaultProvider) :
    (base.overlay layer).overlay layer' = base.overlay (layer.overlay layer') := by
  simp [DefaultProvider.overlay, Option.or_assoc, Bool.or_assoc]

theorem overlay_overlay_self (base layer : DefaultProvider) :
    (base.overlay layer).overlay layer = base.overlay layer := by
  have hor : ∀ o o' : Option String, o.or (o.or o') = o.or o' := by
    rintro (_ | s) o' <;> rfl
  simp [DefaultProvider.overlay, hor]

theorem foldl_overlay (base : DefaultProvider) (layers : List DefaultProvider) :
    layers.foldl .overlay base = base.overlay (layers.foldl .overlay .empty) := by
  induction layers generalizing base with
  | nil => simp [DefaultProvider.overlay, DefaultProvider.empty]
  | cons layer layers ih =>
    rw [List.foldl_cons, List.foldl_cons, ih, ih (DefaultProvider.empty.overlay layer), empty_overlay,
      overlay_assoc]

theorem foldl_overlay_twice (base : DefaultProvider) (layers : List DefaultProvider) :
    (layers ++ layers).foldl .overlay base = layers.foldl .overlay base := by
  rw [List.foldl_append, foldl_overlay base, foldl_overlay (base.overlay _), overlay_overlay_self]

/-- **A text is the last one that a layer sets**, or that of the base. -/
theorem text_foldl_overlay {proj : DefaultProvider → Option String}
    (hproj : ∀ base layer, proj (base.overlay layer) = (proj layer).or (proj base))
    (base : DefaultProvider) (layers : List DefaultProvider) :
    proj (layers.foldl .overlay base) = (layers.filterMap proj).getLast?.or (proj base) := by
  induction layers generalizing base with
  | nil => rfl
  | cons layer layers ih =>
    rw [List.foldl_cons, ih, hproj]
    cases hlayer : proj layer with
    | none => rw [List.filterMap_cons_none hlayer, Option.none_or]
    | some s =>
      rw [List.filterMap_cons_some hlayer, List.getLast?_cons, Option.some_or]
      cases (layers.filterMap proj).getLast? <;> rfl

/-- **The flag is on if it is switched on once.** -/
theorem skipIssuerVerify_foldl_overlay (base : DefaultProvider) (layers : List DefaultProvider) :
    (layers.foldl .overlay base).skipIssuerVerify = true ↔
      base.skipIssuerVerify = true ∨ ∃ layer ∈ layers, layer.skipIssuerVerify = true := by
  induction layers generalizing base with
  | nil => simp
  | cons layer layers ih =>
    rw [List.foldl_cons, ih, DefaultProvider.overlay, Bool.or_eq_true, List.exists_mem_cons_iff, or_assoc]

/-! ### Sections with layers -/

theorem foldl_override (a : AuthConfig) (layers : List DefaultProvider) :
    layers.foldl .override a =
      { a with defaultProvider := layers.foldl .overlay a.defaultProvider } := by
  induction layers generalizing a with
  | nil => rfl
  | cons layer layers ih => rw [List.foldl_cons, ih]; rfl

/-! ### The configuration of the settings -/

theorem clients_eq (d : DefaultProvider) :
    d.clients = (text? d.clientId).toList ++ (text? d.deviceClientId).toList := by
  have htoList : ∀ o : Option String, o.toList.filter (· ≠ "") = (text? o).toList := by
    rintro (_ | s)
    · rfl
    · by_cases hs : s = "" <;> simp [text?_some, hs]
  rw [DefaultProvider.clients, List.filter_append, htoList, htoList]

theorem clients_eq_nil : d.clients = [] ↔ text? d.clientId = none ∧ text? d.deviceClientId = none := by
  rw [clients_eq, List.append_eq_nil_iff, Option.toList_eq_nil_iff, Option.toList_eq_nil_iff]

theorem empty_notMem_clients (d : DefaultProvider) : "" ∉ d.clients := by
  rw [DefaultProvider.clients, List.mem_filter]
  simp

/-- **What settings stand for** is decided by the texts that are set and not empty. -/
theorem toConfig_eq (d : DefaultProvider) : d.toConfig =
    match text? d.issuer with
    | none => .ok none
    | some issuer =>
      if text? d.clientId = none ∧ text? d.deviceClientId = none then .error .noClientIds
      else .ok (some ⟨issuer, (text? d.clientId).toList ++ (text? d.deviceClientId).toList,
        d.skipIssuerVerify, false, none⟩) := by
  rw [DefaultProvider.toConfig, ← clients_eq]
  simp only [← clients_eq_nil]
  cases d.issuer with
  | none => rfl
  | some issuer => by_cases hissuer : issuer = "" <;> simp [text?_some, hissuer]

/-- A configuration of the default provider: it can be used by a provider with any verifier, and
leaves no signature unchecked. -/
structure IsDefault (d : DefaultProvider) (c : ProviderConfig) : Prop where
  issuer : text? d.issuer = some c.issuer
  audiences : c.audiences = (text? d.clientId).toList ++ (text? d.deviceClientId).toList
  trustMode : ∃ mode, c.trustMode = .ok mode ∧ mode.skipsSignature = false ∧
    mode.skipsIssuerCheck = d.skipIssuerVerify ∧
    ∀ verifier, ∃ p, Provider.make c.issuer c.audiences mode verifier = .ok p

/-- What becomes of the settings of the default provider. -/
structure Converts (d : DefaultProvider) : Prop where
  absent : d.toConfig = .ok none ↔ text? d.issuer = none
  clientless : d.toConfig = .error .noClientIds ↔
    text? d.issuer ≠ none ∧ text? d.clientId = none ∧ text? d.deviceClientId = none
  present : text? d.issuer ≠ none → ¬(text? d.clientId = none ∧ text? d.deviceClientId = none) →
    ∃ c, d.toConfig = .ok (some c) ∧ IsDefault d c

theorem isDefault_of_texts {issuer : String} (hissuer : text? d.issuer = some issuer)
    (hclients : d.clients ≠ []) :
    IsDefault d ⟨issuer, d.clients, d.skipIssuerVerify, false, none⟩ := by
  refine ⟨hissuer, clients_eq d, ?_⟩
  have hvalid : Provider.validate issuer d.clients = .ok () :=
    validate_eq_ok.mpr ⟨(text?_eq_some.mp hissuer).2, hclients, empty_notMem_clients d⟩
  have hmake : ∀ mode verifier, ∃ p, Provider.make issuer d.clients mode verifier = .ok p :=
    fun mode verifier => ⟨_, make_eq_ok.mpr ⟨hvalid, rfl⟩⟩
  cases hskip : d.skipIssuerVerify with
  | false => exact ⟨.strict, rfl, rfl, rfl, hmake _⟩
  | true => exact ⟨.skipIssuerVerification, rfl, rfl, rfl, hmake _⟩

theorem converts (d : DefaultProvider) : Converts d := by
  have hconfig := toConfig_eq d
  rw [← clients_eq] at hconfig
  cases hissuer : text? d.issuer with
  | none =>
    rw [hissuer] at hconfig
    constructor <;> simp [hconfig, hissuer]
  | some issuer =>
    rw [hissuer] at hconfig
    dsimp only at hconfig
    by_cases hclients : text? d.clientId = none ∧ text? d.deviceClientId = none
    · rw [if_pos hclients] at hconfig
      constructor <;> simp [hconfig, hissuer, hclients]
    · rw [if_neg hclients] at hconfig
      refine ⟨by simp [hconfig, hissuer], by simp [hconfig, hclients], fun _ _ => ⟨_, hconfig, ?_⟩⟩
      exact isDefault_of_texts hissuer fun h => hclients (clients_eq_nil.mp h)

/-- **Settings in layers.** Each text of the default provider is the last one that an override sets,
or that of the section; the flag is on if the section or an override switches it on. Nothing else of
the section changes, and so not whether it is valid. To apply overrides twice is to apply them once,
and two in turn are their overlay. What becomes of the settings then is decided by the texts that
are set and not empty. -/
theorem overrides_layered (a : AuthConfig) (layers : List DefaultProvider) :
    let r := layers.foldl AuthConfig.override a
    (r.defaultProvider.issuer = (layers.filterMap (·.issuer)).getLast?.or a.defaultProvider.issuer ∧
      r.defaultProvider.clientId =
        (layers.filterMap (·.clientId)).getLast?.or a.defaultProvider.clientId ∧
      r.defaultProvider.deviceClientId =
        (layers.filterMap (·.deviceClientId)).getLast?.or a.defaultProvider.deviceClientId ∧
      (r.defaultProvider.skipIssuerVerify = true ↔ a.defaultProvider.skipIssuerVerify = true ∨
        ∃ layer ∈ layers, layer.skipIssuerVerify = true)) ∧
    (r = { a with defaultProvider := r.defaultProvider } ∧
      ∀ server, Config.validate ⟨server, r⟩ = Config.validate ⟨server, a⟩) ∧
    (layers ++ layers).foldl AuthConfig.override a = r ∧
    (∀ layer layer', (a.override layer).override layer' = a.override (layer.overlay layer')) ∧
    Converts r.defaultProvider := by
  intro r
  have hr : r = { a with defaultProvider := layers.foldl .overlay a.defaultProvider } :=
    foldl_override a layers
  refine ⟨⟨?_, ?_, ?_, ?_⟩, ⟨?_, fun server => ?_⟩, ?_, fun layer layer' => ?_, converts _⟩
  · rw [hr]
    exact text_foldl_overlay (fun _ _ => rfl) _ _
  · rw [hr]
    exact text_foldl_overlay (fun _ _ => rfl) _ _
  · rw [hr]
    exact text_foldl_overlay (fun _ _ => rfl) _ _
  · rw [hr]
    exact skipIssuerVerify_foldl_overlay _ _
  · rw [hr]
  · rw [hr]
    rfl
  · rw [foldl_override, foldl_overlay_twice, hr]
  · rw [AuthConfig.override, AuthConfig.override, AuthConfig.override, overlay_assoc]

end TokenGate.Proofs.Settings.Overrides
