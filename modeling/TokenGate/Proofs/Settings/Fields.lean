import TokenGate.Proofs.Settings.Layers
import TokenGate.Settings.Load

/-! # The fields of the configuration

The configuration is two records, one of which holds a third; their fields that are no records are
`fields`. Each of them is read from the end of its path (`told_fields`), and together they are the
configuration (`eq_of_fields`). A table is never the value of such a field, and what can be read as
a configuration in each of two layers can be read in both (`mergeable_config`). -/

namespace TokenGate.Proofs.Settings.Fields

open TokenGate.Settings TokenGate.Settings.Setting TokenGate.Settings.Reading
open TokenGate.Proofs.Results TokenGate.Proofs.Settings.Entries TokenGate.Proofs.Settings.Records
open TokenGate.Proofs.Settings.Layers TokenGate.Proofs.Settings.Environment

variable {α β : Type} {s t : Setting} {c c' : Config} {path : Path}

/-! ### Values that are not read from tables -/

/-- A reading that takes no table. -/
def Flat (reading : Reading β) : Prop := ∀ o es, ¬Readable reading (.table o es)

theorem flat_text : Flat text := fun _ _ ⟨_, h⟩ => by cases h

theorem flat_bool : Flat bool := fun _ _ ⟨_, h⟩ => by cases h

theorem flat_natural (bound : Nat) (expected : String) : Flat (natural bound expected) :=
  fun _ _ ⟨_, h⟩ => by cases h

theorem flat_uint16 : Flat uint16 := fun o es ⟨_, h⟩ => by
  obtain ⟨n, hn, -⟩ := map_eq_ok.mp h
  exact flat_natural _ _ o es ⟨n, hn⟩

theorem flat_uint64 : Flat uint64 := fun o es ⟨_, h⟩ => by
  obtain ⟨n, hn, -⟩ := map_eq_ok.mp h
  exact flat_natural _ _ o es ⟨n, hn⟩

theorem flat_list (item : Reading β) : Flat (list item) := fun _ _ ⟨_, h⟩ => by cases h

theorem flat_optional {reading : Reading β} (h : Flat reading) : Flat (optional reading) :=
  fun o es ⟨_, hread⟩ => by
    obtain ⟨b, hb, -⟩ := map_eq_ok.mp hread
    exact h o es ⟨b, hb⟩

/-! ### The records -/

/-- The fields of the listener. -/
def serverSlots : List (Slot ServerConfig) :=
  [ ⟨"host", text, fun s c => { c with host := s }, (·.host)⟩,
    ⟨"port", uint16, fun n c => { c with port := n }, (·.port)⟩ ]

/-- The fields of the default provider. -/
def providerSlots : List (Slot DefaultProvider) :=
  [ ⟨"issuer", optional text, fun s d => { d with issuer := s }, (·.issuer)⟩,
    ⟨"client_id", optional text, fun s d => { d with clientId := s }, (·.clientId)⟩,
    ⟨"device_client_id", optional text, fun s d => { d with deviceClientId := s },
      (·.deviceClientId)⟩,
    ⟨"skip_issuer_verify", bool, fun b d => { d with skipIssuerVerify := b },
      (·.skipIssuerVerify)⟩ ]

/-- The fields of the authentication section. -/
def authSlots : List (Slot AuthConfig) :=
  [ ⟨"public_paths", list text, fun ss a => { a with publicPaths := ss }, (·.publicPaths)⟩,
    ⟨"verification_timeout_secs", uint64, fun n a => { a with verificationTimeout := n },
      (·.verificationTimeout)⟩,
    ⟨"discovery_timeout_secs", uint64, fun n a => { a with discoveryTimeout := n },
      (·.discoveryTimeout)⟩,
    ⟨"leeway_secs", uint64, fun n a => { a with leeway := n }, (·.leeway)⟩,
    ⟨"jwks_cache_ttl_secs", uint64, fun n a => { a with jwksCacheTtl := n }, (·.jwksCacheTtl)⟩,
    ⟨"jwks_min_refresh_secs", uint64, fun n a => { a with jwksMinRefresh := n },
      (·.jwksMinRefresh)⟩,
    ⟨"default_provider", DefaultProvider.reading, fun d a => { a with defaultProvider := d },
      (·.defaultProvider)⟩,
    ⟨"providers", list ProviderConfig.reading, fun ps a => { a with providers := ps },
      (·.providers)⟩ ]

/-- The sections of the configuration. -/
def sections : List (Slot Config) :=
  [ ⟨"server", ServerConfig.reading, fun s c => { c with server := s }, (·.server)⟩,
    ⟨"auth", AuthConfig.reading, fun a c => { c with auth := a }, (·.auth)⟩ ]

theorem serverReading_eq : ServerConfig.reading =
    record "ServerConfig" .default (serverSlots.map Slot.member) := rfl

theorem providerReading_eq : DefaultProvider.reading =
    record "DefaultProviderSettings" .empty (providerSlots.map Slot.member) := rfl

theorem authReading_eq : AuthConfig.reading =
    record "AuthConfig" .default (authSlots.map Slot.member) := rfl

theorem configReading_eq : Config.reading =
    record "Config" .default (sections.map Slot.member) := rfl

theorem apart_iff {f g : Slot α} : Apart f g ↔ f.name ≠ g.name ∧
    (∀ b a, f.get (g.put b a) = f.get a) ∧ ∀ b a, g.get (f.put b a) = g.get a :=
  ⟨fun h => ⟨h.name, h.left, h.right⟩, fun h => ⟨h.1, h.2.1, h.2.2⟩⟩

theorem lawful_server : Lawful serverSlots :=
  ⟨by simp [serverSlots], by simp [serverSlots, apart_iff]⟩

theorem lawful_provider : Lawful providerSlots :=
  ⟨by simp [providerSlots], by simp [providerSlots, apart_iff]⟩

theorem lawful_auth : Lawful authSlots :=
  ⟨by simp [authSlots], by simp [authSlots, apart_iff]⟩

theorem lawful_sections : Lawful sections :=
  ⟨by simp [sections], by simp [sections, apart_iff]⟩

theorem mergeable_server : Mergeable ServerConfig.reading := by
  rw [serverReading_eq]
  refine mergeable_record lawful_server ?_
  simp only [serverSlots, List.forall_mem_cons]
  exact ⟨mergeable_of_flat flat_text, mergeable_of_flat flat_uint16, nofun⟩

theorem mergeable_provider : Mergeable DefaultProvider.reading := by
  rw [providerReading_eq]
  refine mergeable_record lawful_provider ?_
  have htext := mergeable_of_flat (flat_optional flat_text)
  simp only [providerSlots, List.forall_mem_cons]
  exact ⟨htext, htext, htext, mergeable_of_flat flat_bool, nofun⟩

theorem mergeable_auth : Mergeable AuthConfig.reading := by
  rw [authReading_eq]
  refine mergeable_record lawful_auth ?_
  have hnumber := mergeable_of_flat flat_uint64
  simp only [authSlots, List.forall_mem_cons]
  exact ⟨mergeable_of_flat (flat_list _), hnumber, hnumber, hnumber, hnumber, hnumber,
    mergeable_provider, mergeable_of_flat (flat_list _), nofun⟩

/-- **Layers that can be read** can be read over each other. -/
theorem mergeable_config : Mergeable Config.reading := by
  rw [configReading_eq]
  refine mergeable_record lawful_sections ?_
  simp only [sections, List.forall_mem_cons]
  exact ⟨mergeable_server, mergeable_auth, nofun⟩

/-! ### The fields -/

/-- A field of the configuration: where it stands in the settings, how it is read, and where it
stands in the configuration. -/
structure Field where
  {Value : Type}
  path : Path
  reading : Reading Value
  get : Config → Value

/-- The fields that are not records. -/
def fields : List Field :=
  [ ⟨[("server", 0), ("host", 0)], text, (·.server.host)⟩,
    ⟨[("server", 0), ("port", 1)], uint16, (·.server.port)⟩,
    ⟨[("auth", 1), ("public_paths", 0)], list text, (·.auth.publicPaths)⟩,
    ⟨[("auth", 1), ("verification_timeout_secs", 1)], uint64, (·.auth.verificationTimeout)⟩,
    ⟨[("auth", 1), ("discovery_timeout_secs", 2)], uint64, (·.auth.discoveryTimeout)⟩,
    ⟨[("auth", 1), ("leeway_secs", 3)], uint64, (·.auth.leeway)⟩,
    ⟨[("auth", 1), ("jwks_cache_ttl_secs", 4)], uint64, (·.auth.jwksCacheTtl)⟩,
    ⟨[("auth", 1), ("jwks_min_refresh_secs", 5)], uint64, (·.auth.jwksMinRefresh)⟩,
    ⟨[("auth", 1), ("default_provider", 6), ("issuer", 0)], optional text,
      (·.auth.defaultProvider.issuer)⟩,
    ⟨[("auth", 1), ("default_provider", 6), ("client_id", 1)], optional text,
      (·.auth.defaultProvider.clientId)⟩,
    ⟨[("auth", 1), ("default_provider", 6), ("device_client_id", 2)], optional text,
      (·.auth.defaultProvider.deviceClientId)⟩,
    ⟨[("auth", 1), ("default_provider", 6), ("skip_issuer_verify", 3)], bool,
      (·.auth.defaultProvider.skipIssuerVerify)⟩,
    ⟨[("auth", 1), ("providers", 7)], list ProviderConfig.reading, (·.auth.providers)⟩ ]

/-- The name of the variable that sets a field. -/
def Field.variable (f : Field) : String := "ROR_AUTH_" ++ "__".intercalate (names f.path)

/-- **The variable of a field** leads to it. -/
theorem path?_variable : ∀ f ∈ fields, Variable.path? f.variable = some (names f.path) := by
  decide +kernel

theorem flat_fields : ∀ f ∈ fields, Flat f.reading := by
  have htext := flat_optional flat_text
  simp only [fields, List.forall_mem_cons]
  exact ⟨flat_text, flat_uint16, flat_list _, flat_uint64, flat_uint64, flat_uint64, flat_uint64,
    flat_uint64, htext, htext, htext, flat_bool, flat_list _, nofun⟩

/-- **The fields are the configuration.** -/
theorem eq_of_fields (h : ∀ f ∈ fields, f.get c = f.get c') : c = c' := by
  obtain ⟨⟨host, port⟩, ⟨paths, vt, dt, l, ttl, mr, ⟨i, cid, dcid, skip⟩, ps⟩⟩ := c
  obtain ⟨⟨host', port'⟩, ⟨paths', vt', dt', l', ttl', mr', ⟨i', cid', dcid', skip'⟩, ps'⟩⟩ := c'
  simp only [fields, List.forall_mem_cons] at h
  obtain ⟨rfl, rfl, rfl, rfl, rfl, rfl, rfl, rfl, rfl, rfl, rfl, rfl, rfl, -⟩ := h
  rfl

theorem ordered_part? {name : String} {index : Nat} (hs : Ordered s)
    (h : part? name index s = some t) : Ordered t := by
  cases hs with
  | scalar o v => cases h
  | list o heach => exact heach t (List.mem_of_getElem? h)
  | table o hinc heach => exact heach _ (mem_of_lookup? h)

theorem ordered_field? (hs : Ordered s) (h : field? path s = some t) : Ordered t := by
  induction path generalizing s with
  | nil =>
    cases h
    exact hs
  | cons p path ih =>
    obtain ⟨u, hu, h⟩ := Option.bind_eq_some_iff.mp h
    exact ih (ordered_part? hs hu) h

theorem told_part {slots : List (Slot α)} (hlaw : Lawful slots) {type : String} (get : Config → α)
    (hs : Ordered s)
    (h : Told (record type (get .default) (slots.map Slot.member)) get .default (field? path s) c)
    {j : Nat} {f : Slot α} (hj : slots[j]? = some f) :
    Told f.reading (fun c => f.get (get c)) .default (field? (path ++ [(f.name, j)]) s) c := by
  rw [field?_append]
  cases ht : field? path s with
  | none =>
    rw [ht] at h
    exact congrArg f.get h
  | some t =>
    rw [ht] at h
    exact told_of_record hlaw (ordered_field? hs ht) hj h

/-- **A configuration** has its fields from the ends of their paths. -/
theorem told_fields (hs : Ordered s) (h : Config.reading s = .ok c) :
    ∀ f ∈ fields, Told f.reading f.get .default (field? f.path s) c := by
  have hconfig : Told Config.reading id .default (field? [] s) c := h
  have hserver := told_part lawful_sections id hs hconfig (j := 0) rfl
  have hauth := told_part lawful_sections id hs hconfig (j := 1) rfl
  have hprovider := told_part lawful_auth (·.auth) hs hauth (j := 6) rfl
  have server := fun {j f} (hj : serverSlots[j]? = some f) =>
    told_part lawful_server (·.server) hs hserver hj
  have auth := fun {j f} (hj : authSlots[j]? = some f) =>
    told_part lawful_auth (·.auth) hs hauth hj
  have provider := fun {j f} (hj : providerSlots[j]? = some f) =>
    told_part lawful_provider (·.auth.defaultProvider) hs hprovider hj
  simp only [fields, List.forall_mem_cons]
  exact ⟨server (j := 0) rfl, server (j := 1) rfl, auth (j := 0) rfl, auth (j := 1) rfl,
    auth (j := 2) rfl, auth (j := 3) rfl, auth (j := 4) rfl, auth (j := 5) rfl,
    provider (j := 0) rfl, provider (j := 1) rfl, provider (j := 2) rfl, provider (j := 3) rfl,
    auth (j := 7) rfl, nofun⟩

/-! ### Settings of one field -/

section Single

variable {o : Origin} {n : String}

theorem readable_config : Readable Config.reading (.table o [(n, s)]) ↔
    ∀ f ∈ sections, f.name = n → Readable f.reading s := by
  rw [configReading_eq]
  exact readable_single lawful_sections

theorem readable_server : Readable ServerConfig.reading (.table o [(n, s)]) ↔
    ∀ f ∈ serverSlots, f.name = n → Readable f.reading s := by
  rw [serverReading_eq]
  exact readable_single lawful_server

theorem readable_auth : Readable AuthConfig.reading (.table o [(n, s)]) ↔
    ∀ f ∈ authSlots, f.name = n → Readable f.reading s := by
  rw [authReading_eq]
  exact readable_single lawful_auth

theorem readable_provider : Readable DefaultProvider.reading (.table o [(n, s)]) ↔
    ∀ f ∈ providerSlots, f.name = n → Readable f.reading s := by
  rw [providerReading_eq]
  exact readable_single lawful_provider

/-- **A setting of one field** can be read if the field can be read from its value. -/
theorem readable_nest (o : Origin) (s : Setting) :
    ∀ f ∈ fields, Readable Config.reading (nest o s (names f.path)) ↔ Readable f.reading s := by
  simp [fields, names, nest, readable_config, readable_server, readable_auth, readable_provider,
    sections, serverSlots, authSlots, providerSlots]

/-- **A setting of no field**, and of nothing above or below one, can be read. -/
theorem readable_foreign {ns : List String}
    (h : ∀ f ∈ fields, Clear ns (names f.path)) (o : Origin) (s : Setting) :
    Readable Config.reading (nest o s ns) := by
  simp only [fields, List.forall_mem_cons] at h
  obtain ⟨hhost, hport, hpaths, hverification, hdiscovery, hleeway, httl, hrefresh, hissuer, hclient,
    hdevice, hskip, hproviders, -⟩ := h
  rcases ns with _ | ⟨n, ns⟩
  · exact absurd List.nil_prefix hhost.left
  refine readable_config.mpr ?_
  simp only [sections, List.forall_mem_cons]
  refine ⟨?server, ?auth, nofun⟩
  case server =>
    rintro rfl
    rcases ns with _ | ⟨n, ns⟩
    · exact absurd ⟨["host"], rfl⟩ hhost.left
    refine readable_server.mpr ?_
    simp only [serverSlots, List.forall_mem_cons]
    refine ⟨?_, ?_, nofun⟩ <;> rintro rfl
    · exact absurd ⟨ns, rfl⟩ hhost.right
    · exact absurd ⟨ns, rfl⟩ hport.right
  case auth =>
    rintro rfl
    rcases ns with _ | ⟨n, ns⟩
    · exact absurd ⟨["providers"], rfl⟩ hproviders.left
    refine readable_auth.mpr ?_
    simp only [authSlots, List.forall_mem_cons]
    refine ⟨?_, ?_, ?_, ?_, ?_, ?_, ?_, ?_, nofun⟩ <;> rintro rfl
    · exact absurd ⟨ns, rfl⟩ hpaths.right
    · exact absurd ⟨ns, rfl⟩ hverification.right
    · exact absurd ⟨ns, rfl⟩ hdiscovery.right
    · exact absurd ⟨ns, rfl⟩ hleeway.right
    · exact absurd ⟨ns, rfl⟩ httl.right
    · exact absurd ⟨ns, rfl⟩ hrefresh.right
    · rcases ns with _ | ⟨n, ns⟩
      · exact absurd ⟨["issuer"], rfl⟩ hissuer.left
      refine readable_provider.mpr ?_
      simp only [providerSlots, List.forall_mem_cons]
      refine ⟨?_, ?_, ?_, ?_, nofun⟩ <;> rintro rfl
      · exact absurd ⟨ns, rfl⟩ hissuer.right
      · exact absurd ⟨ns, rfl⟩ hclient.right
      · exact absurd ⟨ns, rfl⟩ hdevice.right
      · exact absurd ⟨ns, rfl⟩ hskip.right
    · exact absurd ⟨ns, rfl⟩ hproviders.right

end Single

end TokenGate.Proofs.Settings.Fields
