import TokenGate.Settings.Config
import TokenGate.Proofs.Json.Edits
import TokenGate.Proofs.Json.PrintedTokens
import TokenGate.Proofs.Json.Members

/-! # Configurations that are read back

The record of a configuration holds all of it, so that a configuration is read back from its text.
What a value has to say is not much, though: members of other names are ignored, and a member that
only repeats a default may be left out, on every level of the record (`ConfigEdit`). No such edit
makes a difference to what is read (`config_round_trip`). -/

namespace TokenGate.Proofs.Settings.RoundTrip

open TokenGate.Json TokenGate.Proofs.Results TokenGate.Proofs.Json.Members
open TokenGate.Proofs.Json.PrintedTokens TokenGate.Proofs.Json.Printed TokenGate.Proofs.Json.Shapes
open TokenGate.Proofs.Json.Edits

/-! ### Providers -/

theorem canonical_optionalText (o : Option String) :
    canonical (ProviderConfig.optionalText o) = ProviderConfig.optionalText o := by
  cases o <;> rfl

theorem optional_optionalText (o : Option String) :
    Shape.optional Shape.string (ProviderConfig.optionalText o) = .ok o := by
  cases o <;> rfl

theorem exact_optionalText {depth : Nat} (o : Option String) :
    Exact depth (ProviderConfig.optionalText o) := by
  cases o with
  | none => exact .null
  | some s => exact .string s

theorem canonical_provider (p : ProviderConfig) : canonical p.toJson =
    .object [("audiences", .strings p.audiences), ("issuer", .string p.issuer),
      ("jwks_uri", ProviderConfig.optionalText p.jwksUri),
      ("skip_issuer_verify", .bool p.skipIssuerVerify),
      ("skip_signature_verify", .bool p.skipSignatureVerify)] := by
  rw [ProviderConfig.toJson, canonical]
  simp only [canonicalMembers, canonical_strings, canonical_optionalText]
  rfl

theorem shape_provider (p : ProviderConfig) : ProviderConfig.shape (canonical p.toJson) = .ok p := by
  have haudiences := list_strings p.audiences
  have hissuer : Shape.string (.string p.issuer) = .ok p.issuer := rfl
  have huri := optional_optionalText p.jwksUri
  have hskipIssuer : Shape.bool (.bool p.skipIssuerVerify) = .ok p.skipIssuerVerify := rfl
  have hskipSignature : Shape.bool (.bool p.skipSignatureVerify) = .ok p.skipSignatureVerify := rfl
  rw [canonical_provider, ProviderConfig.shape, Record.shape,
    setMembers_of_found rfl (set_free.mpr ⟨_, haudiences, rfl⟩),
    setMembers_of_found rfl (set_free.mpr ⟨_, hissuer, rfl⟩),
    setMembers_of_found rfl (set_free.mpr ⟨_, huri, rfl⟩),
    setMembers_of_found rfl (set_free.mpr ⟨_, hskipIssuer, rfl⟩),
    setMembers_of_found rfl (set_free.mpr ⟨_, hskipSignature, rfl⟩)]
  rfl

theorem exact_provider {depth : Nat} (p : ProviderConfig) : Exact (depth + 2) p.toJson := by
  refine .object fun m hm => ?_
  simp only [List.mem_cons, List.not_mem_nil, or_false] at hm
  rcases hm with rfl | rfl | rfl | rfl | rfl
  · exact .string p.issuer
  · exact exact_strings p.audiences
  · exact .bool p.skipIssuerVerify
  · exact .bool p.skipSignatureVerify
  · exact exact_optionalText p.jwksUri

theorem canonical_defaultProvider (d : DefaultProvider) : canonical d.toJson =
    .object [("client_id", ProviderConfig.optionalText d.clientId),
      ("device_client_id", ProviderConfig.optionalText d.deviceClientId),
      ("issuer", ProviderConfig.optionalText d.issuer),
      ("skip_issuer_verify", .bool d.skipIssuerVerify)] := by
  rw [DefaultProvider.toJson, canonical]
  simp only [canonicalMembers, canonical_optionalText]
  rfl

theorem shape_defaultProvider (d : DefaultProvider) :
    DefaultProvider.shape (canonical d.toJson) = .ok d := by
  have hclient := optional_optionalText d.clientId
  have hdevice := optional_optionalText d.deviceClientId
  have hissuer := optional_optionalText d.issuer
  have hskip : Shape.bool (.bool d.skipIssuerVerify) = .ok d.skipIssuerVerify := rfl
  rw [canonical_defaultProvider, DefaultProvider.shape, Record.shape,
    setMembers_of_found rfl (set_free.mpr ⟨_, hclient, rfl⟩),
    setMembers_of_found rfl (set_free.mpr ⟨_, hdevice, rfl⟩),
    setMembers_of_found rfl (set_free.mpr ⟨_, hissuer, rfl⟩),
    setMembers_of_found rfl (set_free.mpr ⟨_, hskip, rfl⟩)]
  rfl

theorem exact_defaultProvider {depth : Nat} (d : DefaultProvider) : Exact (depth + 1) d.toJson := by
  refine .object fun m hm => ?_
  simp only [List.mem_cons, List.not_mem_nil, or_false] at hm
  rcases hm with rfl | rfl | rfl | rfl
  · exact exact_optionalText d.issuer
  · exact exact_optionalText d.clientId
  · exact exact_optionalText d.deviceClientId
  · exact .bool d.skipIssuerVerify

/-! ### Sections -/

theorem shape_server (s : ServerConfig) : ServerConfig.shape (canonical s.toJson) = .ok s := by
  have hhost : Shape.string (.string s.host) = .ok s.host := rfl
  have hport := uint16_toNat s.port
  have hcanonical : canonical s.toJson =
      .object [("host", .string s.host), ("port", .int s.port.toNat)] := rfl
  rw [hcanonical, ServerConfig.shape, Record.shape,
    setMembers_of_found rfl (set_free.mpr ⟨_, hhost, rfl⟩),
    setMembers_of_found rfl (set_free.mpr ⟨_, hport, rfl⟩)]
  rfl

theorem exact_server {depth : Nat} (s : ServerConfig) : Exact (depth + 1) s.toJson := by
  have hport : s.port.toNat < 65536 := s.port.toNat_lt
  refine .object fun m hm => ?_
  simp only [List.mem_cons, List.not_mem_nil, or_false] at hm
  rcases hm with rfl | rfl
  · exact .string s.host
  · exact .int (by omega)

theorem canonicals_map (vs : List Json) : canonicals vs = vs.map canonical := by
  induction vs with
  | nil => rfl
  | cons v vs ih => rw [canonicals, ih, List.map_cons]

theorem canonical_auth (a : AuthConfig) : canonical a.toJson =
    .object [("default_provider", canonical a.defaultProvider.toJson),
      ("discovery_timeout_secs", .int a.discoveryTimeout.toNat),
      ("jwks_cache_ttl_secs", .int a.jwksCacheTtl.toNat),
      ("jwks_min_refresh_secs", .int a.jwksMinRefresh.toNat),
      ("leeway_secs", .int a.leeway.toNat),
      ("providers", .array (a.providers.map fun p => canonical p.toJson)),
      ("public_paths", .strings a.publicPaths),
      ("verification_timeout_secs", .int a.verificationTimeout.toNat)] := by
  rw [AuthConfig.toJson, canonical]
  have hproviders : canonical (.array (a.providers.map ProviderConfig.toJson)) =
      .array (a.providers.map fun p => canonical p.toJson) := by
    rw [canonical, canonicals_map, List.map_map]
    rfl
  simp only [canonicalMembers, canonical_strings, hproviders]
  rfl

theorem shape_auth (a : AuthConfig) : AuthConfig.shape (canonical a.toJson) = .ok a := by
  have hdefault := shape_defaultProvider a.defaultProvider
  have hproviders : Shape.list ProviderConfig.shape
      (.array (a.providers.map fun p => canonical p.toJson)) = .ok a.providers :=
    list_map fun p _ => shape_provider p
  rw [canonical_auth, AuthConfig.shape, Record.shape,
    setMembers_of_found rfl (set_free.mpr ⟨_, hdefault, rfl⟩),
    setMembers_of_found rfl (set_free.mpr ⟨_, uint64_toNat a.discoveryTimeout, rfl⟩),
    setMembers_of_found rfl (set_free.mpr ⟨_, uint64_toNat a.jwksCacheTtl, rfl⟩),
    setMembers_of_found rfl (set_free.mpr ⟨_, uint64_toNat a.jwksMinRefresh, rfl⟩),
    setMembers_of_found rfl (set_free.mpr ⟨_, uint64_toNat a.leeway, rfl⟩),
    setMembers_of_found rfl (set_free.mpr ⟨_, hproviders, rfl⟩),
    setMembers_of_found rfl (set_free.mpr ⟨_, list_strings a.publicPaths, rfl⟩),
    setMembers_of_found rfl (set_free.mpr ⟨_, uint64_toNat a.verificationTimeout, rfl⟩)]
  rfl

theorem exact_natural {depth : Nat} (n : UInt64) : Exact depth (.int n.toNat) := by
  have hn : n.toNat < 18446744073709551616 := n.toNat_lt
  exact .int (by omega)

theorem exact_auth {depth : Nat} (a : AuthConfig) : Exact (depth + 4) a.toJson := by
  refine .object fun m hm => ?_
  simp only [List.mem_cons, List.not_mem_nil, or_false] at hm
  rcases hm with rfl | rfl | rfl | rfl | rfl | rfl | rfl | rfl
  · exact exact_strings a.publicPaths
  · exact exact_natural a.verificationTimeout
  · exact exact_natural a.discoveryTimeout
  · exact exact_natural a.leeway
  · exact exact_natural a.jwksCacheTtl
  · exact exact_natural a.jwksMinRefresh
  · exact exact_defaultProvider a.defaultProvider
  · refine .array fun v hv => ?_
    obtain ⟨p, -, rfl⟩ := List.mem_map.mp hv
    exact exact_provider p

/-! ### Configurations -/

theorem shape_config (c : Config) : Config.shape (canonical c.toJson) = .ok c := by
  have hserver := shape_server c.server
  have hauth := shape_auth c.auth
  have hcanonical : canonical c.toJson =
      .object [("auth", canonical c.auth.toJson), ("server", canonical c.server.toJson)] := rfl
  rw [hcanonical, Config.shape, Record.shape,
    setMembers_of_found rfl (set_free.mpr ⟨_, hauth, rfl⟩),
    setMembers_of_found rfl (set_free.mpr ⟨_, hserver, rfl⟩)]
  rfl

theorem exact_config (c : Config) : Exact depthLimit c.toJson := by
  refine .object fun m hm => ?_
  simp only [List.mem_cons, List.not_mem_nil, or_false] at hm
  rcases hm with rfl | rfl
  · exact exact_server c.server
  · exact exact_auth c.auth

/-! ### Edits -/

/-- One edit of the record of a provider. -/
def ProviderEdit : Json → Json → Prop :=
  Edit ProviderConfig.empty ProviderConfig.fields fun _ _ _ => False

/-- One edit of the record of the default provider. -/
def DefaultProviderEdit : Json → Json → Prop :=
  Edit DefaultProvider.empty DefaultProvider.fields fun _ _ _ => False

/-- One edit of the record of the listener. -/
def ServerEdit : Json → Json → Prop :=
  Edit ServerConfig.default ServerConfig.fields fun _ _ _ => False

/-- One edit of a value under a name in the record of the authentication section. -/
def AuthMemberEdit : String → Json → Json → Prop
  | "default_provider" => DefaultProviderEdit
  | "providers" => ItemEdit ProviderEdit
  | _ => fun _ _ => False

/-- One edit of the record of the authentication section. -/
def AuthEdit : Json → Json → Prop := Edit AuthConfig.default AuthConfig.fields AuthMemberEdit

/-- One edit of a value under a name in the record of the configuration. -/
def ConfigMemberEdit : String → Json → Json → Prop
  | "server" => ServerEdit
  | "auth" => AuthEdit
  | _ => fun _ _ => False

/-- One edit of the record of the configuration, on whatever level. -/
def ConfigEdit : Json → Json → Prop := Edit Config.default Config.fields ConfigMemberEdit

theorem free_provider : Free ProviderConfig.fields where
  optional := by simp [ProviderConfig.fields]
  apart := by simp [ProviderConfig.fields]
  commute := by simp [ProviderConfig.fields]

theorem free_defaultProvider : Free DefaultProvider.fields where
  optional := by simp [DefaultProvider.fields]
  apart := by simp [DefaultProvider.fields]
  commute := by simp [DefaultProvider.fields]

theorem free_server : Free ServerConfig.fields where
  optional := by simp [ServerConfig.fields]
  apart := by simp [ServerConfig.fields]
  commute := by simp [ServerConfig.fields]

theorem free_auth : Free AuthConfig.fields where
  optional := by simp [AuthConfig.fields]
  apart := by simp [AuthConfig.fields]
  commute := by simp [AuthConfig.fields]

theorem free_config : Free Config.fields where
  optional := by simp [Config.fields]
  apart := by simp [Config.fields]
  commute := by simp [Config.fields]

theorem keeps_auth : Keeps AuthEdit AuthConfig.shape := by
  refine keeps_edit free_auth _ fun f hf v w h a b hset => ?_
  have hdefault : Keeps DefaultProviderEdit DefaultProvider.shape :=
    keeps_edit free_defaultProvider _ fun _ _ _ _ h => h.elim
  have hproviders : Keeps (ItemEdit ProviderEdit) (Shape.list ProviderConfig.shape) :=
    keeps_itemEdit (keeps_edit free_provider _ fun _ _ _ _ h => h.elim)
  simp only [AuthConfig.fields, List.mem_cons, List.not_mem_nil, or_false] at hf
  rcases hf with rfl | rfl | rfl | rfl | rfl | rfl | rfl | rfl
  iterate 6 exact h.elim
  · exact set_free_of_keeps hdefault h hset
  · exact set_free_of_keeps hproviders h hset

theorem keeps_config : Keeps ConfigEdit Config.shape := by
  refine keeps_edit free_config _ fun f hf v w h a b hset => ?_
  have hserver : Keeps ServerEdit ServerConfig.shape :=
    keeps_edit free_server _ fun _ _ _ _ h => h.elim
  simp only [Config.fields, List.mem_cons, List.not_mem_nil, or_false] at hf
  rcases hf with rfl | rfl
  · exact set_free_of_keeps hserver h hset
  · exact set_free_of_keeps keeps_auth h hset

/-- Under the name of each member of a record, an object says no more than the default. -/
def Repeats {α : Type} (start : α) (fields : List (Member α)) (v : Json) : Prop :=
  ∀ f ∈ fields, ((v.get? f.name).bind fun w => (f.set w start).toOption) = some start

/-- **What is printed of a default may be dropped**, member by member. -/
theorem repeats_default :
    Repeats ProviderConfig.empty ProviderConfig.fields ProviderConfig.empty.toJson ∧
      Repeats DefaultProvider.empty DefaultProvider.fields DefaultProvider.empty.toJson ∧
      Repeats ServerConfig.default ServerConfig.fields ServerConfig.default.toJson ∧
      Repeats AuthConfig.default AuthConfig.fields AuthConfig.default.toJson ∧
      Repeats Config.default Config.fields Config.default.toJson := by
  unfold Repeats
  decide +kernel

/-- **Round trip.** A configuration is read back from its text. Every value that is read as it, and
not only its own record, may be edited: on whatever level, members that say no more than the default
may go and members of unknown names may come, any number of them, and it is still read as the
configuration. -/
theorem config_round_trip (c : Config) :
    (∃ v, Json.ofText c.toJson.render = .ok v ∧ Config.shape v = .ok c) ∧
      ∀ v w, Config.shape v = .ok c → Relation.ReflTransGen ConfigEdit v w →
        Config.shape w = .ok c := by
  refine ⟨⟨canonical c.toJson, ?_, shape_config c⟩, fun v w hv hvw => ?_⟩
  · exact ofText_render (exact_config c)
  · exact keeps_reflTransGen keeps_config v w hvw c hv

/-- A configuration of one provider and another port. -/
def smallConfig : Config :=
  ⟨{ ServerConfig.default with port := 80 },
    { AuthConfig.default with providers := [{ ProviderConfig.empty with issuer := "http://a" }] }⟩

/-- Its record, with two members that say no more than the default. -/
def lengthyRecord : Json :=
  .object [("auth", .object [("leeway_secs", .int 60),
      ("providers", .array [.object [("issuer", .string "http://a"), ("jwks_uri", .null)]])]),
    ("server", .object [("port", .int 80)])]

/-- Its record without the two, and with a member that nobody knows. -/
def briefRecord : Json :=
  .object [("auth", .object [("providers", .array [.object [("issuer", .string "http://a")]])]),
    ("server", .object [("port", .int 80)]), ("version", .int 1)]

theorem config_round_trip_brief : Config.shape lengthyRecord = .ok smallConfig ∧
    Relation.ReflTransGen ConfigEdit lengthyRecord briefRecord ∧
    Config.shape briefRecord = .ok smallConfig := by
  have hread : Config.shape lengthyRecord = .ok smallConfig := rfl
  have hleeway : AuthEdit
      (.object [("leeway_secs", .int 60),
        ("providers", .array [.object [("issuer", .string "http://a"), ("jwks_uri", .null)]])])
      (.object [("providers",
        .array [.object [("issuer", .string "http://a"), ("jwks_uri", .null)]])]) :=
    .drop [] _ (f := AuthConfig.fields[3]) (List.getElem_mem _) (by simp) rfl
  have huri : ProviderEdit (.object [("issuer", .string "http://a"), ("jwks_uri", .null)])
      (.object [("issuer", .string "http://a")]) :=
    .drop [("issuer", .string "http://a")] [] (f := ProviderConfig.fields[4]) (List.getElem_mem _)
      (by simp [ProviderConfig.fields]) rfl
  have hproviders : AuthEdit
      (.object [("providers",
        .array [.object [("issuer", .string "http://a"), ("jwks_uri", .null)]])])
      (.object [("providers", .array [.object [("issuer", .string "http://a")]])]) :=
    .member [] [] (show AuthMemberEdit "providers" _ _ from .item [] [] huri)
  have hedits : Relation.ReflTransGen ConfigEdit lengthyRecord briefRecord :=
    .head (.member [] _ (show ConfigMemberEdit "auth" _ _ from hleeway)) <|
      .head (.member [] _ (show ConfigMemberEdit "auth" _ _ from hproviders)) <|
        .single (.add [_, _] [] (.int 1) (by simp [Config.fields]))
  exact ⟨hread, hedits, (config_round_trip smallConfig).2 _ _ hread hedits⟩

end TokenGate.Proofs.Settings.RoundTrip
