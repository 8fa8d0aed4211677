import TokenGate.Provider.Config

/-!
# The configuration of the service

Two sections: where the server listens, and how it authenticates. Everything has a default. A
configuration is usable if both timeouts are positive and every public path starts with a slash.
-/

namespace TokenGate

open TokenGate.Json

/-- Why the service cannot start or go on. -/
inductive ServiceFault
  | config (reason : String)
  /-- No provider is left after the start. -/
  | noProviders (configured failed : Nat)
  | io (reason : String)
  | http (reason : String)
  | internal (reason : String)
  deriving DecidableEq, Repr

/-- The wording of a fault. -/
def ServiceFault.message : ServiceFault → String
  | .config r => s!"Configuration error: {r}"
  | .noProviders configured failed =>
    s!"No usable OIDC provider ({configured} configured, {failed} failed)"
  | .io r => s!"IO error: {r}"
  | .http r => s!"HTTP error: {r}"
  | .internal r => s!"Internal error: {r}"

/-- Where the server listens. -/
structure ServerConfig where
  host : String
  port : UInt16
  deriving DecidableEq, Repr

/-- How the service authenticates. All times are in seconds. -/
structure AuthConfig where
  /-- The prefixes of the paths that need no authentication. -/
  publicPaths : List String
  /-- The limit for verifying one token, key fetches included. -/
  verificationTimeout : UInt64
  /-- The limit for one request of the service. -/
  discoveryTimeout : UInt64
  /-- The tolerance for the clocks of issuers. -/
  leeway : UInt64
  /-- How long a key set stays fresh. -/
  jwksCacheTtl : UInt64
  /-- The least time between fetches for unknown keys. -/
  jwksMinRefresh : UInt64
  defaultProvider : DefaultProvider
  providers : List ProviderConfig
  deriving DecidableEq, Repr

/-- The configuration of the service. -/
structure Config where
  server : ServerConfig
  auth : AuthConfig
  deriving DecidableEq, Repr

/-- All interfaces, port 8080. -/
def ServerConfig.default : ServerConfig := ⟨"0.0.0.0", 8080⟩

/-- No provider, and `/health` as the only public path. -/
def AuthConfig.default : AuthConfig := ⟨["/health"], 10, 10, 60, 3600, 10, .empty, []⟩

/-- The configuration that sets nothing. -/
def Config.default : Config := ⟨.default, .default⟩

instance : Inhabited ServerConfig := ⟨.default⟩
instance : Inhabited AuthConfig := ⟨.default⟩
instance : Inhabited Config := ⟨.default⟩

/-- The configuration with a layer of overrides for the default provider. -/
def AuthConfig.override (a : AuthConfig) (layer : DefaultProvider) : AuthConfig :=
  { a with defaultProvider := a.defaultProvider.overlay layer }

/-- Says what makes a configuration unusable. -/
def Config.validate (c : Config) : Except ServiceFault Unit :=
  if c.auth.verificationTimeout = 0 then
    .error (.config "auth.verification_timeout_secs must be greater than zero")
  else if c.auth.discoveryTimeout = 0 then
    .error (.config "auth.discovery_timeout_secs must be greater than zero")
  else if c.auth.publicPaths.any fun p => p.toList.head? ≠ some '/' then
    .error (.config "auth.public_paths entries must start with '/'")
  else .ok ()

/-! ### As JSON -/

/-- The record of the listener. -/
def ServerConfig.toJson (s : ServerConfig) : Json :=
  .object [("host", .string s.host), ("port", .int s.port.toNat)]

/-- The record of the authentication section. -/
def AuthConfig.toJson (a : AuthConfig) : Json :=
  .object [("public_paths", .strings a.publicPaths),
    ("verification_timeout_secs", .int a.verificationTimeout.toNat),
    ("discovery_timeout_secs", .int a.discoveryTimeout.toNat),
    ("leeway_secs", .int a.leeway.toNat),
    ("jwks_cache_ttl_secs", .int a.jwksCacheTtl.toNat),
    ("jwks_min_refresh_secs", .int a.jwksMinRefresh.toNat),
    ("default_provider", a.defaultProvider.toJson),
    ("providers", .array (a.providers.map ProviderConfig.toJson))]

/-- The record of the configuration. -/
def Config.toJson (c : Config) : Json :=
  .object [("server", c.server.toJson), ("auth", c.auth.toJson)]

/-- The members of the record of the listener. -/
def ServerConfig.fields : List (Member ServerConfig) :=
  [ .free "host" Shape.string fun s c => { c with host := s },
    .free "port" Shape.uint16 fun n c => { c with port := n } ]

/-- Reads the record of the listener. -/
def ServerConfig.shape : Shape ServerConfig := Record.shape "ServerConfig" .default fields

/-- The members of the record of the authentication section. -/
def AuthConfig.fields : List (Member AuthConfig) :=
  [ .free "public_paths" (Shape.list Shape.string) fun ss a => { a with publicPaths := ss },
    .free "verification_timeout_secs" Shape.uint64 fun n a => { a with verificationTimeout := n },
    .free "discovery_timeout_secs" Shape.uint64 fun n a => { a with discoveryTimeout := n },
    .free "leeway_secs" Shape.uint64 fun n a => { a with leeway := n },
    .free "jwks_cache_ttl_secs" Shape.uint64 fun n a => { a with jwksCacheTtl := n },
    .free "jwks_min_refresh_secs" Shape.uint64 fun n a => { a with jwksMinRefresh := n },
    .free "default_provider" DefaultProvider.shape fun d a => { a with defaultProvider := d },
    .free "providers" (Shape.list ProviderConfig.shape) fun ps a => { a with providers := ps } ]

/-- Reads the record of the authentication section. -/
def AuthConfig.shape : Shape AuthConfig := Record.shape "AuthConfig" .default fields

/-- The members of the record of the configuration. -/
def Config.fields : List (Member Config) :=
  [ .free "server" ServerConfig.shape fun s c => { c with server := s },
    .free "auth" AuthConfig.shape fun a c => { c with auth := a } ]

/-- Reads the record of the configuration. -/
def Config.shape : Shape Config := Record.shape "Config" .default fields

end TokenGate
