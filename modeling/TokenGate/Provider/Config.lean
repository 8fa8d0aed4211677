import TokenGate.Json.Shape

/-!
# Provider configuration

Providers are configured one by one, or as the default provider, whose settings come from several
layers: a set value of a later layer replaces that of an earlier one, and the flag can only be
switched on. The default provider exists if an issuer is set and not empty; its audiences are the
client identifiers that are set and not empty, and it never leaves signatures unchecked.
-/

/-!
## Provider faults: why a provider cannot be set up

A provider with one of these faults is left out of the registry, so that its tokens come from an
unknown issuer.
-/

namespace TokenGate

/-- Why a provider cannot be set up. -/
inductive ProviderFault
  /-- The discovery document cannot be fetched, read or trusted. -/
  | discoveryFailed (issuer reason : String)
  /-- The default provider has an issuer, but no client. -/
  | noClientIds
  /-- The configuration contradicts itself or lacks something. -/
  | invalidConfig (reason : String)
  deriving DecidableEq, Repr

/-- The wording of a fault. -/
def ProviderFault.message : ProviderFault → String
  | .discoveryFailed issuer reason => s!"OIDC discovery failed for {issuer}: {reason}"
  | .noClientIds => "No OIDC client IDs configured"
  | .invalidConfig reason => s!"Invalid provider configuration: {reason}"

/-!
## Trust modes: how much of the verification a provider enforces

Every mode checks issuer, audience, expiry and not-before. The relaxed modes are opted into by two
flags, of which the second needs the first.
-/

/-- How much of the verification a provider enforces. -/
inductive TrustMode
  /-- The discovery document must name the configured issuer, and signatures are checked. -/
  | strict
  /-- The discovery document may name another issuer. -/
  | skipIssuerVerification
  /-- Signatures are not checked either. -/
  | insecure
  deriving DecidableEq, Repr, Inhabited

namespace TrustMode

/-- The mode that the two flags ask for. -/
def ofFlags (skipIssuer skipSignature : Bool) : Except ProviderFault TrustMode :=
  match skipIssuer, skipSignature with
  | false, false => .ok .strict
  | true, false => .ok .skipIssuerVerification
  | true, true => .ok .insecure
  | false, true => .error (.invalidConfig "skip_signature_verify requires skip_issuer_verify")

/-- Whether a discovery document that names another issuer is accepted. -/
def skipsIssuerCheck (m : TrustMode) : Bool := m ≠ .strict

/-- Whether signatures go unchecked. -/
def skipsSignature (m : TrustMode) : Bool := m = .insecure

/-- The name of a mode for people. -/
def display : TrustMode → String
  | .strict => "strict"
  | .skipIssuerVerification => "skip-issuer-verification"
  | .insecure => "insecure"

/-- The name of a mode in records. -/
def name : TrustMode → String
  | .strict => "strict"
  | .skipIssuerVerification => "skip_issuer_verification"
  | .insecure => "insecure"

/-- The modes by their names. -/
def names : List (String × TrustMode) :=
  [("strict", .strict), ("skip_issuer_verification", .skipIssuerVerification),
    ("insecure", .insecure)]

/-- A mode by its name. -/
def shape : Json.Shape TrustMode := Json.Shape.choice names

end TrustMode

/-! ## Configurations -/

open TokenGate.Json

/-- The configuration of a provider. -/
structure ProviderConfig where
  /-- The issuer, which is also the key of the registry. -/
  issuer : String
  /-- The accepted audiences, the preferred one first. -/
  audiences : List String
  skipIssuerVerify : Bool
  skipSignatureVerify : Bool
  /-- Where the keys are, if not where the discovery document says. -/
  jwksUri : Option String
  deriving DecidableEq, Repr

namespace ProviderConfig

/-- The configuration that sets nothing. -/
def empty : ProviderConfig := ⟨"", [], false, false, none⟩

instance : Inhabited ProviderConfig := ⟨empty⟩

/-- The trust mode that a configuration asks for. -/
def trustMode (c : ProviderConfig) : Except ProviderFault TrustMode :=
  TrustMode.ofFlags c.skipIssuerVerify c.skipSignatureVerify

/-- A text that may be missing. -/
def optionalText : Option String → Json
  | some s => .string s
  | none => .null

/-- The record of a configuration. -/
def toJson (c : ProviderConfig) : Json :=
  .object [("issuer", .string c.issuer), ("audiences", .strings c.audiences),
    ("skip_issuer_verify", .bool c.skipIssuerVerify),
    ("skip_signature_verify", .bool c.skipSignatureVerify), ("jwks_uri", optionalText c.jwksUri)]

/-- The members of the record of a configuration. -/
def fields : List (Member ProviderConfig) :=
  [ .free "issuer" Shape.string fun s c => { c with issuer := s },
    .free "audiences" (Shape.list Shape.string) fun ss c => { c with audiences := ss },
    .free "skip_issuer_verify" Shape.bool fun b c => { c with skipIssuerVerify := b },
    .free "skip_signature_verify" Shape.bool fun b c => { c with skipSignatureVerify := b },
    .free "jwks_uri" (Shape.optional Shape.string) fun s c => { c with jwksUri := s } ]

/-- Reads the record of a configuration. -/
def shape : Shape ProviderConfig := Record.shape "ProviderConfig" empty fields

end ProviderConfig

/-- The settings of the default provider. -/
structure DefaultProvider where
  issuer : Option String
  /-- The client of the web console. -/
  clientId : Option String
  /-- The client of the device flow. -/
  deviceClientId : Option String
  skipIssuerVerify : Bool
  deriving DecidableEq, Repr

namespace DefaultProvider

/-- The settings that set nothing. -/
def empty : DefaultProvider := ⟨none, none, none, false⟩

instance : Inhabited DefaultProvider := ⟨empty⟩

/-- The settings under a layer of overrides. -/
def overlay (base layer : DefaultProvider) : DefaultProvider where
  issuer := layer.issuer.or base.issuer
  clientId := layer.clientId.or base.clientId
  deviceClientId := layer.deviceClientId.or base.deviceClientId
  skipIssuerVerify := base.skipIssuerVerify || layer.skipIssuerVerify

/-- The client identifiers that are set and not empty. -/
def clients (d : DefaultProvider) : List String :=
  (d.clientId.toList ++ d.deviceClientId.toList).filter (· ≠ "")

/-- The configuration of the default provider, if there is one. -/
def toConfig (d : DefaultProvider) : Except ProviderFault (Option ProviderConfig) :=
  match d.issuer with
  | none => .ok none
  | some issuer =>
    if issuer = "" then .ok none
    else if d.clients = [] then .error .noClientIds
    else .ok (some ⟨issuer, d.clients, d.skipIssuerVerify, false, none⟩)

/-- The record of the settings. -/
def toJson (d : DefaultProvider) : Json :=
  .object [("issuer", ProviderConfig.optionalText d.issuer),
    ("client_id", ProviderConfig.optionalText d.clientId),
    ("device_client_id", ProviderConfig.optionalText d.deviceClientId),
    ("skip_issuer_verify", .bool d.skipIssuerVerify)]

/-- The members of the record of the settings. -/
def fields : List (Member DefaultProvider) :=
  [ .free "issuer" (Shape.optional Shape.string) fun s d => { d with issuer := s },
    .free "client_id" (Shape.optional Shape.string) fun s d => { d with clientId := s },
    .free "device_client_id" (Shape.optional Shape.string) fun s d => { d with deviceClientId := s },
    .free "skip_issuer_verify" Shape.bool fun b d => { d with skipIssuerVerify := b } ]

/-- Reads the record of the settings. -/
def shape : Shape DefaultProvider := Record.shape "DefaultProviderSettings" empty fields

end DefaultProvider

end TokenGate
