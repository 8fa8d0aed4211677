import TokenGate.Http.Fetch
import TokenGate.Journal.Event
import TokenGate.Json.Basic
import TokenGate.Json.Entry
import TokenGate.Provider.Config
import TokenGate.Verify.Verifier

/-!
# Providers

A provider has an issuer, the audiences that it accepts, a trust mode and a verifier. It is made
from a verifier that is given, or discovered from its configuration. Either way the issuer is not
empty, and there are audiences, none of them empty.
-/

/-!
## Discovery: what a provider says about itself

A provider publishes a document at a well-known place below its issuer. Of it the issuer, the place
of the keys and the algorithms are read. The issuer in the document has to be the configured one,
unless the trust mode tolerates another.
-/

namespace TokenGate

open TokenGate.Http TokenGate.Json

/-- The document that a provider publishes. -/
structure ProviderMetadata where
  issuer : String
  /-- Where the keys are. -/
  jwksUri : Option String
  /-- The algorithms that the provider may sign with. -/
  algorithms : List String
  deriving DecidableEq, Repr, Inhabited

namespace ProviderMetadata

/-- The place of the document of an issuer. -/
def discoveryUrl (issuer : String) : String :=
  String.ofList (issuer.toList.reverse.dropWhile (· = '/')).reverse
    ++ "/.well-known/openid-configuration"

/-- The record of a document. -/
def toJson (m : ProviderMetadata) : Json :=
  .object [("issuer", .string m.issuer), ("jwks_uri", ProviderConfig.optionalText m.jwksUri),
    ("id_token_signing_alg_values_supported", .strings m.algorithms)]

/-- Reads the record of a document. -/
def shape : Shape ProviderMetadata :=
  Record.shape "ProviderMetadata" default
    [ .needed "issuer" Shape.string fun s m => { m with issuer := s },
      .free "jwks_uri" (Shape.optional Shape.string) fun s m => { m with jwksUri := s },
      .free "id_token_signing_alg_values_supported" (Shape.list Shape.string)
        fun ss m => { m with algorithms := ss } ]

/-- Reads the text of a document. -/
def nodeShape : NodeShape ProviderMetadata :=
  Entry.record "ProviderMetadata" default
    [ .needed "issuer" NodeShape.string fun s m => { m with issuer := s },
      .free "jwks_uri" (NodeShape.optional NodeShape.string) fun s m => { m with jwksUri := s },
      .free "id_token_signing_alg_values_supported" (NodeShape.list NodeShape.string)
        fun ss m => { m with algorithms := ss } ]

/-- The document in an answer. -/
def ofAnswer (issuer : String) (a : Answer) : Except ProviderFault ProviderMetadata :=
  if !isSuccess a.status then .error (.discoveryFailed issuer s!"HTTP {statusLine a.status}")
  else
    match readBytes nodeShape a.body with
    | .ok m => .ok m
    | .error _ =>
      .error (.discoveryFailed issuer s!"invalid document: {(FetchFault.decode a.url).message}")

/-- Holds the issuer of a document against the configured one, and says what is worth noting. -/
def checkIssuer (m : ProviderMetadata) (configured : String) (mode : TrustMode) :
    Except ProviderFault (List Journal.Event) :=
  if m.issuer = configured then .ok []
  else if mode.skipsIssuerCheck then .ok [.issuerMismatch configured m.issuer]
  else
    .error (.discoveryFailed configured
      ("issuer did not match the issuer returned by provider, expected \"" ++ configured
        ++ "\" got \"" ++ m.issuer ++ "\""))

/-- What discovering something does. -/
structure Discovery (α : Type) where
  result : Except ProviderFault α
  exchanges : List Exchange
  events : List Journal.Event

/-- Fetches the document of an issuer and checks it. -/
def discover (client : Client) (net : Network) (earlier : List Exchange) (issuer : String)
    (mode : TrustMode) : Discovery ProviderMetadata :=
  let f := client.get net earlier (discoveryUrl issuer)
  match f.result with
  | .error e => ⟨.error (.discoveryFailed issuer s!"request failed: {e.message}"), f.exchanges, []⟩
  | .ok a =>
    match ofAnswer issuer a with
    | .error e => ⟨.error e, f.exchanges, []⟩
    | .ok m =>
      match m.checkIssuer issuer mode with
      | .error e => ⟨.error e, f.exchanges, []⟩
      | .ok events => ⟨.ok m, f.exchanges, events⟩

end ProviderMetadata

/-! ## Providers -/

/-- A provider of identities. -/
structure Provider where
  issuer : String
  /-- The accepted audiences, the preferred one first. -/
  audiences : List String
  trustMode : TrustMode
  verifier : Verifier

namespace Provider

/-- Says what is wrong with an issuer and its audiences. -/
def validate (issuer : String) (audiences : List String) : Except ProviderFault Unit :=
  if issuer = "" then .error (.invalidConfig "provider URI is empty")
  else if audiences = [] ∨ "" ∈ audiences then
    .error (.invalidConfig s!"provider {issuer} has no usable audiences")
  else .ok ()

/-- The provider with a verifier. -/
def make (issuer : String) (audiences : List String) (mode : TrustMode) (verifier : Verifier) :
    Except ProviderFault Provider := do
  validate issuer audiences
  return ⟨issuer, audiences, mode, verifier⟩

/-- The name of a trust mode in the description of a provider. -/
def modeName : TrustMode → String
  | .strict => "Strict"
  | .skipIssuerVerification => "SkipIssuerVerification"
  | .insecure => "Insecure"

/-- A description of a provider for people. -/
def describe (p : Provider) : String :=
  "Provider \x7b issuer: " ++ Text.Quoted.quote p.issuer ++ ", audiences: "
    ++ Text.Quoted.quoteList p.audiences ++ ", trust_mode: " ++ modeName p.trustMode ++ ", .. \x7d"

/-- The first accepted audience among those of a token. -/
def matchAudience (p : Provider) (audience : List String) : Option String :=
  p.audiences.find? audience.contains

/-! ### Discovery -/

/-- What the verifiers of all discovered providers have in common. -/
structure Options where
  /-- The tolerance for clocks, in seconds. -/
  leeway : UInt64
  /-- How long key sets stay fresh, in seconds. -/
  cacheTtl : UInt64
  /-- The least time between fetches for unknown keys, in seconds. -/
  minRefresh : UInt64
  deriving DecidableEq, Repr

/-- A minute of tolerance, an hour of freshness, ten seconds between fetches. -/
def Options.default : Options := ⟨60, 3600, 10⟩

/-- Says what is wrong with the issuer of a configuration. -/
def validateIssuer (issuer : String) : Except ProviderFault Unit :=
  if issuer = "" then .error (.invalidConfig "provider URI is empty")
  else
    match Url.ofText issuer with
    | .error f => .error (.invalidConfig s!"invalid issuer URL {issuer}: {f.message}")
    | .ok u =>
      if u.isWeb then .ok () else .error (.invalidConfig s!"unsupported issuer scheme in {issuer}")

/-- Says what is wrong with a configuration before anything is fetched, or gives its trust mode. -/
def precheck (c : ProviderConfig) : Except ProviderFault TrustMode := do
  let mode ← c.trustMode
  validateIssuer c.issuer
  if c.audiences = [] then .error (.invalidConfig s!"no audiences configured for {c.issuer}")
  else return mode

/-- What is worth noting about a configuration before discovery. -/
def notices (c : ProviderConfig) (mode : TrustMode) : List Journal.Event :=
  if mode ≠ .strict then [.relaxedTrust c.issuer mode.display]
  else if "https://".toList.isPrefixOf c.issuer.toList then []
  else [.plainIssuer c.issuer]

/-- The provider of a configuration and its document. -/
def assemble (client : Client) (c : ProviderConfig) (o : Options) (mode : TrustMode)
    (m : ProviderMetadata) : Except ProviderFault Provider :=
  match c.jwksUri.or m.jwksUri with
  | none => .error (.invalidConfig s!"no jwks_uri for {c.issuer}: verifier cannot be built")
  | some uri =>
    let keys := Key.Cache.empty client uri (o.cacheTtl.toNat * 1000) (o.minRefresh.toNat * 1000)
    make c.issuer c.audiences mode (.keys ⟨c.issuer, mode, o.leeway, keys⟩)

/-- Discovers the provider of a configuration. -/
def discover (client : Client) (net : Network) (earlier : List Exchange) (c : ProviderConfig)
    (o : Options) : ProviderMetadata.Discovery Provider :=
  match precheck c with
  | .error f => ⟨.error f, [], []⟩
  | .ok mode =>
    let d := ProviderMetadata.discover client net earlier c.issuer mode
    let events := notices c mode ++ d.events
    match d.result.bind (assemble client c o mode) with
    | .error f => ⟨.error f, d.exchanges, events⟩
    | .ok p =>
      ⟨.ok p, d.exchanges, events ++ [.providerReady p.issuer p.audiences mode.display]⟩

end Provider

end TokenGate
