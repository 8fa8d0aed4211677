import TokenGate.Text.Printable

/-!
# The journal: what the service writes to its log

An event has a level, a message and named fields, which are texts or numbers. A list of texts is
shown in its quoted form.
-/

namespace TokenGate

/-- How much an event matters. -/
inductive Journal.Level
  | info
  | warn
  | error
  deriving DecidableEq, Repr

/-- The name of a level. -/
def Journal.Level.name : Journal.Level → String
  | .info => "INFO"
  | .warn => "WARN"
  | .error => "ERROR"

/-- The value of a field. -/
inductive Journal.Field
  | text (value : String)
  | number (value : Nat)
  deriving DecidableEq, Repr

/-- A line of the journal. -/
structure Journal.Entry where
  level : Journal.Level
  message : String
  fields : List (String × Journal.Field)
  deriving DecidableEq, Repr

/-- Something worth noting. -/
inductive Journal.Event
  /-- A provider is configured with a relaxed trust mode. -/
  | relaxedTrust (issuer mode : String)
  /-- A provider of strict trust has an issuer without encryption. -/
  | plainIssuer (issuer : String)
  /-- A discovery document names another issuer, and that is accepted. -/
  | issuerMismatch (configured advertised : String)
  | providerReady (issuer : String) (audiences : List String) (mode : String)
  | providerReplaced (issuer : String)
  | defaultDiscarded (reason : String)
  | providerDiscarded (issuer reason : String)
  | registryReady (providers failed : Nat)
  | rejected (code reason path : String)
  /-- The audit record of a request, as a text. -/
  | audit (record : String)
  deriving DecidableEq, Repr

/-- The line of an event. -/
def Journal.Event.entry : Journal.Event → Journal.Entry
  | .relaxedTrust issuer mode =>
    ⟨.warn, "OIDC provider uses relaxed verification",
      [("issuer", .text issuer), ("mode", .text mode)]⟩
  | .plainIssuer issuer => ⟨.warn, "OIDC issuer is not HTTPS", [("issuer", .text issuer)]⟩
  | .issuerMismatch configured advertised =>
    ⟨.warn, "Discovery issuer mismatch tolerated (issuer verification disabled)",
      [("configured", .text configured), ("advertised", .text advertised)]⟩
  | .providerReady issuer audiences mode =>
    ⟨.info, "OIDC provider ready",
      [("issuer", .text issuer), ("audiences", .text (Text.Quoted.quoteList audiences)),
        ("mode", .text mode)]⟩
  | .providerReplaced issuer => ⟨.info, "Replaced OIDC provider", [("issuer", .text issuer)]⟩
  | .defaultDiscarded reason =>
    ⟨.error, "Default OIDC provider discarded", [("error", .text reason)]⟩
  | .providerDiscarded issuer reason =>
    ⟨.error, "OIDC provider discarded", [("issuer", .text issuer), ("error", .text reason)]⟩
  | .registryReady providers failed =>
    ⟨.info, "OIDC provider registry ready",
      [("providers", .number providers), ("failed", .number failed)]⟩
  | .rejected code reason path =>
    ⟨.warn, "Rejected request",
      [("reason", .text code), ("error", .text reason), ("path", .text path)]⟩
  | .audit record => ⟨.info, "auth audit", [("audit", .text record)]⟩

end TokenGate
