import TokenGate.Provider.Basic
import TokenGate.Settings.Config
import Std.Data.TreeMap

/-!
# The registry and how it is loaded

Providers are found by their issuer; which providers there are is said by the configuration.
-/

/-!
## The registry: providers by issuer

A provider is found under the exact text of its key and nowhere else. A later provider under the
same key replaces the earlier one. The keys are listed in increasing order.
-/

namespace TokenGate

/-- The registered providers. -/
structure Registry where
  providers : Std.TreeMap String Provider

namespace Registry

/-- The registry without providers. -/
def empty : Registry := ⟨∅⟩

instance : Inhabited Registry := ⟨empty⟩

/-- The provider under a key. -/
def get? (r : Registry) (key : String) : Option Provider := r.providers[key]?

/-- The registry with a provider under a key. -/
def insert (r : Registry) (key : String) (p : Provider) : Registry := ⟨r.providers.insert key p⟩

@[simp] theorem get?_empty (key : String) : empty.get? key = none := Std.TreeMap.getElem?_emptyc

@[simp] theorem get?_insert (r : Registry) (key : String) (p : Provider) (key' : String) :
    (r.insert key p).get? key' = if key = key' then some p else r.get? key' := by
  unfold get? insert
  rw [Std.TreeMap.getElem?_insert]
  simp only [Std.compare_eq_iff_eq]

/-- What is worth noting when a provider comes under a key. -/
def notices (r : Registry) (key : String) : List Journal.Event :=
  if (r.get? key).isSome then [.providerReplaced key] else []

/-- Puts a provider under a key. -/
def add (r : Registry) (key : String) (p : Provider) : Registry × List Journal.Event :=
  (r.insert key p, r.notices key)

/-- Puts a provider under its issuer. -/
def register (r : Registry) (p : Provider) : Registry × List Journal.Event := r.add p.issuer p

/-- The keys in increasing order. -/
def issuers (r : Registry) : List String := r.providers.keys

theorem mem_issuers (r : Registry) (key : String) : key ∈ r.issuers ↔ (r.get? key).isSome := by
  unfold issuers get?
  rw [Std.TreeMap.mem_keys, Std.TreeMap.mem_iff_isSome_getElem?]

theorem pairwise_issuers (r : Registry) : r.issuers.Pairwise (· < ·) := by
  have hordered : r.providers.keys.Pairwise fun a b => compare a b = .lt := Std.TreeMap.ordered_keys
  exact hordered.imp compareOfLessAndEq_eq_lt.mp

theorem nodup_issuers (r : Registry) : r.issuers.Nodup := Std.TreeMap.nodup_keys

/-- The number of providers. -/
def size (r : Registry) : Nat := r.providers.size

theorem length_issuers (r : Registry) : r.issuers.length = r.size := Std.TreeMap.length_keys

/-- Whether there are no providers. -/
def isEmpty (r : Registry) : Bool := r.providers.isEmpty

theorem isEmpty_iff (r : Registry) : r.isEmpty = true ↔ ∀ key, r.get? key = none := by
  unfold isEmpty get?
  simp only [Std.TreeMap.isEmpty_iff_forall_not_mem, Std.TreeMap.mem_iff_isSome_getElem?,
    Option.not_isSome_iff_eq_none]

/-- The providers with their keys, in the order of the keys. -/
def toList (r : Registry) : List (String × Provider) := r.providers.toList

end Registry

/-!
## Loading: the registry that a configuration describes

The default provider comes first, if there is one, and then the others in their order. Each is
discovered once; those that fail are noted and left out. Settings of the default provider that
describe none although an issuer is set count as one that failed. Without any provider left there is
no registry.

All of this happens at one instant: what is fetched may depend on the exchanges before it, but no
time passes between them.
-/

open TokenGate.Http

namespace Load

/-- How far loading has come. -/
structure Progress where
  registry : Registry
  configured : Nat
  failed : Nat
  exchanges : List Exchange
  events : List Journal.Event

/-- Nothing loaded yet. -/
def Progress.start : Progress := ⟨.empty, 0, 0, [], []⟩

/-- The configurations to discover, with the fault of the default settings if they have one. -/
def plan (a : AuthConfig) : List ProviderConfig × Option ProviderFault :=
  match a.defaultProvider.toConfig with
  | .ok (some c) => (c :: a.providers, none)
  | .ok none => (a.providers, none)
  | .error f => (a.providers, some f)

/-- Notes the fault of the default settings. -/
def Progress.discardDefault (p : Progress) : Option ProviderFault → Progress
  | none => p
  | some f =>
    { p with
      configured := p.configured + 1
      failed := p.failed + 1
      events := p.events ++ [.defaultDiscarded f.message] }

/-- Discovers one more provider. -/
def Progress.next (client : Client) (net : Network) (o : Provider.Options) (p : Progress)
    (c : ProviderConfig) : Progress :=
  let d := Provider.discover client net p.exchanges c o
  let p :=
    { p with
      configured := p.configured + 1
      exchanges := p.exchanges ++ d.exchanges
      events := p.events ++ d.events }
  match d.result with
  | .error f =>
    { p with
      failed := p.failed + 1
      events := p.events ++ [.providerDiscarded c.issuer f.message] }
  | .ok provider =>
    let (registry, events) := p.registry.register provider
    { p with registry := registry, events := p.events ++ events }

/-- The options of all verifiers of a configuration. -/
def options (a : AuthConfig) : Provider.Options := ⟨a.leeway, a.jwksCacheTtl, a.jwksMinRefresh⟩

/-- Goes through all providers of a configuration. -/
def run (client : Client) (net : Network) (a : AuthConfig) : Progress :=
  let (configs, fault) := plan a
  configs.foldl (Progress.next client net (options a)) (Progress.start.discardDefault fault)

/-- What loading does. -/
structure Outcome where
  result : Except ServiceFault Registry
  exchanges : List Exchange
  events : List Journal.Event

end Load

open Load in
/-- Loads the registry of a configuration. -/
def loadProviders (client : Client) (net : Network) (a : AuthConfig) : Load.Outcome :=
  let p := run client net a
  if p.registry.isEmpty then
    ⟨.error (.noProviders p.configured p.failed), p.exchanges, p.events⟩
  else ⟨.ok p.registry, p.exchanges, p.events ++ [.registryReady p.registry.size p.failed]⟩

/-- The client for the requests of a configuration. -/
def AuthConfig.client (a : AuthConfig) : Client := ⟨a.discoveryTimeout.toNat * 1000⟩

end TokenGate
