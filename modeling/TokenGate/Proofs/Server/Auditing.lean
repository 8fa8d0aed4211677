import TokenGate.Proofs.Auth.AuditLines
import TokenGate.Proofs.Auth.Requests
import TokenGate.Proofs.Server.Guard

/-! # One record for each request

A gate writes one audit record for each request to a path that is not public, and none for any
other. The record agrees with what becomes of the request (`Truthful`): who is let in is named by
it, with the issuer whose provider has vouched, and who is not is told the reason that it gives.
This holds of every request of a sequence, since each one leaves the registry as it was loaded, but
for the keys in the caches (`records_truthful`). -/

namespace TokenGate.Proofs.Server.Auditing

open TokenGate.Http TokenGate.Token TokenGate.Load TokenGate.Server TokenGate.Proofs.Results
open TokenGate.Proofs.Registry.History TokenGate.Proofs.Registry.Loaded
open TokenGate.Proofs.Verify.Agreement TokenGate.Proofs.Auth.Soundness
open TokenGate.Proofs.Auth.Requests TokenGate.Proofs.Auth.Passage TokenGate.Proofs.Auth.Records
open TokenGate.Proofs.Server.Guard

/-- The texts of the audit records among some events. -/
def auditTexts (events : List Journal.Event) : List String :=
  events.filterMap fun
    | .audit text => some text
    | _ => none

/-! ### What a record has to say -/

/-- A record names the identity that was let in, and the issuer that the verified claims and the
provider that verified them have. -/
structure Vouched (v : Visit) (a : Audit) (i : Identity) : Prop where
  principal : a.principal = some i.principalId
  groups : a.groups = some i.groups
  reason : a.reason = none
  issuer : ∃ token p audience claims j, Presents v.request token ∧
    v.registry.get? p.issuer = some p ∧
    (p.verifier.verify v.clock v.net token audience).1.verdict = .ok claims ∧
    Principal.identify claims = .ok j ∧ i = j.withToken token ∧
    claims.get? "iss" = some (.string p.issuer) ∧ a.issuer = some p.issuer

/-- A record names nobody, and gives the reason that the challenge gives. It names the issuer that
the token claims, if a token that can be routed was presented. -/
structure Explained (v : Visit) (a : Audit) : Prop where
  principal : a.principal = none
  groups : a.groups = none
  reason : ∃ f, a.reason = some f.code ∧ ∀ inner, Challenges f (handled inner v).response
  issuer : ∀ issuer, a.issuer = some issuer ↔ ∃ token peek, Presents v.request token ∧
    Peek.ofToken token = .ok peek ∧ peek.issuer = issuer

/-- A record agrees with what becomes of a visit. -/
structure Truthful (v : Visit) (a : Audit) : Prop where
  path : a.path = v.request.path
  authenticated : a.event = "auth.authenticated" ↔ ∃ i, Runs v (some i)
  rejected : a.event = "auth.rejected" ↔ ¬∃ i, Runs v (some i)
  accepted : ∀ i, Runs v (some i) → Vouched v a i
  refused : (¬∃ i, Runs v (some i)) → Explained v a

/-- A visit leaves one truthful record, or none if the path is public, whatever handler is behind
the gate. -/
structure Audited (v : Visit) : Prop where
  silent : v.IsPublic → ∀ inner, auditTexts (handled inner v).events = []
  recorded : ¬v.IsPublic → ∃ a text, Truthful v a ∧ Tells text a ∧
    ∀ inner, auditTexts (handled inner v).events = [text]

/-! ### One visit -/

variable {v : Visit} {f : Rejection} {i : Identity}

theorem events_handled (inner : Inner) (v : Visit) : (handled inner v).events = v.judged.events := rfl

/-- The call that a visit makes if it presents a token. -/
def tokenCall (v : Visit) (token : String) : Call := ⟨v.gate.limit, v.clock, v.net, token⟩

theorem authentication_of_presents {token : String} (h : Presents v.request token) :
    v.authentication = (tokenCall v token).run v.registry := by
  rw [Visit.authentication, Gate.authenticate, bearer_eq_ok.mpr h]
  rfl

theorem authentication_of_none (h : ∀ token, ¬Presents v.request token) :
    ∃ f, v.authentication = Authentication.reject v.registry none f := by
  cases hb : v.request.bearer with
  | ok token => exact absurd (bearer_eq_ok.mp hb) (h token)
  | error f =>
    refine ⟨f, ?_⟩
    rw [Visit.authentication, Gate.authenticate, hb]

/-- **The issuer that is reported** is the one that the presented token claims. -/
theorem issuer_authentication {issuer : String} : v.authentication.issuer = some issuer ↔
    ∃ token peek, Presents v.request token ∧ Peek.ofToken token = .ok peek ∧ peek.issuer = issuer := by
  by_cases hnone : ∀ token, ¬Presents v.request token
  · obtain ⟨f, hf⟩ := authentication_of_none hnone
    rw [hf]
    constructor
    · intro h
      cases h
    · rintro ⟨token, -, htoken, -⟩
      exact absurd htoken (hnone token)
  · obtain ⟨token, htoken⟩ := not_forall_not.mp hnone
    rw [authentication_of_presents htoken, issuer_run, claimed?_eq_some]
    constructor
    · rintro ⟨peek, hpeek, hissuer⟩
      exact ⟨token, peek, htoken, hpeek, hissuer⟩
    · rintro ⟨token', peek, htoken', hpeek, hissuer⟩
      obtain rfl : token = token' :=
        Except.ok.inj ((bearer_eq_ok.mpr htoken).symm.trans (bearer_eq_ok.mpr htoken'))
      exact ⟨peek, hpeek, hissuer⟩

theorem not_runs_of_error (hf : v.judged.decision = .refuse f) (o : Option Identity) : ¬Runs v o := by
  intro h
  cases hf.symm.trans (runs_iff.mp h)

/-- **The record of a rejection** is truthful, whatever the registry is. -/
theorem truthful_of_error (h : ¬v.IsPublic) (hf : v.authentication.result = .error f) :
    Truthful v (Audit.rejected f v.authentication.issuer v.request.path) := by
  have hrefuse := decision_of_error h hf
  have hruns : ¬∃ i, Runs v (some i) := fun ⟨i, hi⟩ => not_runs_of_error hrefuse _ hi
  have hevent : ("auth.rejected" : String) ≠ "auth.authenticated" := by decide
  refine ⟨rfl, iff_of_false hevent hruns, iff_of_true rfl hruns,
    fun i hi => absurd ⟨i, hi⟩ hruns, fun _ => ⟨rfl, rfl, ⟨f, rfl, fun inner => ?_⟩, fun issuer => ?_⟩⟩
  · rw [response_of_refuse hrefuse]
    exact challenges_unauthorized f
  · exact issuer_authentication

section Loaded

variable {client : Client} {net : Network} {a : AuthConfig} {r : Registry}

/-- **The record of an identity** is truthful if the registry was loaded, with any keys in its
caches. -/
theorem truthful_of_ok (hload : (loadProviders client net a).result = .ok r)
    (hstate : SameButCaches r v.registry) (h : ¬v.IsPublic) (hi : v.authentication.result = .ok i) :
    Truthful v (Audit.authenticated i v.authentication.issuer v.request.path) := by
  have hpass := decision_of_ok h hi
  have hruns : ∃ i, Runs v (some i) := ⟨i, runs_iff.mpr hpass⟩
  have hevent : ("auth.authenticated" : String) ≠ "auth.rejected" := by decide
  refine ⟨rfl, iff_of_true rfl hruns, iff_of_false hevent (not_not.mpr hruns), fun i' hi' => ?_,
    fun hnot => absurd hruns hnot⟩
  obtain rfl : i = i' := Option.some.inj (Gate.Decision.pass.inj (hpass.symm.trans (runs_iff.mp hi')))
  -- The provider that was asked is the one that the token claims, and its verifier checks the claim.
  obtain ⟨token, htoken, hresult⟩ := authentication_eq_ok.mp hi
  obtain ⟨peek, p, audience, claims, j, hpeek, hp, -, hverdict, hj, hij⟩ :=
    run_eq_ok (c := tokenCall v token) hresult
  obtain ⟨c, -, hissuer, mode, uri, cached, -, rfl⟩ := built_of_sameButCaches hload hstate hp
  have hagrees := verified_agrees_with_peek _ _ _ _ _ _ _ hpeek hverdict
  have hreported : v.authentication.issuer = some peek.issuer :=
    issuer_authentication.mpr ⟨token, peek, htoken, hpeek, rfl⟩
  rw [← hissuer] at hp hreported
  refine ⟨rfl, rfl, rfl, token, _, audience, claims, j, htoken, hp, hverdict, hj, hij, ?_, hreported⟩
  exact hagrees.issuer.trans (congrArg (some ∘ Json.string) hissuer.symm)

/-- **A visit leaves one truthful record**, or none if the path is public. -/
theorem audited_of_state (hload : (loadProviders client net a).result = .ok r)
    (hstate : SameButCaches r v.registry) : Audited v where
  silent h inner := by
    rw [handled_of_public h]
    rfl
  recorded h := by
    cases hresult : v.authentication.result with
    | ok i =>
      refine ⟨_, _, truthful_of_ok hload hstate h hresult, tells_render _, fun inner => ?_⟩
      rw [events_handled, judged_of_ok h hresult]
      rfl
    | error f =>
      refine ⟨_, _, truthful_of_error h hresult, tells_render _, fun inner => ?_⟩
      rw [events_handled, judged_of_error h hresult]
      rfl

end Loaded

/-! ### All visits -/

/-- A request that comes to a gate, with the time and the network that it finds. -/
structure Arrival where
  clock : Clock
  net : Network
  request : Request

/-- What happens at a gate while requests come one after another: each finds the registry as the one
before has left it. -/
def visits (g : Gate) (r : Registry) : List Arrival → List Visit
  | [] => []
  | a :: rest =>
    let v : Visit := ⟨g, r, a.clock, a.net, a.request⟩
    v :: visits g v.judged.registry rest

/-- What is written down while requests come to a gate in front of a handler. -/
def journal (inner : Inner) (g : Gate) (r : Registry) : List Arrival → List Journal.Event
  | [] => []
  | a :: rest =>
    let h := guarded g inner r a.clock a.net a.request
    h.events ++ journal inner g h.registry rest

theorem journal_eq_flatMap (inner : Inner) (g : Gate) (r : Registry) (arrivals : List Arrival) :
    journal inner g r arrivals =
      (visits g r arrivals).flatMap fun v => (handled inner v).events := by
  induction arrivals generalizing r with
  | nil => rfl
  | cons a arrivals ih =>
    rw [journal, visits, List.flatMap_cons, ih]
    rfl

theorem sameButCaches_authentication {r : Registry} (hstate : SameButCaches r v.registry) :
    SameButCaches r v.authentication.registry := by
  by_cases hnone : ∀ token, ¬Presents v.request token
  · obtain ⟨f, hf⟩ := authentication_of_none hnone
    rw [hf]
    exact hstate
  · obtain ⟨token, htoken⟩ := not_forall_not.mp hnone
    rw [authentication_of_presents htoken]
    exact sameButCaches_run hstate _

theorem sameButCaches_judged {r : Registry} (hstate : SameButCaches r v.registry) :
    SameButCaches r v.judged.registry := by
  have hauthentication := sameButCaches_authentication hstate
  by_cases h : v.IsPublic
  · rw [judged_of_public h]
    exact hstate
  · cases hresult : v.authentication.result with
    | ok i => rwa [judged_of_ok h hresult]
    | error f => rwa [judged_of_error h hresult]

theorem sameButCaches_of_mem_visits {r r' : Registry} {g : Gate} {arrivals : List Arrival}
    (hstate : SameButCaches r r') (hv : v ∈ visits g r' arrivals) : SameButCaches r v.registry := by
  induction arrivals generalizing r' with
  | nil => cases hv
  | cons a arrivals ih =>
    rw [visits] at hv
    rcases List.mem_cons.mp hv with rfl | hv
    · exact hstate
    · exact ih (sameButCaches_judged (v := ⟨g, r', a.clock, a.net, a.request⟩) hstate) hv

/-- **Records are truthful.** Requests come to a gate one after another, and find a loaded registry
with whatever keys in its caches. Each one to a path that is not public leaves exactly one audit
record, which agrees with what becomes of the request, and each other one leaves none. Nothing else
is written down. -/
theorem records_truthful {client : Client} {net : Network} {a : AuthConfig} {r r' : Registry}
    (hload : (loadProviders client net a).result = .ok r) (hstate : SameButCaches r r') (g : Gate)
    (arrivals : List Arrival) :
    (∀ v ∈ visits g r' arrivals, Audited v) ∧
      ∀ inner, auditTexts (journal inner g r' arrivals) =
        (visits g r' arrivals).flatMap fun v => auditTexts (handled inner v).events := by
  refine ⟨fun v hv => audited_of_state hload (sameButCaches_of_mem_visits hstate hv), fun inner => ?_⟩
  rw [journal_eq_flatMap, auditTexts, List.filterMap_flatMap]
  rfl

/-- Three requests: one to a public path, one with a token that is accepted, and one with a token of
an issuer that is not registered. -/
def threeArrivals : List Arrival :=
  [("", "/health"), (unsignedCall.token, "/v1/whoami"), (tokenOfA, "/v1/whoami")].map
    fun (token, path) => ⟨⟨1700000000, 0⟩, documentNetwork, (tokenVisit token path .empty).request⟩

/-- What the three requests leave: a record of who came, and one of why the last was rejected. -/
def threeTexts : List String :=
  ["\x7b\"event\":\"auth.authenticated\",\"principal\":\"u@d\",\"issuer\":\"http://b\","
      ++ "\"groups\":[\"g@d\"],\"path\":\"/v1/whoami\"\x7d",
    "\x7b\"event\":\"auth.rejected\",\"issuer\":\"a\",\"reason\":\"unknown_issuer\","
      ++ "\"path\":\"/v1/whoami\"\x7d"]

theorem records_truthful_three : ∃ r,
    (loadProviders ⟨0⟩ documentNetwork checkedAndUnchecked).result = .ok r ∧
    SameButCaches r (after r [signedCall]) ∧
    (∀ v ∈ visits ⟨["/health"], 10⟩ (after r [signedCall]) threeArrivals, Audited v) ∧
    auditTexts (journal (fun _ _ _ => ⟨200, [], ""⟩) ⟨["/health"], 10⟩ (after r [signedCall])
      threeArrivals) = threeTexts := by
  have hrun : ((loadProviders ⟨0⟩ documentNetwork checkedAndUnchecked).result.toOption.map fun r =>
      auditTexts (journal (fun _ _ _ => ⟨200, [], ""⟩) ⟨["/health"], 10⟩ (after r [signedCall])
        threeArrivals)) = some threeTexts := by
    decide +kernel
  obtain ⟨r, hr, htexts⟩ := Option.map_eq_some_iff.mp hrun
  rw [toOption_eq_some] at hr
  have hstate := sameButCaches_after hr [signedCall]
  exact ⟨r, hr, hstate, (records_truthful hr hstate _ _).1, htexts⟩

end TokenGate.Proofs.Server.Auditing
