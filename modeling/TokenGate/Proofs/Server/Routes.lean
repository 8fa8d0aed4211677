import TokenGate.Proofs.Server.Guard

/-! # What the service answers

The service is its routes behind the gate of its configuration, and it names the methods of a route
to a request with another one (`finish_eq`). Only an authenticated caller is told an identity, and
it is the caller's (`whoami_guarded`). A rejected request learns from the status and the text of the
answer nothing about its path; but with a method that reads nothing it learns from the headers
whether the path is a route (`not_forall_routes_hidden`). -/

namespace TokenGate.Proofs.Server.Routes

open TokenGate.Http TokenGate.Server
open TokenGate.Proofs.Results TokenGate.Proofs.Registry.History TokenGate.Proofs.Auth.Soundness
open TokenGate.Proofs.Auth.Passage TokenGate.Proofs.Server.Guard

/-- The visit of a request at the service with a configuration. -/
def visit (c : Config) (r : Registry) (clock : Clock) (net : Network) (q : Request) : Visit :=
  ⟨gate c, r, clock, net, q⟩

/-- The answer of the service to a request. -/
def answer (c : Config) (r : Registry) (clock : Clock) (net : Network) (q : Request) : Response :=
  (handle c r clock net q).response

/-- The methods of a route, for a request with another one. -/
def allowance (method path : String) : List (String × String) :=
  if (path = "/health" ∨ path = "/v1/whoami") ∧ method ≠ "GET" ∧ method ≠ "HEAD" then
    [("allow", "GET,HEAD")]
  else []

/-- The text of an answer, which is left out for `HEAD`. -/
def textFor (method body : String) : String := if method = "HEAD" then "" else body

/-- The answer of `/v1/whoami` to a caller that nobody identified. -/
def anonymous (method : String) : Response :=
  if method = "GET" ∨ method = "HEAD" then
    ⟨500, [("content-type", "text/plain; charset=utf-8")], textFor method missingIdentity⟩
  else ⟨405, [("allow", "GET,HEAD")], ""⟩

/-- The answer to a rejected request. -/
def refused (f : Rejection) (method path : String) : Response :=
  ⟨401, [("www-authenticate", "Bearer"), ("content-type", "application/json")]
    ++ allowance method path, textFor method (unauthorized f).body⟩

/-! ### Routes -/

theorem isSome_route? {path : String} :
    (route? path).isSome = true ↔ path = "/health" ∨ path = "/v1/whoami" := by
  unfold route?
  split_ifs with hhealth hwhoami
  · simp [hhealth]
  · simp [hwhoami]
  · simp [hhealth, hwhoami]

theorem isRead_iff {method : String} : isRead method = true ↔ method = "GET" ∨ method = "HEAD" := by
  rw [isRead, Bool.or_eq_true, decide_eq_true_eq, decide_eq_true_eq]

theorem finish_eq (method path : String) (a : Response) :
    finish method path a =
      ⟨a.status, a.headers ++ allowance method path, textFor method a.body⟩ := by
  have hallow : ((route? path).isSome && !isRead method) = true ↔
      (path = "/health" ∨ path = "/v1/whoami") ∧ method ≠ "GET" ∧ method ≠ "HEAD" := by
    rw [Bool.and_eq_true, isSome_route?, Bool.not_eq_true', ← Bool.not_eq_true, isRead_iff, not_or]
  unfold finish allowance textFor
  dsimp only
  simp only [hallow]
  split_ifs <;> simp

theorem dispatch_whoami (providers : Nat) (method : String) (o : Option Identity) :
    dispatch providers method "/v1/whoami" o =
      if isRead method then whoami o else ⟨405, [], ""⟩ := by
  have hroute : route? "/v1/whoami" = some .whoami := by decide
  rw [dispatch, hroute]
  cases isRead method <;> rfl

theorem status_anonymous (method : String) :
    (anonymous method).status = if method = "GET" ∨ method = "HEAD" then 500 else 405 := by
  rw [anonymous]
  split_ifs <;> rfl

/-! ### Answers -/

section Answers

variable {c : Config} {r : Registry} {clock : Clock} {net : Network} {q : Request}

theorem answer_of_pass {o : Option Identity}
    (h : (visit c r clock net q).judged.decision = .pass o) :
    answer c r clock net q = finish q.method q.path
      (dispatch (visit c r clock net q).judged.registry.size q.method q.path o) :=
  congrArg (finish q.method q.path)
    (response_of_pass h fun r q identity => dispatch r.size q.method q.path identity)

theorem answer_of_public (hpath : q.path = "/v1/whoami") (h : (visit c r clock net q).IsPublic) :
    answer c r clock net q = anonymous q.method := by
  have hpass : (visit c r clock net q).judged.decision = .pass none := by rw [judged_of_public h]
  rw [answer_of_pass hpass, hpath, dispatch_whoami, finish_eq, anonymous]
  by_cases hread : q.method = "GET" ∨ q.method = "HEAD"
  · have hnone : allowance q.method "/v1/whoami" = [] :=
      if_neg fun h => hread.elim h.2.1 h.2.2
    rw [if_pos (isRead_iff.mpr hread), if_pos hread, hnone, List.append_nil]
    rfl
  · have hallow : allowance q.method "/v1/whoami" = [("allow", "GET,HEAD")] :=
      if_pos ⟨Or.inr rfl, not_or.mp hread⟩
    rw [if_neg (mt isRead_iff.mp hread), if_neg hread, hallow]
    simp [textFor]

theorem answer_of_authenticates (hget : q.method = "GET") (hpath : q.path = "/v1/whoami")
    (h : ¬(visit c r clock net q).IsPublic) {i : Identity}
    (hi : (visit c r clock net q).Authenticates i) :
    answer c r clock net q = ⟨200, [("content-type", "application/json")], i.render⟩ := by
  have hpass : (visit c r clock net q).judged.decision = .pass (some i) :=
    decision_eq_pass.mpr (Or.inr ⟨h, i, rfl, hi⟩)
  rw [answer_of_pass hpass, hget, hpath, dispatch_whoami, finish_eq]
  rfl

theorem answer_of_rejected (h : ¬(visit c r clock net q).IsPublic) {f : Rejection}
    (hf : (visit c r clock net q).authentication.result = .error f) :
    answer c r clock net q = refused f q.method q.path := by
  have hrefuse : (visit c r clock net q).judged.decision = .refuse f :=
    decision_eq_refuse.mpr ⟨h, hf⟩
  have hanswer : answer c r clock net q = finish q.method q.path (unauthorized f) :=
    congrArg (finish q.method q.path) (response_of_refuse hrefuse _)
  rw [hanswer, finish_eq]
  rfl

theorem authentication_of_authorizations {q' : Request} (h : q'.authorizations = q.authorizations) :
    (visit c r clock net q').authentication = (visit c r clock net q).authentication := by
  have hbearer : q'.bearer = q.bearer := by rw [Request.bearer, Request.bearer, h]
  unfold visit Visit.authentication Gate.authenticate
  rw [hbearer]

end Answers

/-- **Only an authenticated caller is told an identity.** If `/v1/whoami` is not public, the answer
is the identity of the caller's token, and there is no other answer of success. If it is public, the
answer depends on the method alone. And a request to a path that is not public, without a valid
credential, is answered with the status 401, and with a text that is the same for all such paths,
whether or not there is a route; the headers differ only in that they name the methods of a route to
a request with another method. -/
theorem whoami_guarded (c : Config) (r : Registry) (clock : Clock) (net : Network) (q : Request) :
    (q.path = "/v1/whoami" → q.method = "GET" →
      ((answer c r clock net q).status = 200 ↔ ¬(visit c r clock net q).IsPublic ∧
        ∃ i, (visit c r clock net q).Authenticates i) ∧
      ∀ i, ¬(visit c r clock net q).IsPublic → (visit c r clock net q).Authenticates i →
        answer c r clock net q = ⟨200, [("content-type", "application/json")], i.render⟩) ∧
    (q.path = "/v1/whoami" → (visit c r clock net q).IsPublic →
      answer c r clock net q = anonymous q.method ∧ (anonymous q.method).status ≠ 200) ∧
    ((∀ i, ¬(visit c r clock net q).Authenticates i) → ∃ f, ∀ q', q'.method = q.method →
      q'.authorizations = q.authorizations → ¬(visit c r clock net q').IsPublic →
        answer c r clock net q' = refused f q.method q'.path) := by
  have hpublic : q.path = "/v1/whoami" → (visit c r clock net q).IsPublic →
      answer c r clock net q = anonymous q.method ∧ (anonymous q.method).status ≠ 200 := by
    intro hpath h
    refine ⟨answer_of_public hpath h, ?_⟩
    rw [status_anonymous]
    split_ifs <;> decide
  refine ⟨fun hpath hget => ⟨⟨fun hstatus => ?_, ?_⟩, fun i h hi => ?_⟩, hpublic, fun hnone => ?_⟩
  · have hprivate : ¬(visit c r clock net q).IsPublic := fun h => by
      obtain ⟨hanswer, hne⟩ := hpublic hpath h
      exact hne (hanswer ▸ hstatus)
    cases hresult : (visit c r clock net q).authentication.result with
    | error f =>
      rw [answer_of_rejected hprivate hresult] at hstatus
      have hstatus : 401 = 200 := hstatus
      exact absurd hstatus (by decide)
    | ok i => exact ⟨hprivate, i, authentication_eq_ok.mp hresult⟩
  · rintro ⟨h, i, hi⟩
    rw [answer_of_authenticates hget hpath h hi]
  · exact answer_of_authenticates hget hpath h hi
  · cases hresult : (visit c r clock net q).authentication.result with
    | error f =>
      refine ⟨f, fun q' hmethod hauthorizations h => ?_⟩
      rw [← authentication_of_authorizations hauthorizations] at hresult
      rw [answer_of_rejected h hresult, hmethod]
    | ok i => exact absurd (authentication_eq_ok.mp hresult) (hnone i)

/-- The request of a caller with an unsigned token. -/
def unsignedRequest : Request :=
  ⟨"GET", "/v1/whoami", [Text.Utf8.encode ("Bearer " ++ unsignedCall.token)]⟩

/-- The caller is told who it is if the issuer of its token is registered. -/
theorem whoami_guarded_unsigned : ∃ r, ∃ i : Identity,
    (loadProviders ⟨0⟩ documentNetwork checkedAndUnchecked).result = .ok r ∧
    answer ⟨.default, checkedAndUnchecked⟩ r unsignedCall.clock documentNetwork unsignedRequest =
      ⟨200, [("content-type", "application/json")], i.render⟩ := by
  have hrun : ((loadProviders ⟨0⟩ documentNetwork checkedAndUnchecked).result.toOption.map fun r =>
      (answer ⟨.default, checkedAndUnchecked⟩ r unsignedCall.clock documentNetwork
        unsignedRequest).status) = some 200 := by
    decide +kernel
  have hpath : unsignedRequest.path = "/v1/whoami" := by decide +kernel
  obtain ⟨r, hr, hstatus⟩ := Option.map_eq_some_iff.mp hrun
  rw [toOption_eq_some] at hr
  obtain ⟨hsuccess, hanswer⟩ := (whoami_guarded _ _ _ _ unsignedRequest).1 hpath rfl
  obtain ⟨hprivate, i, hi⟩ := hsuccess.mp hstatus
  exact ⟨r, i, hr, hanswer i hprivate hi⟩

/-- **A request that reads nothing finds the routes.** Without a credential, and with the
configuration that sets nothing, the answers to it differ between a route and a path that is
none. -/
theorem not_forall_routes_hidden : ¬ ∀ (c : Config) (r : Registry) (clock : Clock) (net : Network)
    (q q' : Request), c.validate = .ok () → q.method = q'.method → q.authorizations = [] →
      q'.authorizations = [] → ¬(visit c r clock net q).IsPublic →
      ¬(visit c r clock net q').IsPublic → answer c r clock net q = answer c r clock net q' := by
  intro h
  have hprivate : ∀ path ∈ ["/v1/whoami", "/v1/nothing"],
      ¬(visit .default .empty ⟨0, 0⟩ .unreachable ⟨"POST", path, []⟩).IsPublic := by
    simp only [← isPublic_iff]
    decide +kernel
  have hsame := h .default .empty ⟨0, 0⟩ .unreachable ⟨"POST", "/v1/whoami", []⟩
    ⟨"POST", "/v1/nothing", []⟩ (by decide) rfl rfl rfl (hprivate _ (by simp)) (hprivate _ (by simp))
  have hheaders := congrArg Response.headers hsame
  revert hheaders
  decide +kernel

end TokenGate.Proofs.Server.Routes
