import TokenGate.Proofs.Auth.Passage
import TokenGate.Proofs.Auth.Soundness
import TokenGate.Proofs.Json.PrintedTokens
import TokenGate.Server.Router

/-! # What stands behind the gate

The gate is in front of a handler, whichever it is. The handler answers the requests that pass, and
sees the identity that the gate established, no other. Any other request is answered with a
challenge, which is JSON and says of the rejection only its kind (`unauthorized_of_kind`). -/

namespace TokenGate.Proofs.Server.Guard

open TokenGate.Http TokenGate.Json TokenGate.Server
open TokenGate.Proofs.Json.PrintedTokens TokenGate.Proofs.Json.Printed
open TokenGate.Proofs.Registry.History TokenGate.Proofs.Auth.Soundness TokenGate.Proofs.Auth.Passage

/-- What answers the requests that pass. -/
abbrev Inner := Registry → Request → Option Identity → Response

/-- What handling the request of a visit does, with a handler behind the gate. -/
def handled (inner : Inner) (v : Visit) : Handling :=
  guarded v.gate inner v.registry v.clock v.net v.request

/-- The handler behind the gate runs, whichever it is: it gives the answer, and it sees this
identity. -/
def Runs (v : Visit) (identity : Option Identity) : Prop :=
  ∀ inner, (handled inner v).response = inner v.judged.registry v.request identity

/-- A response is the challenge of a rejection: it asks for a bearer token, and its text is JSON. -/
structure Challenges (f : Rejection) (a : Response) : Prop where
  status : a.status = 401
  headers : a.headers = [("www-authenticate", "Bearer"), ("content-type", "application/json")]
  body : Json.ofText a.body = .ok (.object [("error", .string f.code),
    ("message", .string f.publicMessage), ("status", .int 401)])

/-! ### The answer to a rejection -/

theorem challenges_unauthorized (f : Rejection) : Challenges f (unauthorized f) where
  status := rfl
  headers := rfl
  body := by
    have hexact : Exact depthLimit (.object [("error", .string f.code),
        ("message", .string f.publicMessage), ("status", .int 401)]) := by
      refine .object fun m hm => ?_
      simp only [List.mem_cons, List.not_mem_nil, or_false] at hm
      rcases hm with rfl | rfl | rfl
      · exact .string _
      · exact .string _
      · exact .int (by omega)
    exact ofText_render hexact

theorem unauthorized_of_kind {f f' : Rejection} (h : f.ctorIdx = f'.ctorIdx) :
    unauthorized f = unauthorized f' := by
  cases f <;> cases f' <;> cases h <;> rfl

/-! ### Visits -/

variable {v : Visit} {inner : Inner}

theorem handled_of_public (h : v.IsPublic) (inner : Inner) :
    handled inner v = ⟨inner v.registry v.request none, v.registry, [], []⟩ := by
  have hjudge : v.gate.judge v.registry v.clock v.net v.request = ⟨.pass none, v.registry, [], []⟩ :=
    judged_of_public h
  rw [handled, guarded, hjudge]

theorem response_of_pass {o : Option Identity} (h : v.judged.decision = .pass o) (inner : Inner) :
    (handled inner v).response = inner v.judged.registry v.request o := by
  unfold Visit.judged at h ⊢
  rw [handled, guarded]
  dsimp only
  rw [h]

theorem response_of_refuse {f : Rejection} (h : v.judged.decision = .refuse f) (inner : Inner) :
    (handled inner v).response = unauthorized f := by
  unfold Visit.judged at h
  rw [handled, guarded]
  dsimp only
  rw [h]

open Classical in
/-- **The handler runs with what the gate lets pass.** One that tells this identity from all others
shows by its answer which it sees, and whether it runs at all. -/
theorem runs_iff {o : Option Identity} : Runs v o ↔ v.judged.decision = .pass o := by
  refine ⟨fun h => ?_, response_of_pass⟩
  have hseen := h fun _ _ seen => ⟨if seen = o then 200 else 404, [], ""⟩
  cases hd : v.judged.decision with
  | pass o' =>
    rw [response_of_pass hd, Response.mk.injEq, if_pos rfl] at hseen
    by_contra hne
    have hne : o' ≠ o := fun h => hne (congrArg Gate.Decision.pass h)
    rw [if_neg hne] at hseen
    exact absurd hseen.1 (by decide)
  | refuse f =>
    rw [response_of_refuse hd, if_pos rfl] at hseen
    have hstatus : 401 = 200 := congrArg Response.status hseen
    exact absurd hstatus (by decide)

/-- **The gate guards what stands behind it.** A request to a public path is handled by the handler
alone, without an identity. Any other one reaches the handler exactly if its token is authenticated,
with the identity of that token. What does not reach the handler is rejected and answered with a
challenge, and two rejections of one kind have the same answer, whatever else the visits have in
common. -/
theorem gate_guards (v : Visit) :
    (v.IsPublic → ∀ inner, handled inner v = ⟨inner v.registry v.request none, v.registry, [], []⟩) ∧
      (∀ o, Runs v o ↔ v.IsPublic ∧ o = none ∨ ¬v.IsPublic ∧ ∃ i, o = some i ∧ v.Authenticates i) ∧
      ((∀ o, ¬Runs v o) → ∃ f, v.judged.decision = .refuse f ∧
        ∀ inner, Challenges f (handled inner v).response) ∧
      ∀ v' f f', v.judged.decision = .refuse f → v'.judged.decision = .refuse f' →
        f.ctorIdx = f'.ctorIdx →
          ∀ inner inner', (handled inner v).response = (handled inner' v').response := by
  refine ⟨handled_of_public, fun o => runs_iff.trans decision_eq_pass, fun h => ?_,
    fun v' f f' hf hf' hkind inner inner' => ?_⟩
  · cases hd : v.judged.decision with
    | pass o => exact absurd (runs_iff.mpr hd) (h o)
    | refuse f =>
      refine ⟨f, rfl, fun inner => ?_⟩
      rw [response_of_refuse hd]
      exact challenges_unauthorized f
  · rw [response_of_refuse hf, response_of_refuse hf', unauthorized_of_kind hkind]

/-- The visit of a request that presents a token. -/
def tokenVisit (token path : String) (r : Registry) : Visit :=
  ⟨⟨["/health"], 10⟩, r, ⟨1700000000, 0⟩, documentNetwork,
    ⟨"GET", path, [Text.Utf8.encode ("Bearer " ++ token)]⟩⟩

theorem presents_unsignedCall (path : String) (r : Registry) :
    Presents (tokenVisit unsignedCall.token path r).request unsignedCall.token := by
  have hplain : ∀ b ∈ Text.Utf8.encode ("Bearer " ++ unsignedCall.token),
      b = 0x09 ∨ 0x20 ≤ b ∧ b < 0x7F := by
    decide +kernel
  exact ⟨_, [], rfl, hplain, rfl⟩

/-- A token that claims the issuer `a`. -/
def tokenOfA : String := ".eyJpc3MiOiJhIiwiYXVkIjoieCJ9"

/-- A token that claims the issuer `b`. -/
def tokenOfB : String := ".eyJpc3MiOiJiIiwiYXVkIjoieCJ9"

/-- The handler runs for a token whose issuer is registered. Tokens of two unknown issuers, on two
paths, have one answer. -/
theorem gate_guards_unsigned :
    (∃ r i, (loadProviders ⟨0⟩ documentNetwork checkedAndUnchecked).result = .ok r ∧
      Runs (tokenVisit unsignedCall.token "/v1/whoami" r) (some i)) ∧
    ∀ inner inner', (handled inner (tokenVisit tokenOfA "/v1/whoami" .empty)).response =
      (handled inner' (tokenVisit tokenOfB "/" .empty)).response := by
  constructor
  · obtain ⟨r, -, i, hr, -, hi, -⟩ := run_signedCall_unsignedCall
    have hpath : Gate.isPublic ⟨["/health"], 10⟩
        (tokenVisit unsignedCall.token "/v1/whoami" .empty).request.path = false := by
      decide +kernel
    have hpublic : ¬(tokenVisit unsignedCall.token "/v1/whoami" r).IsPublic := fun h =>
      Bool.false_ne_true (hpath.symm.trans (isPublic_iff.mpr h))
    have hi : (tokenVisit unsignedCall.token "/v1/whoami" r).Authenticates i :=
      ⟨unsignedCall.token, presents_unsignedCall _ r, hi⟩
    exact ⟨r, i, hr, ((gate_guards _).2.1 _).mpr (Or.inr ⟨hpublic, i, rfl, hi⟩)⟩
  · have ha : (tokenVisit tokenOfA "/v1/whoami" .empty).judged.decision =
        .refuse (.unknownIssuer "a") := by
      decide +kernel
    have hb : (tokenVisit tokenOfB "/" .empty).judged.decision =
        .refuse (.unknownIssuer "b") := by
      decide +kernel
    exact (gate_guards _).2.2.2 _ _ _ ha hb rfl

end TokenGate.Proofs.Server.Guard
