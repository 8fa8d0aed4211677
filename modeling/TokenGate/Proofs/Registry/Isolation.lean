import TokenGate.Proofs.Registry.History
import TokenGate.Proofs.Registry.Discovery

/-! # Isolation of issuers

Two services that configure an issuer alike, and differ in everything else, cannot be told apart by
the tokens of that issuer: whatever the other issuers are, however their tokens are interleaved with
those of this one, and whatever keys they make their providers fetch (`loaded_isolated`). -/

namespace TokenGate.Proofs.Registry.Isolation

open TokenGate.Http TokenGate.Load TokenGate.Proofs.Results TokenGate.Proofs.Registry.History
open TokenGate.Proofs.Registry.Loaded

/-- What is answered at an address at a time, whatever was asked before. -/
structure World where
  answer : Clock → Url → Reply

/-- The network of a world at a time. -/
def World.at (w : World) (t : Clock) : Network := ⟨fun _ u => w.answer t u⟩

/-- A token that is authenticated at a time, within a time limit. -/
structure Visit where
  limit : Nat
  clock : Clock
  token : String
  deriving DecidableEq

/-- The call of a visit in a world. -/
def Visit.call (v : Visit) (w : World) : Call := ⟨v.limit, v.clock, w.at v.clock, v.token⟩

/-- Whether the token of a visit claims an issuer. -/
def Visit.claims (v : Visit) (issuer : String) : Bool := claimed? v.token = some issuer

/-- The visits of a history with their results. -/
def answers (w : World) (r : Registry) : List Visit → List (Visit × Except Rejection Identity)
  | [] => []
  | v :: rest =>
    let a := (v.call w).run r
    (v, a.result) :: answers w a.registry rest

variable {w : World} {issuer : String}

/-- **Other visits do not show**: the results of the visits for an issuer are those of a history of
these visits alone, from any registry that has the same provider for it. -/
theorem filter_answers {r r' : Registry} (visits : List Visit)
    (h : r.get? issuer = r'.get? issuer) :
    (answers w r visits).filter (·.1.claims issuer) =
      answers w r' (visits.filter (·.claims issuer)) := by
  induction visits generalizing r r' with
  | nil => rfl
  | cons v visits ih =>
    rw [answers]
    by_cases hv : v.claims issuer = true
    · -- Both histories have this visit, and the registries still agree after it.
      have hclaimed : claimed? v.token = some issuer := of_decide_eq_true hv
      obtain ⟨hresult, hnext⟩ := run_congr (c := v.call w) hclaimed h
      rw [List.filter_cons, if_pos hv, List.filter_cons, if_pos hv, answers, ih hnext, hresult]
    · -- Only one history has this visit, and it leaves the provider of the issuer alone.
      have hclaimed : claimed? v.token ≠ some issuer := fun e => hv (decide_eq_true e)
      rw [List.filter_cons, if_neg hv, List.filter_cons, if_neg hv]
      exact ih ((get?_run_of_ne (c := v.call w) hclaimed).trans h)

/-- **Isolation.** Take two configurations with the same options and, for an issuer, the same
providers in the same order, both loaded at one time in one world. In any two histories that have
the same visits for the issuer, these visits have the same results. -/
theorem loaded_isolated (client : Client) (w : World) (start : Clock) (issuer : String)
    (a b : AuthConfig) (r r' : Registry) (visits visits' : List Visit)
    (hoptions : options a = options b)
    (hconfigs : (plan a).1.filter (·.issuer = issuer) = (plan b).1.filter (·.issuer = issuer))
    (ha : (loadProviders client (w.at start) a).result = .ok r)
    (hb : (loadProviders client (w.at start) b).result = .ok r')
    (hvisits : visits.filter (·.claims issuer) = visits'.filter (·.claims issuer)) :
    (answers w r visits).filter (·.1.claims issuer) =
      (answers w r' visits').filter (·.1.claims issuer) := by
  have hr : r.get? issuer = r'.get? issuer :=
    get?_load_congr (fun _ _ _ => rfl) hoptions hconfigs ha hb
  rw [filter_answers visits hr, filter_answers visits' rfl, hvisits]

/-- A world in which every address answers with one document. -/
def constantWorld : World :=
  ⟨fun _ _ => .answered 200 none (Text.Utf8.encode "\x7b\"issuer\":\"\",\"jwks_uri\":\"\"\x7d")⟩

/-- The configuration of some issuers whose signatures go unchecked. -/
def unchecked (issuers : List String) : AuthConfig :=
  { AuthConfig.default with providers := issuers.map fun i => ⟨i, ["x"], true, true, none⟩ }

/-- A visit with a token of `http://a`, accepted until the ninth second. -/
def visitA : Visit :=
  ⟨1, ⟨5, 5⟩,
    ".eyJpc3MiOiJodHRwOi8vYSIsImF1ZCI6IngiLCJlbWFpbCI6InVAZCIsImdyb3VwcyI6WyJnIl0sImV4cCI6OX0"⟩

/-- An earlier visit with such a token of `http://b`. -/
def visitB : Visit :=
  ⟨1, ⟨2, 2⟩,
    ".eyJpc3MiOiJodHRwOi8vYiIsImF1ZCI6IngiLCJlbWFpbCI6InVAZCIsImdyb3VwcyI6WyJnIl0sImV4cCI6OX0"⟩

/-- A second issuer, loaded first, and a visit of its own do not show. -/
theorem loaded_isolated_second_issuer : ∃ r r',
    (loadProviders ⟨0⟩ (constantWorld.at ⟨0, 0⟩) (unchecked ["http://a"])).result = .ok r ∧
    (loadProviders ⟨0⟩ (constantWorld.at ⟨0, 0⟩) (unchecked ["http://b", "http://a"])).result =
      .ok r' ∧
    (answers constantWorld r [visitA]).filter (·.1.claims "http://a") =
      (answers constantWorld r' [visitB, visitA]).filter (·.1.claims "http://a") := by
  have ha : (loadProviders ⟨0⟩ (constantWorld.at ⟨0, 0⟩)
      (unchecked ["http://a"])).result.toOption.isSome := by decide +kernel
  have hb : (loadProviders ⟨0⟩ (constantWorld.at ⟨0, 0⟩)
      (unchecked ["http://b", "http://a"])).result.toOption.isSome := by decide +kernel
  obtain ⟨r, ha⟩ := Option.isSome_iff_exists.mp ha
  obtain ⟨r', hb⟩ := Option.isSome_iff_exists.mp hb
  rw [toOption_eq_some] at ha hb
  exact ⟨r, r', ha, hb, loaded_isolated _ _ _ _ _ _ _ _ _ _ (by decide) (by decide +kernel) ha hb
    (by decide +kernel)⟩

end TokenGate.Proofs.Registry.Isolation
