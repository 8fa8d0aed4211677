import TokenGate.Auth.Gate
import TokenGate.Proofs.Text.Utf8

/-! # Which requests pass

The gate looks at the path of a request and at its first authorization. A path is public if one of
the prefixes of the gate starts it. An authorization presents a token if it is `Bearer ` and the
token, in printable ASCII and tabs (`bearer_eq_ok`). A request to a public path passes without an
identity, any other one exactly with the identity of the token that it presents
(`decision_eq_pass`). -/

namespace TokenGate.Proofs.Auth.Passage

open TokenGate.Http TokenGate.Text
open TokenGate.Proofs.Text.Utf8

/-- A request at a gate, with the registry and the world that it finds. -/
structure Visit where
  gate : Gate
  registry : Registry
  clock : Clock
  net : Network
  request : Request

/-- What the gate does with the request. -/
def Visit.judged (v : Visit) : Gate.Passage := v.gate.judge v.registry v.clock v.net v.request

/-- What becomes of the request if its path is not public. -/
def Visit.authentication (v : Visit) : Authentication :=
  v.gate.authenticate v.registry v.clock v.net v.request

/-- One of the prefixes of the gate starts the path of the request. -/
def Visit.IsPublic (v : Visit) : Prop :=
  ∃ p ∈ v.gate.publicPaths, p.toList <+: v.request.path.toList

/-- The first authorization of a request is `Bearer ` and a token, in printable ASCII and tabs. -/
def Presents (q : Request) (token : String) : Prop :=
  ∃ value others, q.authorizations = value :: others ∧
    (∀ b ∈ value, b = 0x09 ∨ 0x20 ≤ b ∧ b < 0x7F) ∧ value = Utf8.encode ("Bearer " ++ token)

/-- The request presents a token that is authenticated as an identity. -/
def Visit.Authenticates (v : Visit) (i : Identity) : Prop :=
  ∃ token, Presents v.request token ∧
    (v.registry.authenticate v.gate.limit v.clock v.net token).result = .ok i

/-! ### The token of a request -/

theorem isPlain_iff {b : UInt8} : Request.isPlain b = true ↔ b = 0x09 ∨ 0x20 ≤ b ∧ b < 0x7F := by
  rw [Request.isPlain, Bool.or_eq_true, Bool.and_eq_true, decide_eq_true_eq, decide_eq_true_eq,
    decide_eq_true_eq, or_comm]

theorem ascii_of_isPlain {b : UInt8} (h : Request.isPlain b = true) : b.toNat < 0x80 := by
  rcases isPlain_iff.mp h with rfl | ⟨-, hb⟩
  · decide
  · exact Nat.lt_trans (UInt8.lt_iff_toNat_lt.mp hb) (by decide)

theorem extractBearer_eq_ok {header token : String} :
    Authentication.extractBearer (some header) = .ok token ↔ header = "Bearer " ++ token := by
  rw [Authentication.extractBearer]
  constructor
  · intro h
    split_ifs at h with hscheme
    obtain ⟨rest, hrest⟩ := List.isPrefixOf_iff_prefix.mp hscheme
    have htoken : String.ofList (header.toList.drop 7) = token := Except.ok.inj h
    rw [← hrest] at htoken
    rw [← String.ofList_toList (s := header), ← hrest, ← htoken]
    exact String.ofList_append
  · rintro rfl
    have hlist : ("Bearer " ++ token).toList = "Bearer ".toList ++ token.toList :=
      String.toList_append
    rw [hlist, if_pos (List.isPrefixOf_iff_prefix.mpr (List.prefix_append _ _))]
    exact congrArg Except.ok String.ofList_toList

/-- **The bearer token of a request is the one that it presents.** -/
theorem bearer_eq_ok {q : Request} {token : String} : q.bearer = .ok token ↔ Presents q token := by
  rw [Request.bearer, Presents]
  cases q.authorizations with
  | nil =>
    constructor
    · intro h
      cases h
    · rintro ⟨value, others, h, -⟩
      cases h
  | cons value others =>
    by_cases hplain : value.all Request.isPlain = true
    · have hascii : ∀ b ∈ value, b.toNat < 0x80 := fun b hb =>
        ascii_of_isPlain (List.all_eq_true.mp hplain b hb)
      dsimp only
      rw [if_pos hplain, extractBearer_eq_ok, ← eq_encode_iff hascii]
      constructor
      · intro h
        exact ⟨value, others, rfl, fun b hb => isPlain_iff.mp (List.all_eq_true.mp hplain b hb), h⟩
      · rintro ⟨_, _, h, -, hvalue⟩
        obtain ⟨rfl, rfl⟩ := List.cons.inj h
        exact hvalue
    · dsimp only
      rw [if_neg hplain]
      constructor
      · intro h
        cases h
      · rintro ⟨_, _, h, hallowed, -⟩
        obtain ⟨rfl, rfl⟩ := List.cons.inj h
        exact absurd (List.all_eq_true.mpr fun b hb => isPlain_iff.mpr (hallowed b hb)) hplain

/-! ### The decision of the gate -/

variable {v : Visit}

theorem isPublic_iff : v.gate.isPublic v.request.path = true ↔ v.IsPublic := by
  rw [Gate.isPublic, List.any_eq_true, Visit.IsPublic]
  simp only [List.isPrefixOf_iff_prefix]

theorem authentication_eq_ok {i : Identity} :
    v.authentication.result = .ok i ↔ v.Authenticates i := by
  rw [Visit.authentication, Gate.authenticate, Visit.Authenticates]
  simp only [← bearer_eq_ok]
  cases v.request.bearer with
  | error f =>
    constructor
    · intro h
      cases h
    · rintro ⟨token, h, -⟩
      cases h
  | ok token =>
    constructor
    · intro h
      exact ⟨token, rfl, h⟩
    · rintro ⟨_, h, hresult⟩
      cases h
      exact hresult

theorem judged_of_public (h : v.IsPublic) : v.judged = ⟨.pass none, v.registry, [], []⟩ := by
  rw [Visit.judged, Gate.judge, if_pos (isPublic_iff.mpr h)]

theorem judged_of_ok (h : ¬v.IsPublic) {i : Identity} (hi : v.authentication.result = .ok i) :
    v.judged = ⟨.pass (some i), v.authentication.registry, v.authentication.exchanges,
      [(Audit.authenticated i v.authentication.issuer v.request.path).note]⟩ := by
  unfold Visit.authentication at hi ⊢
  rw [Visit.judged, Gate.judge, if_neg (mt isPublic_iff.mp h)]
  dsimp only
  rw [hi]

theorem judged_of_error (h : ¬v.IsPublic) {f : Rejection} (hf : v.authentication.result = .error f) :
    v.judged = ⟨.refuse f, v.authentication.registry, v.authentication.exchanges,
      [.rejected f.code f.message v.request.path,
        (Audit.rejected f v.authentication.issuer v.request.path).note]⟩ := by
  unfold Visit.authentication at hf ⊢
  rw [Visit.judged, Gate.judge, if_neg (mt isPublic_iff.mp h)]
  dsimp only
  rw [hf]

theorem decision_of_ok (h : ¬v.IsPublic) {i : Identity} (hi : v.authentication.result = .ok i) :
    v.judged.decision = .pass (some i) := by
  rw [judged_of_ok h hi]

theorem decision_of_error (h : ¬v.IsPublic) {f : Rejection} (hf : v.authentication.result = .error f) :
    v.judged.decision = .refuse f := by
  rw [judged_of_error h hf]

/-- **A request passes** without an identity exactly if its path is public, and otherwise with the
identity of its token. -/
theorem decision_eq_pass {o : Option Identity} :
    v.judged.decision = .pass o ↔
      v.IsPublic ∧ o = none ∨ ¬v.IsPublic ∧ ∃ i, o = some i ∧ v.Authenticates i := by
  by_cases h : v.IsPublic
  · rw [judged_of_public h]
    simp [h, eq_comm]
  · cases hresult : v.authentication.result with
    | error f =>
      have hnone : ∀ i, ¬v.Authenticates i := fun i hi => by
        cases hresult.symm.trans (authentication_eq_ok.mpr hi)
      rw [decision_of_error h hresult]
      simp [h, hnone]
    | ok i =>
      have hi : ∀ j, v.Authenticates j ↔ i = j := fun j => by
        rw [← authentication_eq_ok, hresult, Except.ok.injEq]
      rw [decision_of_ok h hresult]
      simp [h, hi, eq_comm]

/-- **A request is rejected** if its path is not public and no identity can be had from it. -/
theorem decision_eq_refuse {f : Rejection} :
    v.judged.decision = .refuse f ↔ ¬v.IsPublic ∧ v.authentication.result = .error f := by
  by_cases h : v.IsPublic
  · rw [judged_of_public h]
    simp [h]
  · cases hresult : v.authentication.result with
    | error f' =>
      rw [decision_of_error h hresult]
      simp [h]
    | ok i =>
      rw [decision_of_ok h hresult]
      simp [h]

end TokenGate.Proofs.Auth.Passage
