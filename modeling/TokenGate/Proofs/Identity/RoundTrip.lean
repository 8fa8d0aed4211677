import TokenGate.Identity.Codec
import TokenGate.Proofs.Json.Members
import TokenGate.Proofs.Json.PrintedTokens
import TokenGate.Proofs.Time.Reader

/-! # Identities that are read back

The record of an identity holds all of it but its token: the names of its kind and its mechanism,
the printed timestamp, and the members of a user are each read as what was printed (`shape_user`,
`shape_auth`, `shape_toJson`). A reader leaves the token out (`token_of_shape`). So an identity is
read back from its text without its token (`render_round_trip`). -/

namespace TokenGate.Proofs.Identity.RoundTrip

open TokenGate.Json TokenGate.Time TokenGate.Proofs.Results TokenGate.Proofs.Json.Members
open TokenGate.Proofs.Json.PrintedTokens TokenGate.Proofs.Json.Printed TokenGate.Proofs.Json.Shapes

/-! ### Users -/

theorem canonical_user (u : User) : canonical u.toJson =
    .object [("email", .string u.email), ("expirationTime", .int u.expirationTime.toInt),
      ("groups", .strings u.groups)] := by
  rw [User.toJson, canonical, canonicalMembers, canonicalMembers, canonicalMembers, canonical_strings]
  rfl

theorem shape_user (u : User) : User.shape (canonical u.toJson) = .ok u := by
  have hemail : Shape.string (.string u.email) = .ok u.email := rfl
  have hexpiration := int64_toInt u.expirationTime
  have hgroups := list_strings u.groups
  rw [canonical_user, User.shape, Record.shape,
    setMembers_of_found rfl (set_needed.mpr ⟨_, hemail, rfl⟩),
    setMembers_of_found rfl (set_needed.mpr ⟨_, hexpiration, rfl⟩),
    setMembers_of_found rfl (set_needed.mpr ⟨_, hgroups, rfl⟩)]
  rfl

/-! ### How an identity was authenticated -/

theorem shape_mechanism (m : Identity.Mechanism) :
    Shape.choice Identity.Mechanism.names (.string m.name) = .ok m := by
  cases m
  rfl

theorem shape_timestamp (t : Timestamp) : Timestamp.shape (.string t.render) = .ok t := by
  rw [Timestamp.shape, Time.RoundTrip.ofText_render]

theorem shape_auth (a : Identity.AuthInfo) : Identity.AuthInfo.shape (canonical a.toJson) = .ok a := by
  have hmechanism := shape_mechanism a.mechanism
  have hprincipal : Shape.string (.string a.principalId) = .ok a.principalId := rfl
  have hexpiration := shape_timestamp a.expiration
  have hcanonical : canonical a.toJson = .object [("expiration", .string a.expiration.render),
      ("provider", .string a.mechanism.name), ("providerPrincipalId", .string a.principalId)] := rfl
  rw [hcanonical, Identity.AuthInfo.shape, Record.shape,
    setMembers_of_found rfl (set_needed.mpr ⟨_, hexpiration, rfl⟩),
    setMembers_of_found rfl (set_needed.mpr ⟨_, hmechanism, rfl⟩),
    setMembers_of_found rfl (set_needed.mpr ⟨_, hprincipal, rfl⟩)]
  rfl

/-! ### Identities -/

theorem shape_kind (k : Identity.Kind) : Shape.choice Identity.Kind.names (.string k.name) = .ok k := by
  cases k <;> rfl

/-- **The record of an identity is read as the identity without its token.** -/
theorem shape_toJson (i : Identity) :
    Identity.shape (canonical i.toJson) = .ok { i with token := none } := by
  obtain ⟨kind, auth, user, token⟩ := i
  have hkind := shape_kind kind
  have hauth := shape_auth auth
  cases user with
  | none =>
    have hcanonical : canonical (Identity.toJson ⟨kind, auth, none, token⟩) =
        .object [("auth", canonical auth.toJson), ("type", .string kind.name)] := rfl
    rw [hcanonical, Identity.shape, Record.shape,
      setMembers_of_found rfl (set_needed.mpr ⟨_, hauth, rfl⟩),
      setMembers_of_found rfl (set_needed.mpr ⟨_, hkind, rfl⟩)]
    rfl
  | some user =>
    have huser : Shape.optional User.shape (canonical user.toJson) = .ok (some user) := by
      have huser := shape_user user
      rw [canonical_user] at huser ⊢
      rw [Shape.optional, huser]
      · rfl
      · simp
    have hcanonical : canonical (Identity.toJson ⟨kind, auth, some user, token⟩) =
        .object [("auth", canonical auth.toJson), ("type", .string kind.name),
          ("user", canonical user.toJson)] := rfl
    rw [hcanonical, Identity.shape, Record.shape,
      setMembers_of_found rfl (set_needed.mpr ⟨_, hauth, rfl⟩),
      setMembers_of_found rfl (set_needed.mpr ⟨_, hkind, rfl⟩),
      setMembers_of_found rfl (set_free.mpr ⟨_, huser, rfl⟩)]
    rfl

theorem exact_user (u : User) : Exact 126 u.toJson := by
  have hlow : -9223372036854775808 ≤ u.expirationTime.toInt := Int64.le_toInt _
  have hhigh : u.expirationTime.toInt < 9223372036854775808 := Int64.toInt_lt _
  refine .object fun m hm => ?_
  simp only [List.mem_cons, List.not_mem_nil, or_false] at hm
  rcases hm with rfl | rfl | rfl
  · exact .string u.email
  · exact exact_strings u.groups
  · exact .int (by omega)

theorem exact_auth (a : Identity.AuthInfo) : Exact 126 a.toJson := by
  refine .object fun m hm => ?_
  simp only [List.mem_cons, List.not_mem_nil, or_false] at hm
  rcases hm with rfl | rfl | rfl <;> exact .string _

/-- **The text of an identity says all of its record.** -/
theorem exact_toJson (i : Identity) : Exact depthLimit i.toJson := by
  refine .object fun m hm => ?_
  simp only [List.mem_append, List.mem_cons, List.not_mem_nil, or_false, Option.mem_toList,
    Option.map_eq_some_iff] at hm
  rcases hm with (rfl | rfl) | ⟨u, -, rfl⟩
  · exact .string _
  · exact exact_auth i.auth
  · exact exact_user u

theorem token_of_shape {v : Json} {i : Identity} (h : Identity.shape v = .ok i) : i.token = none := by
  have htoken : i.token = (default : Identity).token := by
    refine shape_untouched ?_ h
    intro f hf v a b hset
    simp only [List.mem_cons, List.not_mem_nil, or_false] at hf
    rcases hf with rfl | rfl | rfl
    · obtain ⟨_, -, rfl⟩ := set_needed.mp hset
      rfl
    · obtain ⟨_, -, rfl⟩ := set_needed.mp hset
      rfl
    · obtain ⟨_, -, rfl⟩ := set_free.mp hset
      rfl
  exact htoken

/-- **Round trip.** An identity is read back from its text without its token, and the token is no
part of the text. So an identity that has been read, from whatever value, is read again from its
text. -/
theorem render_round_trip (i : Identity) :
    Identity.ofText i.render = .ok { i with token := none } ∧
      (∀ token, Identity.render { i with token := token } = i.render) ∧
      ∀ v, Identity.shape v = .ok i → Identity.ofText i.render = .ok i := by
  have hread : Identity.ofText i.render = .ok { i with token := none } := by
    rw [Identity.ofText, Identity.render, ofText_render (exact_toJson i), Except.mapError, ok_bind,
      shape_toJson]
    rfl
  refine ⟨hread, fun _ => rfl, fun v hv => ?_⟩
  rw [hread, ← token_of_shape hv]

/-- The record of a service whose credential expires in a leap second, with blanks, an offset and a
fraction of more digits than count. -/
def relaxed : Json :=
  .object [("auth", .object [("expiration", .string " 2017-1-1 00 : 59 : 60.1234567899 +01:00"),
    ("provider", .string "oidc"), ("providerPrincipalId", .string "s")]), ("type", .string "service")]

theorem render_round_trip_relaxed : ∃ i, Identity.shape relaxed = .ok i ∧
    i.auth.expiration.nanos = 1123456789 ∧ Identity.ofText i.render = .ok i := by
  have hread : ((Identity.shape relaxed).toOption.map fun i => i.auth.expiration.nanos) =
      some 1123456789 := by
    decide +kernel
  obtain ⟨i, hi, hnanos⟩ := Option.map_eq_some_iff.mp hread
  rw [toOption_eq_some] at hi
  exact ⟨i, hi, hnanos, (render_round_trip i).2.2 relaxed hi⟩

end TokenGate.Proofs.Identity.RoundTrip
