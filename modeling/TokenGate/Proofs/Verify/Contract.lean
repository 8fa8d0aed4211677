import TokenGate.Proofs.Token.Acceptance
import TokenGate.Proofs.Verify.Verdict

/-! # What accepted claims say

A verifier belongs to one issuer and is asked about one audience, and the claims that it hands on
are to say both (`Meets`). Where signatures go unchecked they do (`meets_of_checkRegistered`). Where
signatures are checked, an issuer and an audience that can be read are the right ones
(`admits_of_check`), but a claim that is left out or of another kind passes, and so does a list of
issuers (`not_forall_verified_meet`). A token with such claims cannot be routed, so that no verifier
is asked about it: the claims of every token that can be routed say both
(`verified_claims_admit`). -/

namespace TokenGate.Proofs.Verify.Contract

open TokenGate.Json TokenGate.Http TokenGate.Token TokenGate.Proofs.Results
open TokenGate.Proofs.Json.Entries TokenGate.Proofs.Token.Routing TokenGate.Proofs.Verify.Verdict
open TokenGate.Proofs.Json.Members (eq_string_of_asString?)
open TokenGate.Proofs.Token.Acceptance (audience_of_names?)
open TokenGate.Proofs.Verify.Agreement

/-- Claims are of an issuer, as a string, and for an audience, as a string or in a list. -/
structure Meets (claims : Json) (issuer audience : String) : Prop where
  issuer : claims.get? "iss" = some (.string issuer)
  audience : claims.get? "aud" = some (.string audience) ∨
    ∃ items, claims.get? "aud" = some (.array items) ∧ .string audience ∈ items

/-- A claim admits a name: unless it is left out or of another kind, the name is its only one or in
its list. -/
def Admits (claim : Option Json) (name : String) : Prop :=
  ∀ w names, claim = some w → names? w = some names → name ∈ names

variable {claims w : Json} {cs : Claims} {issuer audience name : String}

/-- **Claims that can be read and admit an issuer and an audience are of and for them.** -/
theorem meets_of_admits {s : String} {names : List String}
    (hissuer : claims.get? "iss" = some (.string s))
    (haudience : (claims.get? "aud").bind names? = some names)
    (hi : Admits (claims.get? "iss") issuer) (ha : Admits (claims.get? "aud") audience) :
    Meets claims issuer audience := by
  obtain ⟨w, hw, hnames⟩ := Option.bind_eq_some_iff.mp haudience
  have hs : issuer = s := List.mem_singleton.mp (hi _ [s] hissuer rfl)
  refine ⟨hs ▸ hissuer, ?_⟩
  rcases mem_of_names? hnames (ha w names hw hnames) with rfl | ⟨items, rfl, hmem⟩
  · exact Or.inl hw
  · exact Or.inr ⟨items, hw, hmem⟩

theorem admits_of_meets (h : Meets claims issuer audience) :
    Admits (claims.get? "iss") issuer ∧ Admits (claims.get? "aud") audience := by
  constructor
  · intro w names hw hnames
    obtain rfl := Option.some.inj (h.issuer.symm.trans hw)
    cases hnames
    exact List.mem_singleton.mpr rfl
  · intro w names hw hnames
    rcases h.audience with haud | ⟨items, haud, hmem⟩
    · obtain rfl := Option.some.inj (haud.symm.trans hw)
      cases hnames
      exact List.mem_singleton.mpr rfl
    · obtain rfl := Option.some.inj (haud.symm.trans hw)
      exact (mem_iff_of_mapM_asString? hnames).mpr hmem

/-! ### Unchecked signatures -/

theorem named_of_namesAudience (h : Verify.namesAudience (claims.get? "aud") name = true) :
    claims.get? "aud" = some (.string name) ∨
      ∃ items, claims.get? "aud" = some (.array items) ∧ .string name ∈ items := by
  unfold Verify.namesAudience at h
  split at h
  · rename_i s hs
    rw [hs, of_decide_eq_true h]
    exact Or.inl rfl
  · rename_i items hitems
    obtain ⟨v, hv, hname⟩ := List.any_eq_true.mp h
    rw [eq_string_of_asString? (of_decide_eq_true hname)] at hv
    exact Or.inr ⟨items, hitems, hv⟩
  · cases h

/-- **Where signatures go unchecked, the claims are of the issuer and for the audience.** -/
theorem meets_of_checkRegistered {leeway : UInt64} {now : Int64}
    (h : Verify.checkRegistered claims issuer audience leeway now = .ok ()) :
    Meets claims issuer audience := by
  -- Whatever is said of the start, issuer and audience are looked at behind it.
  have hrest : (claims.get? "iss").bind Json.asString? = some issuer ∧
      Verify.namesAudience (claims.get? "aud") audience = true := by
    unfold Verify.checkRegistered at h
    grind
  obtain ⟨w, hw, hissuer⟩ := Option.bind_eq_some_iff.mp hrest.1
  exact ⟨hw.trans (congrArg some (eq_string_of_asString? hissuer)), named_of_namesAudience hrest.2⟩

/-! ### Checked signatures -/

/-- **The names in the record are those of the value**, if the value has a claim of the name. -/
theorem names_of_shape {bytes : List UInt8} {names : Claims → Claim (List String)}
    (hr : Reads (Claims.entries false .expectedObjectCommaOrEnd) name Claims.namesShape names)
    (hvalue : Json.ofBytes bytes = .ok claims) (hcs : readBytes Claims.shape bytes = .ok cs)
    (hw : claims.get? name = some w) : names cs = Claims.names w := by
  have hvalue := (ofBytes_eq_ok.mp hvalue).1
  have hcs := (readBytes_eq_ok.mp hcs).1
  -- Only an object has claims, so the record is read from an object, too.
  obtain ⟨ms, rfl⟩ := object_of_get? hw
  obtain ⟨nodes, -, hroot, -⟩ := readFrom_of_value hvalue
  rw [hroot] at hvalue hcs
  unfold Claims.shape at hcs
  obtain ⟨n, hn, hread⟩ := (record_reads_value hr hcs hvalue).1 w hw
  obtain ⟨w', hw', hshape⟩ := bind_eq_ok.mp hread
  obtain rfl : w = w' := Except.ok.inj (hn.symm.trans (mapError_eq_ok.mp hw'))
  exact (Except.ok.inj (mapError_eq_ok.mp hshape)).symm

theorem not_lacks_of_check {e : Claims.Expectation} (h : cs.check e = .ok ()) :
    Claims.lacks cs.iss e.issuer = false ∧ Claims.lacks cs.aud e.audience = false := by
  unfold Claims.check at h
  split_ifs at h with _ _ _ _ hiss haud
  exact ⟨by simpa using hiss, by simpa using haud⟩

theorem mem_of_not_lacks {names : List String}
    (h : Claims.lacks (.readable names) name = false) : name ∈ names := by
  simpa [Claims.lacks] using h

/-- **Where signatures are checked, the claims admit the issuer and the audience.** -/
theorem admits_of_check {bytes : List UInt8} {e : Claims.Expectation}
    (hvalue : Json.ofBytes bytes = .ok claims) (hcs : readBytes Claims.shape bytes = .ok cs)
    (hcheck : cs.check e = .ok ()) :
    Admits (claims.get? "iss") e.issuer ∧ Admits (claims.get? "aud") e.audience := by
  obtain ⟨hiss, haud⟩ := not_lacks_of_check hcheck
  constructor
  · intro w names hw hnames
    rw [names_of_shape (iss_reads false _) hvalue hcs hw, (audience_of_names? hnames).2] at hiss
    exact mem_of_not_lacks hiss
  · intro w names hw hnames
    rw [names_of_shape (aud_reads false _) hvalue hcs hw, (audience_of_names? hnames).2] at haud
    exact mem_of_not_lacks haud

/-! ### Verdicts -/

section Verdict

variable {v : KeyVerifier} {clock : Clock} {net : Network} {token : String}

theorem admits_of_verdict (h : (v.verify clock net token audience).1.verdict = .ok claims) :
    Admits (claims.get? "iss") v.issuer ∧ Admits (claims.get? "aud") audience := by
  by_cases hm : v.trustMode = .insecure
  · obtain ⟨-, -, -, hcheck⟩ := unsigned_of_verdict hm h
    exact admits_of_meets (meets_of_checkRegistered hcheck)
  · obtain ⟨-, -, -, bytes, cs, -, -, -, hvalue, hcs, hcheck⟩ := signed_of_verdict hm h
    exact admits_of_check hvalue hcs hcheck

theorem meets_of_routed {p : Peek} (hp : Peek.ofToken token = .ok p)
    (h : (v.verify clock net token audience).1.verdict = .ok claims) :
    Meets claims v.issuer audience := by
  obtain ⟨bytes, hbytes, hvalue⟩ := value_of_verdict h
  obtain ⟨ms, stop, hroot⟩ := root_of_verdict hp h hbytes
  have hagrees := agrees_of_object hp hbytes hvalue hroot
  obtain ⟨hi, ha⟩ := admits_of_verdict h
  exact meets_of_admits hagrees.issuer hagrees.audience hi ha

/-- **What accepted claims say.** Whatever token a verifier accepts, in whatever trust mode, its
claims admit the issuer and the audience. They are of the issuer and for the audience if signatures
go unchecked, and for every token that can be routed. -/
theorem verified_claims_admit (v : KeyVerifier) (clock : Clock) (net : Network)
    (token audience : String) (claims : Json)
    (h : (v.verify clock net token audience).1.verdict = .ok claims) :
    (Admits (claims.get? "iss") v.issuer ∧ Admits (claims.get? "aud") audience) ∧
      (v.trustMode = .insecure ∨ (∃ p, Peek.ofToken token = .ok p) →
        Meets claims v.issuer audience) := by
  refine ⟨admits_of_verdict h, ?_⟩
  rintro (hm | ⟨p, hp⟩)
  · obtain ⟨-, -, -, hcheck⟩ := unsigned_of_verdict hm h
    exact meets_of_checkRegistered hcheck
  · exact meets_of_routed hp h

end Verdict

/-! ### A list of issuers and no audience -/

/-- The network on which the address of the keys gives a set with one key. -/
def oneKeyNetwork : Network :=
  ⟨fun _ _ => .answered 200 none (Text.Utf8.encode
    ("\x7b\"keys\":[\x7b\"kty\":\"EC\",\"crv\":\"P-256\","
      ++ "\"x\":\"GnrqeI3pmvU-aeiMQMLRrxuIqDpbg2M7fDHAiRi4OPE\","
      ++ "\"y\":\"yD8lCWjxSs0EELKOInxGCRvsmdaD3HoNxhxKNvzqXuk\"\x7d]\x7d"))⟩

/-- A token that is signed with the key, whose issuer is a list and which has no audience. -/
def listedIssuer : String :=
  "eyJhbGciOiJFUzI1NiJ9.eyJpc3MiOlsiaHR0cDovL2EiXSwiZXhwIjoxOTAwMDAwMDAwfQ."
    ++ "VlM49wK_Qs02IW0QsZcAaiCC6rSeKwU96k9D8WcjpWFODbDjL452EvO8zjLLfNYKCgANSpQ7EXCrBR8l0_OXRw"

/-- A verifier of signatures for an issuer, which has fetched no keys yet. -/
def strictVerifier : KeyVerifier := ⟨"http://a", .strict, 60, .empty ⟨0⟩ "http://a/k" 3600000 10000⟩

theorem verify_listedIssuer : ∃ claims,
    (strictVerifier.verify ⟨1700000000, 0⟩ oneKeyNetwork listedIssuer "x").1.verdict = .ok claims ∧
      (claims.get? "iss").bind names? = some ["http://a"] ∧
      (claims.get? "iss").bind Json.asString? = none ∧ claims.get? "aud" = none := by
  have hrun : ((strictVerifier.verify ⟨1700000000, 0⟩ oneKeyNetwork listedIssuer
      "x").1.verdict.toOption.map fun claims =>
        decide ((claims.get? "iss").bind names? = some ["http://a"] ∧
          (claims.get? "iss").bind Json.asString? = none ∧ (claims.get? "aud").isNone)) =
      some true := by
    decide +kernel
  obtain ⟨claims, h, hclaims⟩ := Option.map_eq_some_iff.mp hrun
  obtain ⟨hnames, hissuer, haud⟩ := of_decide_eq_true hclaims
  exact ⟨claims, toOption_eq_some.mp h, hnames, hissuer, Option.isNone_iff_eq_none.mp haud⟩

theorem verified_claims_admit_listed : ∃ claims,
    (strictVerifier.verify ⟨1700000000, 0⟩ oneKeyNetwork listedIssuer "x").1.verdict = .ok claims ∧
      (Admits (claims.get? "iss") "http://a" ∧ Admits (claims.get? "aud") "x") ∧
      (strictVerifier.trustMode = .insecure ∨ (∃ p, Peek.ofToken listedIssuer = .ok p) →
        Meets claims "http://a" "x") := by
  obtain ⟨claims, h, -⟩ := verify_listedIssuer
  exact ⟨claims, h, verified_claims_admit _ _ _ _ _ _ h⟩

/-- **Not all accepted claims are of the issuer and for the audience.** A signed token may list
issuers and leave out the audience. -/
theorem not_forall_verified_meet : ¬ ∀ (v : KeyVerifier) (clock : Clock) (net : Network)
    (token audience : String) (claims : Json),
    (v.verify clock net token audience).1.verdict = .ok claims →
      Meets claims v.issuer audience := by
  intro hall
  obtain ⟨claims, h, -, hissuer, -⟩ := verify_listedIssuer
  have hmeets := hall _ _ _ _ _ _ h
  rw [hmeets.issuer] at hissuer
  cases hissuer

end TokenGate.Proofs.Verify.Contract
