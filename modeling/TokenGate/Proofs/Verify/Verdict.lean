import TokenGate.Proofs.Token.Routing
import TokenGate.Verify.Verifier

/-! # What a verifier has seen

A verifier that hands on the claims of a token has seen all that it has to check of it
(`signed_of_verdict`, `unsigned_of_verdict`), and it has seen the payload that the token is routed
by (`verified_agrees_with_peek`). -/

/-! ## Verdicts that accept

What a verifier has seen of a token whose claims it hands on: the value of the payload, registered
claims that hold, and, unless signatures go unchecked, a signature under the key that was looked
up. -/

namespace TokenGate.Proofs.Verify.Verdict

open TokenGate.Text TokenGate.Json TokenGate.Http TokenGate.Token TokenGate.Proofs.Results
open TokenGate.Proofs.Json.Entries TokenGate.Proofs.Token.Segments

/-- A token in three parts is signed with a key, under an algorithm that a provider may use. -/
structure SignedWith (token : String) (c : Compact) (h : Header) (key : Key.VerifyingKey) :
    Prop where
  parts : splitOn '.' token.toList = [c.header, c.payload, c.signature]
  header : Header.ofToken token = .ok h
  allowed : h.algorithm ∈ ([.rs256, .rs384, .rs512, .ps256, .ps384, .ps512, .es256, .es384] :
    List Algorithm)
  fits : key.fits h.algorithm = true
  signature : ∃ s, segmentBytes c.signature = .ok s ∧
    key.verifies h.algorithm c.signingInput s = true

variable {v : KeyVerifier} {clock : Clock} {net : Network} {token audience : String} {claims : Json}

theorem header_of_readHeader {h : Header} (hh : KeyVerifier.readHeader token = .ok h) :
    Header.ofToken token = .ok h ∧ h.algorithm.isAllowed = true := by
  unfold KeyVerifier.readHeader at hh
  obtain ⟨h', hh', hallowed⟩ := bind_eq_ok.mp hh
  split_ifs at hallowed with ha
  cases hallowed
  exact ⟨mapError_eq_ok.mp hh', ha⟩

theorem isAllowed_iff_mem {a : Algorithm} : a.isAllowed = true ↔
    a ∈ ([.rs256, .rs384, .rs512, .ps256, .ps384, .ps512, .es256, .es384] : List Algorithm) := by
  cases a <;> decide

theorem checkSignature_eq_ok {c : Compact} {a : Algorithm} {k : Key.VerifyingKey} :
    checkSignature c a k = .ok () ↔ k.fits a = true ∧
      ∃ s, segmentBytes c.signature = .ok s ∧ k.verifies a c.signingInput s = true := by
  unfold checkSignature
  cases k.fits a with
  | false => simp
  | true =>
    cases hs : segmentBytes c.signature with
    | error f => simp
    | ok s => cases hv : k.verifies a c.signingInput s <;> simp [hv]

theorem readClaims_eq_ok {bytes : List UInt8} {e : Claims.Expectation} :
    readClaims bytes e = .ok claims ↔ Json.ofBytes bytes = .ok claims ∧
      ∃ cs, readBytes Claims.shape bytes = .ok cs ∧ cs.check e = .ok () := by
  unfold readClaims
  simp only [bind_eq_ok, mapError_eq_ok, pure_eq_ok]
  constructor
  · rintro ⟨w, hw, cs, hcs, _, hcheck, rfl⟩
    exact ⟨hw, cs, hcs, hcheck⟩
  · rintro ⟨hw, cs, hcs, hcheck⟩
    exact ⟨claims, hw, cs, hcs, (), hcheck, rfl⟩

/-! ### What a verifier does -/

theorem verify_of_insecure (hm : v.trustMode = .insecure) :
    v.verify clock net token audience =
      (⟨v.verifyUnsigned clock.wall token audience, .after 0, []⟩, v) := by
  unfold KeyVerifier.verify
  rw [if_pos (by simp [TrustMode.skipsSignature, hm])]

theorem verify_of_header_error (hm : v.trustMode ≠ .insecure) {f : VerifyFault}
    (hh : KeyVerifier.readHeader token = .error f) :
    v.verify clock net token audience = (⟨.error f, .after 0, []⟩, v) := by
  unfold KeyVerifier.verify
  rw [if_neg (by simpa [TrustMode.skipsSignature] using hm), hh]

theorem verify_of_header (hm : v.trustMode ≠ .insecure) {h : Header}
    (hh : KeyVerifier.readHeader token = .ok h) :
    v.verify clock net token audience =
      (⟨(v.keys.lookup clock.steady net h.kid).result.bind fun key =>
          (verifySigned token h.algorithm key (v.expectation audience clock.wall)).mapError .ofToken,
        .after (v.keys.lookup clock.steady net h.kid).elapsed,
        (v.keys.lookup clock.steady net h.kid).exchanges⟩,
        { v with keys := (v.keys.lookup clock.steady net h.kid).cache }) := by
  unfold KeyVerifier.verify
  rw [if_neg (by simpa [TrustMode.skipsSignature] using hm), hh]

/-- **What is seen of a token where signatures are checked.** -/
theorem signed_of_verdict (hm : v.trustMode ≠ .insecure)
    (h : (v.verify clock net token audience).1.verdict = .ok claims) :
    ∃ c hd key bytes cs, SignedWith token c hd key ∧
      (v.keys.lookup clock.steady net hd.kid).result = .ok key ∧
      payloadBytes? token = some bytes ∧ Json.ofBytes bytes = .ok claims ∧
      readBytes Claims.shape bytes = .ok cs ∧
      cs.check (v.expectation audience clock.wall) = .ok () := by
  cases hhd : KeyVerifier.readHeader token with
  | error f =>
    rw [verify_of_header_error hm hhd] at h
    cases h
  | ok hd =>
    rw [verify_of_header hm hhd] at h
    obtain ⟨hheader, hallowed⟩ := header_of_readHeader hhd
    obtain ⟨key, hkey, hverify⟩ := except_bind_eq_ok.mp h
    rw [mapError_eq_ok, verifySigned] at hverify
    obtain ⟨c, hbytes, hc, hhbytes⟩ := segmentBytes_of_header hheader
    rw [hc] at hverify
    obtain ⟨_, hsig, hverify⟩ := bind_eq_ok.mp hverify
    obtain ⟨bytes, hpayload, hread⟩ := bind_eq_ok.mp hverify
    rw [mapError_eq_ok] at hpayload
    obtain ⟨hfits, hsigned⟩ := checkSignature_eq_ok.mp hsig
    obtain ⟨hvalue, cs, hcs, hcheck⟩ := readClaims_eq_ok.mp hread
    exact ⟨c, hd, key, bytes, cs,
      ⟨splitOn_of_header hc hhbytes, hheader, isAllowed_iff_mem.mp hallowed, hfits, hsigned⟩, hkey,
      payloadBytes?_of_header hc hhbytes hpayload, hvalue, hcs, hcheck⟩

/-- **What is seen of a token where signatures go unchecked.** -/
theorem unsigned_of_verdict (hm : v.trustMode = .insecure)
    (h : (v.verify clock net token audience).1.verdict = .ok claims) :
    ∃ bytes, payloadBytes? token = some bytes ∧ Json.ofBytes bytes = .ok claims ∧
      Verify.checkRegistered claims v.issuer audience v.leeway clock.wall = .ok () := by
  rw [verify_of_insecure hm] at h
  change v.verifyUnsigned clock.wall token audience = .ok claims at h
  unfold KeyVerifier.verifyUnsigned at h
  split at h
  · cases h
  · rename_i w hw
    obtain ⟨bytes, hbytes, hw⟩ := Option.bind_eq_some_iff.mp hw
    obtain ⟨_, hcheck, h⟩ := bind_eq_ok.mp h
    cases h
    exact ⟨bytes, hbytes, toOption_eq_some.mp hw, hcheck⟩

/-- **What a verification leaves behind**: the verifier as it was, or with the keys that a lookup
leaves. -/
theorem verifier_verify (v : KeyVerifier) (clock : Clock) (net : Network) (token audience : String) :
    (v.verify clock net token audience).2 = v ∨ ∃ kid, (v.verify clock net token audience).2 =
      { v with keys := (v.keys.lookup clock.steady net kid).cache } := by
  by_cases hm : v.trustMode = .insecure
  · exact Or.inl (by rw [verify_of_insecure hm])
  · cases hhd : KeyVerifier.readHeader token with
    | error f => exact Or.inl (by rw [verify_of_header_error hm hhd])
    | ok hd => exact Or.inr ⟨hd.kid, by rw [verify_of_header hm hhd]⟩

end TokenGate.Proofs.Verify.Verdict

/-! ## The payload that is looked at is the payload that is verified

A token is routed by one reading of its payload and verified by another, and the two have different
rules: they split the token from different ends, and treat repeated members, arrays and unknown
members differently. Where both succeed they agree on the issuer and on the audience
(`verified_agrees_with_peek`). -/

namespace TokenGate.Proofs.Verify.Agreement

open TokenGate.Json TokenGate.Http TokenGate.Token TokenGate.Proofs.Results
open TokenGate.Proofs.Json.Entries TokenGate.Proofs.Token.Routing TokenGate.Proofs.Verify.Verdict

variable {v : KeyVerifier} {clock : Clock} {net : Network} {token audience : String} {claims : Json}

theorem value_of_verdict (h : (v.verify clock net token audience).1.verdict = .ok claims) :
    ∃ bytes, payloadBytes? token = some bytes ∧ Json.ofBytes bytes = .ok claims := by
  by_cases hm : v.trustMode = .insecure
  · obtain ⟨bytes, hbytes, hvalue, -⟩ := unsigned_of_verdict hm h
    exact ⟨bytes, hbytes, hvalue⟩
  · obtain ⟨-, -, -, bytes, -, -, -, hbytes, hvalue, -⟩ := signed_of_verdict hm h
    exact ⟨bytes, hbytes, hvalue⟩

theorem get?_exp_of_checkRegistered {issuer : String} {leeway : UInt64} {now : Int64}
    (h : Verify.checkRegistered claims issuer audience leeway now = .ok ()) :
    ∃ exp, (claims.get? "exp").bind Json.asInt64? = some exp ∧
      Verify.saturate (now.toInt - Verify.tolerance leeway) ≤ exp := by
  unfold Verify.checkRegistered at h
  split at h
  · cases h
  · rename_i exp hexp
    refine ⟨exp, hexp, not_lt.mp fun hlt => ?_⟩
    rw [if_pos hlt] at h
    cases h

theorem object_of_get? {v w : Json} {name : String} (h : v.get? name = some w) :
    ∃ ms, v = .object ms := by
  unfold Json.get? at h
  split at h
  · rename_i ms
    exact ⟨ms, rfl⟩
  · cases h

/-- **The payload of a token that was routed and verified is an object.** An array that routes a
token has no expiry where signatures go unchecked, and no subject where they are checked. -/
theorem root_of_verdict {p : Peek} {bytes : List UInt8} (hp : Peek.ofToken token = .ok p)
    (h : (v.verify clock net token audience).1.verdict = .ok claims)
    (hbytes : payloadBytes? token = some bytes) :
    ∃ ms stop, (Document.ofBytes bytes).root = .object ms stop := by
  obtain ⟨bytes', hbytes', hpeek, -⟩ := readBytes_of_peek hp
  obtain rfl := Option.some.inj (hbytes.symm.trans hbytes')
  have hpeek := (readBytes_eq_ok.mp hpeek).1
  rcases root_of_record hpeek with hobject | ⟨items, stop, hroot⟩
  · exact hobject
  · exfalso
    by_cases hm : v.trustMode = .insecure
    · -- The value of an array is an array, which has no member and so no expiry.
      obtain ⟨bytes', hbytes', hvalue, hcheck⟩ := unsigned_of_verdict hm h
      obtain rfl := Option.some.inj (hbytes.symm.trans hbytes')
      obtain ⟨exp, hexp, -⟩ := get?_exp_of_checkRegistered hcheck
      obtain ⟨w, hw, -⟩ := Option.bind_eq_some_iff.mp hexp
      obtain ⟨ms, rfl⟩ := object_of_get? hw
      obtain ⟨nodes, -, hnode, -⟩ := readFrom_of_value (ofBytes_eq_ok.mp hvalue).1
      rw [hroot] at hnode
      cases hnode
    · -- The record of registered claims wants a third item, and the routing claims allow two.
      obtain ⟨-, -, -, bytes', cs, -, -, hbytes', -, hcs, -⟩ := signed_of_verdict hm h
      obtain rfl := Option.some.inj (hbytes.symm.trans hbytes')
      have hcs := (readBytes_eq_ok.mp hcs).1
      rw [hroot] at hpeek hcs
      exact not_array_of_shape hpeek hcs

/-- What is handed on is the value of the payload that routed the token: an object with the issuer
and the audience that were looked at. -/
structure Agrees (token : String) (p : Peek) (claims : Json) : Prop where
  value : ∃ bytes, payloadBytes? token = some bytes ∧ Json.ofBytes bytes = .ok claims
  object : ∃ ms, claims = .object ms
  issuer : claims.get? "iss" = some (.string p.issuer)
  audience : (claims.get? "aud").bind names? = some p.audience

theorem agrees_of_object {p : Peek} {bytes : List UInt8} {ms : List (Literal × Node)}
    {stop : Option TextFault} (hp : Peek.ofToken token = .ok p)
    (hbytes : payloadBytes? token = some bytes) (hvalue : Json.ofBytes bytes = .ok claims)
    (hroot : (Document.ofBytes bytes).root = .object ms stop) : Agrees token p claims := by
  obtain ⟨bytes', hbytes', hpeek, hiss, haud⟩ := readBytes_of_peek hp
  obtain rfl := Option.some.inj (hbytes.symm.trans hbytes')
  have hpeek := (readBytes_eq_ok.mp hpeek).1
  have hnode := (ofBytes_eq_ok.mp hvalue).1
  rw [hroot] at hpeek hnode
  obtain ⟨-, vs, -, hobject⟩ := value_object hnode
  exact ⟨⟨bytes, hbytes, hvalue⟩, ⟨_, hobject⟩, get?_issuer_of_claims hpeek hnode hiss,
    names?_of_claims hpeek hnode haud⟩

/-- **Readings agree.** If a token can be routed and its verifier accepts it, in whatever trust
mode, for whatever audience, and with whatever keys in the cache, then what is handed on agrees with
what was looked at. -/
theorem verified_agrees_with_peek (v : KeyVerifier) (clock : Clock) (net : Network)
    (token audience : String) (p : Peek) (claims : Json) (hp : Peek.ofToken token = .ok p)
    (h : (v.verify clock net token audience).1.verdict = .ok claims) : Agrees token p claims := by
  obtain ⟨bytes, hbytes, hvalue⟩ := value_of_verdict h
  obtain ⟨ms, stop, hroot⟩ := root_of_verdict hp h hbytes
  exact agrees_of_object hp hbytes hvalue hroot

/-- A token of two segments whose payload spells a name with an escape. -/
theorem verified_agrees_with_peek_escaped : ∃ claims,
    Peek.ofToken ".eyJcdTAwNjlzcyI6ImEiLCJhdWQiOiJ4IiwiZXhwIjo5fQ" = .ok ⟨"a", ["x"]⟩ ∧
      ((⟨"a", .insecure, 0, .empty ⟨0⟩ "" 0 0⟩ : KeyVerifier).verify ⟨0, 0⟩ .unreachable
        ".eyJcdTAwNjlzcyI6ImEiLCJhdWQiOiJ4IiwiZXhwIjo5fQ" "x").1.verdict = .ok claims ∧
      Agrees ".eyJcdTAwNjlzcyI6ImEiLCJhdWQiOiJ4IiwiZXhwIjo5fQ" ⟨"a", ["x"]⟩ claims := by
  have hp : Peek.ofToken ".eyJcdTAwNjlzcyI6ImEiLCJhdWQiOiJ4IiwiZXhwIjo5fQ" = .ok ⟨"a", ["x"]⟩ := by
    decide +kernel
  have h : ((⟨"a", .insecure, 0, .empty ⟨0⟩ "" 0 0⟩ : KeyVerifier).verify ⟨0, 0⟩ .unreachable
      ".eyJcdTAwNjlzcyI6ImEiLCJhdWQiOiJ4IiwiZXhwIjo5fQ" "x").1.verdict.toOption.isSome := by
    decide +kernel
  obtain ⟨claims, h⟩ := Option.isSome_iff_exists.mp h
  rw [toOption_eq_some] at h
  exact ⟨claims, hp, h, verified_agrees_with_peek _ _ _ _ _ _ _ hp h⟩

end TokenGate.Proofs.Verify.Agreement
