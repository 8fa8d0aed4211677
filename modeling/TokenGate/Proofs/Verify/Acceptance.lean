import TokenGate.Proofs.Key.Lookup
import TokenGate.Proofs.Token.Acceptance
import TokenGate.Proofs.Verify.Expiry
import TokenGate.Time.Timestamp

/-! # Tokens that a verifier accepts

A verifier hands on the claims of a payload whose registered claims are as they are meant, and it
does so without delay (`verify_of_registered`): where signatures go unchecked whatever stands around
the payload, and else for a token that is signed with the key that is looked up. -/

namespace TokenGate.Proofs.Verify.Acceptance

open TokenGate.Json TokenGate.Http TokenGate.Token TokenGate.Proofs.Results
open TokenGate.Proofs.Json.Records TokenGate.Proofs.Token.Routing
open TokenGate.Proofs.Token.Segments TokenGate.Proofs.Token.Acceptance
open TokenGate.Proofs.Key.Lookup TokenGate.Proofs.Verify.Verdict TokenGate.Proofs.Verify.Expiry

/-! ### Checks of a value -/

theorem namesAudience_of_names? {w : Json} {names : List String} {name : String}
    (h : names? w = some names) (hname : name ∈ names) :
    Verify.namesAudience (some w) name = true := by
  rcases mem_of_names? h hname with rfl | ⟨items, rfl, hitems⟩
  · exact decide_eq_true rfl
  · exact List.any_eq_true.mpr ⟨_, hitems, decide_eq_true rfl⟩

theorem asInt64?_of_fits {z : ℤ} (hlow : 0 ≤ z) (hhigh : z ≤ Verify.maxInt64) :
    Json.asInt64? (.int z) = some z := by
  unfold Verify.maxInt64 at hhigh
  rw [Json.int, Json.asInt64?, if_pos]
  simp only [fitsInt64, Bool.and_eq_true, decide_eq_true_eq]
  omega

/-- **Registered claims that are as they are meant pass the checks of a value**, for each name of
their audience, at a time of the calendar. -/
theorem checkRegistered_of_registered {claims : Json} {issuer name : String} {names : List String}
    {leeway : UInt64} {now : Int64} {exp : ℤ}
    (h : Registered claims issuer names leeway.toNat now.toInt exp) (hname : name ∈ names)
    (hleeway : leeway.toNat ≤ now.toInt) (hnow : now.toInt ≤ Time.maxSeconds)
    (hexp : exp ≤ Time.maxSeconds) :
    Verify.checkRegistered claims issuer name leeway now = .ok () := by
  have hmax : Time.maxSeconds + Time.maxSeconds ≤ Verify.maxInt64 := by decide
  have hexp64 : Json.asInt64? (.int exp) = some exp :=
    asInt64?_of_fits h.exp_nonneg (by omega)
  -- No bound leaves the range of 64 bits.
  have htolerance : Verify.tolerance leeway = leeway.toNat :=
    saturate_of_le (by unfold Verify.minInt64; omega) (by omega)
  have hlow : ¬ exp < Verify.saturate (now.toInt - Verify.tolerance leeway) := by
    have hle := h.not_expired
    rw [htolerance, saturate_of_le (by unfold Verify.minInt64; omega) (by omega)]
    omega
  obtain ⟨aud, haud, hnames⟩ := Option.bind_eq_some_iff.mp h.audience
  have haudience := namesAudience_of_names? hnames hname
  unfold Verify.checkRegistered
  rw [h.expiry, Option.bind_some, hexp64, h.issuer, haud]
  dsimp only
  rw [if_neg hlow]
  cases hnbf : claims.get? "nbf" with
  | none => simp [Json.asString?, haudience]
  | some w =>
    obtain ⟨nbf, rfl, hnonneg, hle⟩ := h.start w hnbf
    have hhigh : ¬ Verify.saturate (now.toInt + Verify.tolerance leeway) < nbf := by
      rw [htolerance, saturate_of_le (by unfold Verify.minInt64; omega) (by omega)]
      omega
    dsimp only
    rw [asInt64?_of_fits hnonneg (by omega)]
    simp [hhigh, Json.asString?, haudience]

/-! ### Verdicts -/

/-- A verifier hands on claims, and without delay. -/
def HandsOn (x : Reaction) (claims : Json) : Prop := x.verdict = .ok claims ∧ x.delay = .after 0

section Verdict

variable {v : KeyVerifier} {clock : Clock} {net : Network} {token name : String}
variable {bytes : List UInt8} {claims : Json}

theorem verify_unsigned (hm : v.trustMode = .insecure) (hbytes : payloadBytes? token = some bytes)
    (hvalue : Json.ofBytes bytes = .ok claims)
    (hcheck : Verify.checkRegistered claims v.issuer name v.leeway clock.wall = .ok ()) :
    HandsOn (v.verify clock net token name).1 claims := by
  have hclaims : ((payloadBytes? token).bind fun bytes => (Json.ofBytes bytes).toOption) =
      some claims := by
    rw [hbytes, Option.bind_some, hvalue]
    rfl
  rw [verify_of_insecure hm]
  refine ⟨?_, rfl⟩
  dsimp only
  rw [KeyVerifier.verifyUnsigned, hclaims]
  dsimp only
  rw [hcheck]
  rfl

theorem compact_of_signedWith {c : Compact} {hd : Header} {key : Key.VerifyingKey}
    (h : SignedWith token c hd key) : Compact.ofToken? token = some c := by
  obtain ⟨c', hbytes, hc', hsegment⟩ := segmentBytes_of_header h.header
  have hparts := (splitOn_of_header hc' hsegment).symm.trans h.parts
  simp only [List.cons.injEq, and_true] at hparts
  obtain ⟨hheader, hpayload, hsignature⟩ := hparts
  obtain ⟨header, payload, signature⟩ := c
  obtain ⟨header', payload', signature'⟩ := c'
  dsimp only at hheader hpayload hsignature
  rw [hc', hheader, hpayload, hsignature]

theorem readHeader_of_signedWith {c : Compact} {hd : Header} {key : Key.VerifyingKey}
    (h : SignedWith token c hd key) : KeyVerifier.readHeader token = .ok hd := by
  rw [KeyVerifier.readHeader, h.header, Except.mapError, ok_bind,
    if_pos (isAllowed_iff_mem.mpr h.allowed)]
  rfl

theorem payloadBytes?_of_signedWith {c : Compact} {hd : Header} {key : Key.VerifyingKey}
    (h : SignedWith token c hd key) :
    payloadBytes? token = some bytes ↔ segmentBytes c.payload = .ok bytes := by
  rw [payloadBytes?_eq_some, h.parts]
  constructor
  · rintro ⟨header, payload, rest, hparts, hsegment⟩
    simp only [List.cons.injEq] at hparts
    rw [hparts.2.1]
    exact hsegment
  · intro hsegment
    exact ⟨_, _, _, rfl, hsegment⟩

/-- **The verdict about a signed token** is what its payload is read as. -/
theorem verifySigned_of_signedWith {c : Compact} {hd : Header} {key : Key.VerifyingKey}
    (h : SignedWith token c hd key) (hpayload : segmentBytes c.payload = .ok bytes)
    (e : Claims.Expectation) : verifySigned token hd.algorithm key e = readClaims bytes e := by
  have hsignature : checkSignature c hd.algorithm key = .ok () :=
    checkSignature_eq_ok.mpr ⟨h.fits, h.signature⟩
  rw [verifySigned, compact_of_signedWith h]
  dsimp only
  rw [hsignature, ok_bind, hpayload, Except.mapError, ok_bind]

theorem verify_signed {c : Compact} {hd : Header} {key : Key.VerifyingKey} {cs : Claims}
    (hm : v.trustMode ≠ .insecure) (hsigned : SignedWith token c hd key)
    (hkey : (v.keys.lookup clock.steady net hd.kid).result = .ok key)
    (hbytes : payloadBytes? token = some bytes) (hvalue : Json.ofBytes bytes = .ok claims)
    (hcs : readBytes Claims.shape bytes = .ok cs)
    (hcheck : cs.check (v.expectation name clock.wall) = .ok ()) :
    HandsOn (v.verify clock net token name).1 claims := by
  have hpayload := (payloadBytes?_of_signedWith hsigned).mp hbytes
  have hclaims : readClaims bytes (v.expectation name clock.wall) = .ok claims :=
    readClaims_eq_ok.mpr ⟨hvalue, cs, hcs, hcheck⟩
  rw [verify_of_header hm (readHeader_of_signedWith hsigned), hkey, elapsed_of_lookup hkey]
  refine ⟨?_, rfl⟩
  dsimp only [Except.bind]
  rw [verifySigned_of_signedWith hsigned hpayload, hclaims]
  rfl

theorem exact_expectation (hleeway : v.leeway.toNat ≤ clock.wall.toInt) :
    (v.expectation name clock.wall).Exact where
  leeway_le := hleeway
  add_lt := by
    have hnow : clock.wall.toInt ≤ 2 ^ 63 - 1 := Int64.toInt_le clock.wall
    show clock.wall.toInt + v.leeway.toNat < 18446744073709551616
    omega

/-- **Tokens with registered claims that are as they are meant are accepted**, without delay. Unless
signatures go unchecked, the token has to be signed with the key that is looked up. -/
theorem verify_of_registered {names : List String} {exp : ℤ}
    (hbytes : payloadBytes? token = some bytes) (hobject : IsObject bytes claims)
    (h : Registered claims v.issuer names v.leeway.toNat clock.wall.toInt exp)
    (hname : name ∈ names) (hleeway : v.leeway.toNat ≤ clock.wall.toInt)
    (hnow : clock.wall.toInt ≤ Time.maxSeconds) (hexp : exp ≤ Time.maxSeconds)
    (hsigned : v.trustMode ≠ .insecure → ∃ c hd key, SignedWith token c hd key ∧
      (v.keys.lookup clock.steady net hd.kid).result = .ok key) :
    HandsOn (v.verify clock net token name).1 claims := by
  by_cases hm : v.trustMode = .insecure
  · exact verify_unsigned hm hbytes hobject.value
      (checkRegistered_of_registered h hname hleeway hnow hexp)
  · obtain ⟨c, hd, key, hsigned, hkey⟩ := hsigned hm
    obtain ⟨cs, hcs, hcheck⟩ := exists_claims hobject h hname (exact_expectation hleeway)
    exact verify_signed hm hsigned hkey hbytes hobject.value hcs hcheck

end Verdict

end TokenGate.Proofs.Verify.Acceptance
