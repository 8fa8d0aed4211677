import TokenGate.Proofs.Auth.Completeness

/-! # All trust modes come to the same verdict

Where signatures go unchecked the registered claims are checked on the value of the payload, in
integers of 64 bits with a sign, and else on the record of them, in naturals. Of claims of the kinds
that are meant both ways find the same thing wrong, and find the same thing first (`first_of_value`,
`first_of_record`). So the verdict about a signed token does not depend on the trust mode
(`modes_agree`). -/

namespace TokenGate.Proofs.Verify.Modes

open TokenGate.Json TokenGate.Http TokenGate.Token TokenGate.Proofs.Results
open TokenGate.Proofs.Json.Members (eq_string_of_asString?)
open TokenGate.Proofs.Json.Records TokenGate.Proofs.Token.Routing TokenGate.Proofs.Token.Segments
open TokenGate.Proofs.Token.Acceptance TokenGate.Proofs.Verify.Verdict
open TokenGate.Proofs.Verify.Expiry TokenGate.Proofs.Verify.Acceptance
open TokenGate.Proofs.Registry.History (after claimed?_eq_some)
open TokenGate.Proofs.Auth.Soundness TokenGate.Proofs.Auth.Completeness

/-! ### Verdicts -/

/-- What is wrong with registered claims, the first thing in the order in which they are looked at:
an expiry that is left out or has passed, a start that lies ahead, another issuer, other
audiences. -/
def firstWrong (exp nbf : Option ℤ) (issuer : String) (names : List String)
    (e : Claims.Expectation) : Option VerifyFault :=
  match exp with
  | none => some (.malformed "no expiry")
  | some z =>
    if z < e.now - e.leeway then some .expired
    else if ∃ z ∈ nbf, e.now + e.leeway < z then some .notYetValid
    else if issuer ≠ e.issuer then some .invalidIssuer
    else if e.audience ∉ names then some .invalidAudience
    else none

/-- The verdict where this is wrong, or nothing is. -/
def verdictOn {α : Type} (a : α) : Option VerifyFault → Except VerifyFault α
  | none => .ok a
  | some f => .error f

/-- A verdict without the wording of a refusal: what is handed on, or the kind of the refusal. -/
def outline {α : Type} (x : Except VerifyFault α) : Except ℕ α := x.mapError VerifyFault.ctorIdx

theorem outline_map {α β : Type} (f : α → β) (x : Except VerifyFault α) :
    outline (f <$> x) = f <$> outline x := by
  cases x <;> rfl

/-- The verdict that hands on the claims where the checks of them find this wrong. -/
theorem outline_of_checks {check : Except VerifyFault Unit} {wrong : Option VerifyFault}
    (h : outline check = outline (verdictOn () wrong)) (claims : Json) :
    outline ((fun _ => claims) <$> check) = outline (verdictOn claims wrong) := by
  rw [outline_map, h, ← outline_map]
  cases wrong <;> rfl

/-! ### Checks of the record -/

section Checks

variable {claims : Json} {issuer : String} {names : List String} {exp nbf : Option ℤ}

theorem isBefore_timeOf {z t : ℤ} (hz : 0 ≤ z) :
    Claims.isBefore (timeOf (some z)) t = decide (z < t) := by
  rw [timeOf, Claims.isBefore, Int.toNat_of_nonneg hz]

theorem isAfter_timeOf (h : ∀ z ∈ nbf, 0 ≤ z) (t : ℤ) :
    Claims.isAfter (timeOf nbf) t = decide (∃ z ∈ nbf, t < z) := by
  cases nbf with
  | none => simp [timeOf, Claims.isAfter]
  | some z => simp [timeOf, Claims.isAfter, Int.toNat_of_nonneg (h z rfl)]

theorem isUnreadable_timeOf (nbf : Option ℤ) : Claims.isUnreadable (timeOf nbf) = false := by
  cases nbf <;> rfl

theorem lacks_readable (names : List String) (name : String) :
    Claims.lacks (.readable names) name = decide (name ∉ names) := by
  simp [Claims.lacks]

/-- **The checks of the record find what is wrong first.** -/
theorem first_of_record (h : Typed claims issuer names exp nbf) {e : Claims.Expectation}
    (hexact : e.Exact) :
    outline ((Claims.check ⟨timeOf exp, timeOf nbf, .readable [issuer], .readable names⟩
      e).mapError .ofToken) = outline (verdictOn () (firstWrong exp nbf issuer names e)) := by
  cases exp with
  | none => rfl
  | some z =>
    have hreadable : Claims.isReadable (timeOf (some z)) = true := rfl
    have hissuer : e.issuer ∉ [issuer] ↔ issuer ≠ e.issuer := by
      rw [List.mem_singleton, ne_comm]
    rw [Claims.check, hreadable, isUnreadable_timeOf, hexact.earliest_eq, hexact.latest_eq,
      isBefore_timeOf (h.exp_nonneg z rfl), isAfter_timeOf h.start_nonneg, lacks_readable,
      lacks_readable, firstWrong]
    simp only [Bool.not_true, Bool.false_eq_true, if_false, decide_eq_true_eq, hissuer]
    split_ifs <;> rfl

/-! ### Checks of the value -/

theorem namesAudience_of_audience {w : Json} (h : names? w = some names) (name : String) :
    Verify.namesAudience (some w) name = decide (name ∈ names) := by
  rw [Bool.eq_iff_iff, decide_eq_true_eq]
  refine ⟨fun hw => ?_, namesAudience_of_names? h⟩
  cases w with
  | string s =>
    cases h
    rw [List.mem_singleton, ← of_decide_eq_true hw]
  | array items =>
    obtain ⟨v, hv, hs⟩ := List.any_eq_true.mp hw
    rw [eq_string_of_asString? (of_decide_eq_true hs)] at hv
    exact (mem_iff_of_mapM_asString? h).mpr hv
  | null | bool b | number x | object ms => cases h

/-- A tolerance within the time since 1970 moves no bound out of the range of 64 bits, as far as
integers of 64 bits can tell. -/
theorem bounds_of_tolerance {leeway : UInt64} {now : Int64} (h : leeway.toNat ≤ now.toInt) {z : ℤ}
    (hz : z ≤ Verify.maxInt64) :
    (z < Verify.saturate (now.toInt - Verify.tolerance leeway) ↔ z < now.toInt - leeway.toNat) ∧
      (Verify.saturate (now.toInt + Verify.tolerance leeway) < z ↔ now.toInt + leeway.toNat < z) := by
  have hnow : now.toInt ≤ Verify.maxInt64 := Int64.toInt_le now
  unfold Verify.tolerance Verify.saturate Verify.minInt64 Verify.maxInt64 at *
  constructor <;> omega

/-- **The checks of the value find what is wrong first.** -/
theorem first_of_value (h : Typed claims issuer names exp nbf) (hexp : ∀ z ∈ exp, z < 2 ^ 63)
    (hnbf : ∀ z ∈ nbf, z < 2 ^ 63) {leeway : UInt64} {now : Int64} (hle : leeway.toNat ≤ now.toInt)
    (iss aud : String) :
    outline (Verify.checkRegistered claims iss aud leeway now) =
      outline (verdictOn () (firstWrong exp nbf issuer names ⟨iss, aud, leeway.toNat, now.toInt⟩)) := by
  have hmax : (2 : ℤ) ^ 63 = Verify.maxInt64 + 1 := rfl
  obtain ⟨w, haud, hnames⟩ := Option.bind_eq_some_iff.mp h.audience
  rw [Verify.checkRegistered, h.expiry, h.start, h.issuer, haud]
  cases exp with
  | none => rfl
  | some z =>
    have hz : z ≤ Verify.maxInt64 := by
      have := hexp z rfl
      omega
    rw [Option.map_some, Option.bind_some, asInt64?_of_fits (h.exp_nonneg z rfl) hz, firstWrong]
    simp only [(bounds_of_tolerance hle hz).1, Option.bind_some, Json.asString?,
      namesAudience_of_audience hnames, Bool.not_eq_true', decide_eq_false_iff_not, ne_eq,
      Option.some.injEq]
    cases nbf with
    | none =>
      simp only [Option.map_none, Option.mem_def, reduceCtorEq, false_and, exists_false, if_false]
      split_ifs <;> rfl
    | some y =>
      have hy : y ≤ Verify.maxInt64 := by
        have := hnbf y rfl
        omega
      rw [Option.map_some]
      dsimp only
      rw [asInt64?_of_fits (h.start_nonneg y rfl) hy]
      simp only [(bounds_of_tolerance hle hy).2, Option.mem_def, Option.some.injEq, exists_eq_left']
      split_ifs <;> rfl

end Checks

/-! ### The trust modes -/

section Modes

variable {v : KeyVerifier} {clock : Clock} {net : Network} {token audience : String}
variable {bytes : List UInt8} {claims : Json}

theorem verdict_unsigned (hm : v.trustMode = .insecure) (hbytes : payloadBytes? token = some bytes)
    (hvalue : Json.ofBytes bytes = .ok claims) :
    (v.verify clock net token audience).1.verdict = (fun _ => claims) <$>
      Verify.checkRegistered claims v.issuer audience v.leeway clock.wall := by
  have hclaims : ((payloadBytes? token).bind fun bytes => (Json.ofBytes bytes).toOption) =
      some claims := by
    rw [hbytes, Option.bind_some, hvalue]
    rfl
  rw [verify_of_insecure hm]
  dsimp only
  rw [KeyVerifier.verifyUnsigned, hclaims]
  rfl

theorem verdict_signed {c : Compact} {hd : Header} {key : Key.VerifyingKey} {cs : Claims}
    (hm : v.trustMode ≠ .insecure) (hsigned : SignedWith token c hd key)
    (hkey : (v.keys.lookup clock.steady net hd.kid).result = .ok key)
    (hpayload : segmentBytes c.payload = .ok bytes) (hvalue : Json.ofBytes bytes = .ok claims)
    (hcs : readBytes Claims.shape bytes = .ok cs) :
    (v.verify clock net token audience).1.verdict = (fun _ => claims) <$>
      (cs.check (v.expectation audience clock.wall)).mapError .ofToken := by
  rw [verify_of_header hm (readHeader_of_signedWith hsigned), hkey]
  dsimp only [Except.bind]
  rw [verifySigned_of_signedWith hsigned hpayload, readClaims, hvalue, hcs, Except.mapError, ok_bind,
    Except.mapError, ok_bind]
  cases cs.check (v.expectation audience clock.wall) <;> rfl

/-- **The trust mode does not matter to a token that is signed** with the key that is looked up, and
whose registered claims are of the kinds that are meant: every mode hands on the same claims or
refuses the token for the same reason, which is the first thing that is wrong. -/
theorem modes_agree {c : Compact} {hd : Header} {key : Key.VerifyingKey} {issuer : String}
    {names : List String} {exp nbf : Option ℤ} (hsigned : SignedWith token c hd key)
    (hkey : (v.keys.lookup clock.steady net hd.kid).result = .ok key)
    (hpayload : segmentBytes c.payload = .ok bytes) (hobject : IsObject bytes claims)
    (h : Typed claims issuer names exp nbf) (hexp : ∀ z ∈ exp, z < 2 ^ 63)
    (hnbf : ∀ z ∈ nbf, z < 2 ^ 63) (hleeway : v.leeway.toNat ≤ clock.wall.toInt)
    (mode mode' : TrustMode) :
    outline ({ v with trustMode := mode }.verify clock net token audience).1.verdict =
        outline ({ v with trustMode := mode' }.verify clock net token audience).1.verdict ∧
      outline ({ v with trustMode := mode }.verify clock net token audience).1.verdict =
        outline (verdictOn claims
          (firstWrong exp nbf issuer names (v.expectation audience clock.wall))) := by
  have hverdict : ∀ mode : TrustMode,
      outline ({ v with trustMode := mode }.verify clock net token audience).1.verdict =
        outline (verdictOn claims
          (firstWrong exp nbf issuer names (v.expectation audience clock.wall))) := by
    intro mode
    by_cases hm : mode = .insecure
    · have hbytes := (payloadBytes?_of_signedWith hsigned).mpr hpayload
      rw [verdict_unsigned hm hbytes hobject.value]
      exact outline_of_checks (first_of_value h hexp hnbf hleeway _ _) claims
    · rw [verdict_signed (v := { v with trustMode := mode }) hm hsigned hkey hpayload hobject.value
        (readBytes_of_typed hobject h)]
      exact outline_of_checks (first_of_record h (exact_expectation hleeway)) claims
  exact ⟨(hverdict mode).trans (hverdict mode').symm, hverdict mode⟩

end Modes

/-! ### A signed token that is wrong in two ways -/

/-- The token that is signed has a verifier that finds the key. -/
theorem exists_signedWith : ∃ (v : KeyVerifier) (c : Compact) (hd : Header) (key : Key.VerifyingKey),
    SignedWith signedCall.token c hd key ∧
      (v.keys.lookup signedCall.clock.steady signedCall.net hd.kid).result = .ok key := by
  obtain ⟨r, i, -, hr, hi, -⟩ := run_signedCall_unsignedCall
  have hi : (signedCall.run (after r [])).result = .ok i := hi
  obtain ⟨peek, hpeek, c, hc, hissuer, mode, uri, cached, audience, claims, j, hmode, -, -, -, -,
    hverdict, -⟩ := verdict_of_run hr hi
  have hkey : c.issuer = "http://a" := by
    rw [hissuer]
    exact Option.some.inj ((claimed?_eq_some.mpr ⟨peek, hpeek, rfl⟩).symm.trans claimed?_signedCall)
  have hstrict : ∀ c ∈ (Load.plan checkedAndUnchecked).1, c.issuer = "http://a" →
      c.trustMode = .ok .strict := by decide
  have hm : mode ≠ .insecure := by
    rintro rfl
    cases hmode.symm.trans (hstrict c hc hkey)
  obtain ⟨parts, hd, key, -, -, hsigned, hlookup, -⟩ := signed_of_verdict hm hverdict
  exact ⟨_, parts, hd, key, hsigned, hlookup⟩

/-- A time at which the token has expired. -/
def laterClock : Clock := ⟨1700001000, 0⟩

/-- To a verifier for another issuer the token is of a wrong issuer, and later it has expired, too.
All modes say that it has expired. -/
theorem modes_agree_expired : ∃ (v : KeyVerifier) (c : Compact) (hd : Header)
    (key : Key.VerifyingKey) (claims : Json) (names : List String) (nbf : Option ℤ),
    SignedWith signedCall.token c hd key ∧
    (v.keys.lookup laterClock.steady documentNetwork hd.kid).result = .ok key ∧
    segmentBytes c.payload = .ok signedPayload ∧ IsObject signedPayload claims ∧
    Typed claims "http://a" names (some 1700000100) nbf ∧ v.issuer = "http://c" ∧
    v.leeway.toNat ≤ laterClock.wall.toInt ∧ ∀ mode mode' : TrustMode,
      outline ({ v with trustMode := mode }.verify laterClock documentNetwork
          signedCall.token "x").1.verdict =
        outline ({ v with trustMode := mode' }.verify laterClock documentNetwork
          signedCall.token "x").1.verdict ∧
      outline ({ v with trustMode := mode }.verify laterClock documentNetwork
        signedCall.token "x").1.verdict = .error VerifyFault.expired.ctorIdx := by
  obtain ⟨v, c, hd, key, hsigned, hkey⟩ := exists_signedWith
  obtain ⟨claims, hobject, hclaims⟩ := suffices_signedPayload
  obtain ⟨names, hregistered, -⟩ := hclaims.registered
  obtain ⟨nbf, htyped, hnbf⟩ := typed_of_registered hregistered
  have htyped : Typed claims "http://a" names (some 1700000100) nbf := htyped
  have hpayload : payloadBytes? signedCall.token = some signedPayload := by decide +kernel
  have hpayload := (payloadBytes?_of_signedWith hsigned).mp hpayload
  have hexp : ∀ z ∈ some (1700000100 : ℤ), z < 2 ^ 63 := by simp
  have hnbf : ∀ z ∈ nbf, z < 2 ^ 63 := fun z hz => (hnbf z hz).trans_lt (by decide)
  let v' : KeyVerifier := { v with issuer := "http://c", leeway := 60 }
  have hkey : (v'.keys.lookup laterClock.steady documentNetwork hd.kid).result = .ok key := hkey
  have hleeway : v'.leeway.toNat ≤ laterClock.wall.toInt := (by decide : (60 : ℤ) ≤ 1700001000)
  refine ⟨v', c, hd, key, claims, names, nbf, hsigned, hkey, hpayload, hobject, htyped, rfl, hleeway,
    fun mode mode' => ?_⟩
  have hlate : (1700000100 : ℤ) < 1700001000 - 60 := by decide
  have hexpired : firstWrong (some 1700000100) nbf "http://a" names
      (v'.expectation "x" laterClock.wall) = some .expired := by
    rw [firstWrong]
    exact if_pos hlate
  obtain ⟨hsame, hverdict⟩ :=
    modes_agree hsigned hkey hpayload hobject htyped hexp hnbf hleeway mode mode'
  refine ⟨hsame, hverdict.trans ?_⟩
  rw [hexpired]
  rfl

end TokenGate.Proofs.Verify.Modes
