import TokenGate.Proofs.Verify.Contract
import TokenGate.Proofs.Verify.Expiry

/-! # What the check of unsigned claims decides

The claims of an unsigned token are checked with times and a tolerance of 64 bits, where a bound
that would leave the range stays at its end. The same check can be said over all integers, as six
conditions one after the other (`Condition.Holds`): an answer is the fault of the first condition
that does not hold, and no bound that stays at an end changes it (`checkRegistered_eq_verdict`). Of
these conditions two depend on the time, each from one side, so that the times at which claims pass
are an interval, and it grows with the tolerance (`check_decides_conditions`). -/

namespace TokenGate.Proofs.Verify.Conditions

open TokenGate.Json TokenGate.Proofs.Results
open TokenGate.Proofs.Json.Members (eq_string_of_asString? eq_int_of_asInt64?)
open TokenGate.Proofs.Verify.Agreement (object_of_get?)
open TokenGate.Proofs.Verify.Contract (named_of_namesAudience)
open TokenGate.Proofs.Verify.Expiry (tolerance_nonneg)

/-! ### The conditions -/

/-- The tolerance that counts, which is a positive integer of 64 bits with a sign. -/
def allowance (leeway : UInt64) : ℤ := min leeway.toNat (2 ^ 63 - 1)

/-- An integer has 64 bits with a sign. -/
def Fits (z : ℤ) : Prop := -2 ^ 63 ≤ z ∧ z < 2 ^ 63

/-- What is looked at in unsigned claims. -/
inductive Condition
  | expiryKind
  | expiry
  | startKind
  | start
  | issuer
  | audience

namespace Condition

/-- The order in which the conditions are looked at. -/
def order : List Condition := [expiryKind, expiry, startKind, start, issuer, audience]

/-- The fault where a condition does not hold. -/
def fault : Condition → VerifyFault
  | expiryKind => .malformed "missing or non-integer exp"
  | expiry => .expired
  | startKind => .malformed "non-integer nbf"
  | start => .notYetValid
  | issuer => .invalidIssuer
  | audience => .invalidAudience

/-- What each condition says of claims, for an issuer and an audience, with a tolerance at a
time. -/
def Holds (claims : Json) (iss aud : String) (tolerance now : ℤ) : Condition → Prop
  | expiryKind => ∃ exp, claims.get? "exp" = some (.int exp) ∧ Fits exp
  | expiry => ∀ exp, claims.get? "exp" = some (.int exp) → now - tolerance ≤ exp
  | startKind => ∀ w, claims.get? "nbf" = some w → ∃ nbf, w = .int nbf ∧ Fits nbf
  | start => ∀ nbf, claims.get? "nbf" = some (.int nbf) → nbf ≤ now + tolerance
  | issuer => claims.get? "iss" = some (.string iss)
  | audience => claims.get? "aud" = some (.string aud) ∨
      ∃ items, claims.get? "aud" = some (.array items) ∧ .string aud ∈ items

end Condition

/-- A condition is the first that does not hold. -/
def First (holds : Condition → Prop) (c : Condition) : Prop :=
  ∃ before after, Condition.order = before ++ c :: after ∧ (∀ b ∈ before, holds b) ∧ ¬ holds c

/-- Claims are as they are meant: an object with an expiry that has not passed and a start, if there
is one, that has, of the issuer and for the audience. -/
structure Valid (claims : Json) (iss aud : String) (tolerance now : ℤ) : Prop where
  object : ∃ ms, claims = .object ms
  expiry : ∃ exp, claims.get? "exp" = some (.int exp) ∧ Fits exp ∧ now - tolerance ≤ exp
  start : ∀ w, claims.get? "nbf" = some w →
    ∃ nbf, w = .int nbf ∧ Fits nbf ∧ nbf ≤ now + tolerance
  issuer : claims.get? "iss" = some (.string iss)
  audience : claims.get? "aud" = some (.string aud) ∨
    ∃ items, claims.get? "aud" = some (.array items) ∧ .string aud ∈ items

variable {claims : Json} {iss aud : String} {tolerance now : ℤ}

theorem valid_iff_forall_holds : Valid claims iss aud tolerance now ↔
    ∀ c ∈ Condition.order, c.Holds claims iss aud tolerance now := by
  simp only [Condition.order, List.forall_mem_cons, List.not_mem_nil, false_implies, implies_true,
    and_true]
  constructor
  · intro h
    obtain ⟨exp, hexp, hfits, hle⟩ := h.expiry
    refine ⟨⟨exp, hexp, hfits⟩, ?_, ?_, ?_, h.issuer, h.audience⟩
    · intro exp' hexp'
      rw [hexp] at hexp'
      cases hexp'
      exact hle
    · intro w hw
      obtain ⟨nbf, hnbf, hfits, -⟩ := h.start w hw
      exact ⟨nbf, hnbf, hfits⟩
    · intro nbf hnbf
      obtain ⟨nbf', hnbf', -, hle⟩ := h.start _ hnbf
      cases hnbf'
      exact hle
  · rintro ⟨⟨exp, hexp, hfits⟩, hexpiry, hkind, hstart, hissuer, haudience⟩
    refine ⟨object_of_get? hexp, ⟨exp, hexp, hfits, hexpiry exp hexp⟩, ?_, hissuer, haudience⟩
    intro w hw
    obtain ⟨nbf, rfl, hfits⟩ := hkind w hw
    exact ⟨nbf, rfl, hfits, hstart nbf hw⟩

/-! ### Verdicts on a list of conditions -/

open Classical in
/-- The fault of the first condition of a list that does not hold, if there is one. -/
noncomputable def verdict (holds : Condition → Prop) : List Condition → Except VerifyFault Unit
  | [] => .ok ()
  | c :: cs => if holds c then verdict holds cs else .error c.fault

section Verdict

variable {holds : Condition → Prop} {c : Condition} {cs : List Condition}

theorem verdict_of_holds (h : holds c) : verdict holds (c :: cs) = verdict holds cs := if_pos h

theorem verdict_of_not (h : ¬ holds c) : verdict holds (c :: cs) = .error c.fault := if_neg h

theorem verdict_eq_ok : verdict holds cs = .ok () ↔ ∀ c ∈ cs, holds c := by
  induction cs with
  | nil => simp [verdict]
  | cons c cs ih =>
    by_cases hc : holds c
    · rw [verdict_of_holds hc, ih, List.forall_mem_cons, and_iff_right hc]
    · rw [verdict_of_not hc, List.forall_mem_cons]
      simp [hc]

/-- The fault is that of the first condition that does not hold. -/
theorem verdict_eq_error {f : VerifyFault} : verdict holds cs = .error f ↔
    ∃ before c after, cs = before ++ c :: after ∧ (∀ b ∈ before, holds b) ∧ ¬ holds c ∧
      f = c.fault := by
  induction cs with
  | nil => simp [verdict]
  | cons c cs ih =>
    by_cases hc : holds c
    · rw [verdict_of_holds hc, ih]
      constructor
      · rintro ⟨before, d, after, rfl, hbefore, hd⟩
        exact ⟨c :: before, d, after, rfl, List.forall_mem_cons.mpr ⟨hc, hbefore⟩, hd⟩
      · rintro ⟨_ | ⟨b, before⟩, d, after, hcs, hbefore, hd⟩
        · cases hcs
          exact absurd hc hd.1
        · cases hcs
          exact ⟨before, d, after, rfl, (List.forall_mem_cons.mp hbefore).2, hd⟩
    · rw [verdict_of_not hc]
      constructor
      · intro h
        cases h
        exact ⟨[], c, cs, rfl, by simp, hc, rfl⟩
      · rintro ⟨_ | ⟨b, before⟩, d, after, hcs, hbefore, -, hf⟩
        · cases hcs
          rw [hf]
        · cases hcs
          exact absurd (List.forall_mem_cons.mp hbefore).1 hc

end Verdict

/-! ### The check -/

theorem tolerance_eq_allowance (leeway : UInt64) : Verify.tolerance leeway = allowance leeway := by
  unfold Verify.tolerance Verify.saturate Verify.minInt64 Verify.maxInt64 allowance
  omega

theorem allowance_nonneg (leeway : UInt64) : 0 ≤ allowance leeway := by
  rw [← tolerance_eq_allowance]
  exact tolerance_nonneg leeway

theorem allowance_mono {leeway leeway' : UInt64} (h : leeway ≤ leeway') :
    allowance leeway ≤ allowance leeway' := by
  have hle := UInt64.le_iff_toNat_le.mp h
  unfold allowance
  omega

theorem asInt64?_eq_some {w : Json} {z : ℤ} : w.asInt64? = some z ↔ w = .int z ∧ Fits z := by
  have hfits : fitsInt64 z = true ↔ Fits z := by
    simp [fitsInt64, Fits]
  constructor
  · intro h
    obtain rfl := eq_int_of_asInt64? h
    rw [Json.int, Json.asInt64?] at h
    split_ifs at h with hz
    exact ⟨rfl, hfits.mp hz⟩
  · rintro ⟨rfl, hz⟩
    rw [Json.int, Json.asInt64?, if_pos (hfits.mpr hz)]

theorem lt_saturate_sub_iff {exp : ℤ} (h : Fits exp) (leeway : UInt64) (now : Int64) :
    exp < Verify.saturate (now.toInt - Verify.tolerance leeway) ↔
      ¬ now.toInt - allowance leeway ≤ exp := by
  have hnonneg := allowance_nonneg leeway
  have hnow := Int64.toInt_lt now
  rw [tolerance_eq_allowance]
  unfold Fits at h
  unfold Verify.saturate Verify.minInt64 Verify.maxInt64
  omega

theorem saturate_add_lt_iff {nbf : ℤ} (h : Fits nbf) (leeway : UInt64) (now : Int64) :
    Verify.saturate (now.toInt + Verify.tolerance leeway) < nbf ↔
      ¬ nbf ≤ now.toInt + allowance leeway := by
  have hnonneg := allowance_nonneg leeway
  have hnow := Int64.le_toInt now
  rw [tolerance_eq_allowance]
  unfold Fits at h
  unfold Verify.saturate Verify.minInt64 Verify.maxInt64
  omega

theorem asString?_eq_some {w : Json} {s : String} : w.asString? = some s ↔ w = .string s :=
  ⟨eq_string_of_asString?, fun h => by rw [h]; rfl⟩

theorem namesAudience_iff : Verify.namesAudience (claims.get? "aud") aud = true ↔
    Condition.audience.Holds claims iss aud tolerance now := by
  refine ⟨named_of_namesAudience, ?_⟩
  rintro (haud | ⟨items, haud, hmem⟩)
  · rw [haud]
    exact decide_eq_true rfl
  · rw [haud]
    exact List.any_eq_true.mpr ⟨_, hmem, decide_eq_true rfl⟩

section Check

variable {leeway : UInt64} {cs : List Condition}

variable (claims iss aud leeway) in
/-- The conditions that hold with a tolerance of 64 bits at a time of 64 bits. -/
def HoldsAt (now : Int64) : Condition → Prop :=
  Condition.Holds claims iss aud (allowance leeway) now.toInt

theorem verdict_expiry_unreadable {now : Int64}
    (h : (claims.get? "exp").bind Json.asInt64? = none) :
    verdict (HoldsAt claims iss aud leeway now) (.expiryKind :: cs) =
      .error (.malformed "missing or non-integer exp") := by
  refine verdict_of_not ?_
  rintro ⟨exp, hget, hfits⟩
  rw [hget, Option.bind_some, asInt64?_eq_some.mpr ⟨rfl, hfits⟩] at h
  cases h

theorem verdict_expiry {now : Int64} {exp : ℤ}
    (h : (claims.get? "exp").bind Json.asInt64? = some exp) :
    verdict (HoldsAt claims iss aud leeway now) (.expiryKind :: .expiry :: cs) =
      if exp < Verify.saturate (now.toInt - Verify.tolerance leeway) then .error .expired
      else verdict (HoldsAt claims iss aud leeway now) cs := by
  obtain ⟨w, hw, hint⟩ := Option.bind_eq_some_iff.mp h
  obtain ⟨rfl, hfits⟩ := asInt64?_eq_some.mp hint
  have hkind : HoldsAt claims iss aud leeway now .expiryKind := ⟨exp, hw, hfits⟩
  have hexpiry : HoldsAt claims iss aud leeway now .expiry ↔
      now.toInt - allowance leeway ≤ exp := by
    simp [HoldsAt, Condition.Holds, hw, Json.int]
  rw [verdict_of_holds hkind]
  split_ifs with hlt
  · exact verdict_of_not (mt hexpiry.mp ((lt_saturate_sub_iff hfits _ _).mp hlt))
  · exact verdict_of_holds (hexpiry.mpr (not_not.mp (mt (lt_saturate_sub_iff hfits _ _).mpr hlt)))

theorem verdict_start_absent {now : Int64} (h : claims.get? "nbf" = none) :
    verdict (HoldsAt claims iss aud leeway now) (.startKind :: .start :: cs) =
      verdict (HoldsAt claims iss aud leeway now) cs := by
  have hkind : HoldsAt claims iss aud leeway now .startKind := by
    simp [HoldsAt, Condition.Holds, h]
  have hstart : HoldsAt claims iss aud leeway now .start := by
    simp [HoldsAt, Condition.Holds, h]
  rw [verdict_of_holds hkind, verdict_of_holds hstart]

theorem verdict_start_unreadable {now : Int64} {w : Json} (h : claims.get? "nbf" = some w)
    (hw : w.asInt64? = none) :
    verdict (HoldsAt claims iss aud leeway now) (.startKind :: cs) =
      .error (.malformed "non-integer nbf") := by
  refine verdict_of_not fun hkind => ?_
  obtain ⟨nbf, rfl, hfits⟩ := hkind w h
  rw [asInt64?_eq_some.mpr ⟨rfl, hfits⟩] at hw
  cases hw

theorem verdict_start {now : Int64} {w : Json} {nbf : ℤ} (h : claims.get? "nbf" = some w)
    (hw : w.asInt64? = some nbf) :
    verdict (HoldsAt claims iss aud leeway now) (.startKind :: .start :: cs) =
      if Verify.saturate (now.toInt + Verify.tolerance leeway) < nbf then .error .notYetValid
      else verdict (HoldsAt claims iss aud leeway now) cs := by
  obtain ⟨rfl, hfits⟩ := asInt64?_eq_some.mp hw
  have hkind : HoldsAt claims iss aud leeway now .startKind := by
    intro w hw
    rw [h] at hw
    cases hw
    exact ⟨nbf, rfl, hfits⟩
  have hstart : HoldsAt claims iss aud leeway now .start ↔
      nbf ≤ now.toInt + allowance leeway := by
    simp [HoldsAt, Condition.Holds, h, Json.int]
  rw [verdict_of_holds hkind]
  split_ifs with hlt
  · exact verdict_of_not (mt hstart.mp ((saturate_add_lt_iff hfits _ _).mp hlt))
  · exact verdict_of_holds (hstart.mpr (not_not.mp (mt (saturate_add_lt_iff hfits _ _).mpr hlt)))

theorem verdict_names (now : Int64) :
    verdict (HoldsAt claims iss aud leeway now) [.issuer, .audience] =
      if (claims.get? "iss").bind Json.asString? ≠ some iss then .error .invalidIssuer
      else if !Verify.namesAudience (claims.get? "aud") aud then .error .invalidAudience
      else .ok () := by
  have hissuer : HoldsAt claims iss aud leeway now .issuer ↔
      (claims.get? "iss").bind Json.asString? = some iss := by
    simp only [Option.bind_eq_some_iff, asString?_eq_some, exists_eq_right]
    rfl
  have haudience : HoldsAt claims iss aud leeway now .audience ↔
      Verify.namesAudience (claims.get? "aud") aud = true := namesAudience_iff.symm
  split_ifs with hi ha
  · exact verdict_of_not (mt hissuer.mp hi)
  · rw [verdict_of_holds (hissuer.mpr (not_not.mp hi))]
    exact verdict_of_not (mt haudience.mp (by simpa using ha))
  · rw [verdict_of_holds (hissuer.mpr (not_not.mp hi)),
      verdict_of_holds (haudience.mpr (by simpa using ha))]
    rfl

variable (claims iss aud leeway) in
/-- **The check answers with the first condition that does not hold**, over all integers. -/
theorem checkRegistered_eq_verdict (now : Int64) :
    Verify.checkRegistered claims iss aud leeway now =
      verdict (HoldsAt claims iss aud leeway now) Condition.order := by
  unfold Verify.checkRegistered Condition.order
  cases hexp : (claims.get? "exp").bind Json.asInt64? with
  | none => exact (verdict_expiry_unreadable hexp).symm
  | some exp =>
    rw [verdict_expiry hexp]
    refine if_congr Iff.rfl rfl ?_
    cases hnbf : claims.get? "nbf" with
    | none => rw [verdict_start_absent hnbf, verdict_names]
    | some w =>
      dsimp only
      cases hw : w.asInt64? with
      | none => exact (verdict_start_unreadable hnbf hw).symm
      | some nbf => rw [verdict_start hnbf hw, verdict_names]

theorem checkRegistered_eq_ok {now : Int64} :
    Verify.checkRegistered claims iss aud leeway now = .ok () ↔
      Valid claims iss aud (allowance leeway) now.toInt := by
  rw [checkRegistered_eq_verdict, verdict_eq_ok, valid_iff_forall_holds]
  rfl

theorem checkRegistered_eq_error {now : Int64} {f : VerifyFault} :
    Verify.checkRegistered claims iss aud leeway now = .error f ↔
      ∃ c, First (HoldsAt claims iss aud leeway now) c ∧ f = c.fault := by
  rw [checkRegistered_eq_verdict, verdict_eq_error]
  constructor
  · rintro ⟨before, c, after, horder, hbefore, hc, hf⟩
    exact ⟨c, ⟨before, after, horder, hbefore, hc⟩, hf⟩
  · rintro ⟨c, ⟨before, after, horder, hbefore, hc⟩, hf⟩
    exact ⟨before, c, after, horder, hbefore, hc, hf⟩

end Check

/-! ### Times and tolerances -/

/-- The times from a start on, if there is one, up to an expiry, each moved outwards. -/
def window (start : Option ℤ) (expiry tolerance : ℤ) : Set ℤ :=
  {t | (∀ nbf ∈ start, nbf - tolerance ≤ t) ∧ t ≤ expiry + tolerance}

theorem valid_mono {tolerance' : ℤ} (h : Valid claims iss aud tolerance now)
    (hle : tolerance ≤ tolerance') : Valid claims iss aud tolerance' now where
  object := h.object
  expiry := by
    obtain ⟨exp, hexp, hfits, hnow⟩ := h.expiry
    exact ⟨exp, hexp, hfits, by omega⟩
  start := by
    intro w hw
    obtain ⟨nbf, hnbf, hfits, hnow⟩ := h.start w hw
    exact ⟨nbf, hnbf, hfits, by omega⟩
  issuer := h.issuer
  audience := h.audience

/-- **Claims that are valid at a time** are valid exactly in the window around it. -/
theorem window_of_valid (h : Valid claims iss aud tolerance now) : ∃ exp start,
    claims.get? "exp" = some (.int exp) ∧ claims.get? "nbf" = start.map Json.int ∧
      ∀ t, Valid claims iss aud tolerance t ↔ t ∈ window start exp tolerance := by
  obtain ⟨exp, hexp, hfits, -⟩ := h.expiry
  -- A start is an integer, whatever the time is.
  obtain ⟨start, hstart, hstartFits⟩ : ∃ start : Option ℤ,
      claims.get? "nbf" = start.map Json.int ∧ ∀ nbf ∈ start, Fits nbf := by
    cases hw : claims.get? "nbf" with
    | none => exact ⟨none, rfl, by simp⟩
    | some w =>
      obtain ⟨nbf, rfl, hnbf, -⟩ := h.start w hw
      exact ⟨some nbf, rfl, fun z hz => Option.some.inj hz ▸ hnbf⟩
  refine ⟨exp, start, hexp, hstart, fun t => ⟨fun ht => ⟨?_, ?_⟩, ?_⟩⟩
  · intro nbf hnbf
    obtain ⟨nbf', hint, -, hle⟩ := ht.start (.int nbf) (hstart.trans (congrArg _ hnbf))
    cases hint
    omega
  · obtain ⟨exp', hexp', -, hle⟩ := ht.expiry
    rw [hexp] at hexp'
    cases hexp'
    omega
  · rintro ⟨hlow, hhigh⟩
    refine ⟨h.object, ⟨exp, hexp, hfits, by omega⟩, ?_, h.issuer, h.audience⟩
    intro w hw
    obtain ⟨nbf, hnbf, rfl⟩ := Option.map_eq_some_iff.mp (hstart.symm.trans hw)
    exact ⟨nbf, rfl, hstartFits nbf hnbf, by have := hlow nbf hnbf; omega⟩

/-- **What the check of unsigned claims decides.** It passes exactly the claims that are valid over
all integers, with the tolerance cut to 63 bits, and refuses others with the fault of the first
condition that does not hold. Claims that pass at some time pass exactly in a window from their
start to their expiry, and claims that pass with a tolerance pass with a greater one. -/
theorem check_decides_conditions (claims : Json) (iss aud : String) (leeway : UInt64) :
    (∀ now, Verify.checkRegistered claims iss aud leeway now = .ok () ↔
        Valid claims iss aud (allowance leeway) now.toInt) ∧
      (∀ now f, Verify.checkRegistered claims iss aud leeway now = .error f ↔
        ∃ c, First (HoldsAt claims iss aud leeway now) c ∧ f = c.fault) ∧
      (∀ now, Verify.checkRegistered claims iss aud leeway now = .ok () →
        ∃ exp start, claims.get? "exp" = some (.int exp) ∧
          claims.get? "nbf" = start.map Json.int ∧
          ∀ t : Int64, Verify.checkRegistered claims iss aud leeway t = .ok () ↔
            t.toInt ∈ window start exp (allowance leeway)) ∧
      (∀ leeway' now, leeway ≤ leeway' →
        Verify.checkRegistered claims iss aud leeway now = .ok () →
        Verify.checkRegistered claims iss aud leeway' now = .ok ()) := by
  refine ⟨fun now => checkRegistered_eq_ok, fun now f => checkRegistered_eq_error, ?_, ?_⟩
  · intro now h
    obtain ⟨exp, start, hexp, hstart, hwindow⟩ := window_of_valid (checkRegistered_eq_ok.mp h)
    exact ⟨exp, start, hexp, hstart, fun t => checkRegistered_eq_ok.trans (hwindow t.toInt)⟩
  · intro leeway' now hle h
    exact checkRegistered_eq_ok.mpr (valid_mono (checkRegistered_eq_ok.mp h) (allowance_mono hle))

/-- Claims with the least expiry, and with a start that the greatest tolerance brings to the same
time. -/
def extremeClaims : Json := .object
  [("aud", .array [.null, .string "x"]), ("exp", .int (-9223372036854775808)),
    ("iss", .string "http://a"), ("nbf", .int 9223372036854775806)]

/-- The extreme claims pass at one time only, also with a tolerance that has no place in 63 bits. -/
theorem check_decides_conditions_extreme :
    (9223372036854775807 : UInt64) ≤ 18446744073709551615 ∧
      Verify.checkRegistered extremeClaims "http://a" "x" 9223372036854775807 (-1) = .ok () ∧
      Verify.checkRegistered extremeClaims "http://a" "x" 18446744073709551615 (-1) = .ok () ∧
      ∃ exp start, extremeClaims.get? "exp" = some (.int exp) ∧
        extremeClaims.get? "nbf" = start.map Json.int ∧
        ∀ t : Int64, Verify.checkRegistered extremeClaims "http://a" "x" 9223372036854775807 t =
            .ok () ↔ t.toInt ∈ window start exp (allowance 9223372036854775807) := by
  have hle : (9223372036854775807 : UInt64) ≤ 18446744073709551615 := by decide
  have hpass : Verify.checkRegistered extremeClaims "http://a" "x" 9223372036854775807 (-1) =
      .ok () := rfl
  obtain ⟨-, -, hwindow, hmono⟩ :=
    check_decides_conditions extremeClaims "http://a" "x" 9223372036854775807
  exact ⟨hle, hpass, hmono _ _ hle hpass, hwindow _ hpass⟩

end TokenGate.Proofs.Verify.Conditions
