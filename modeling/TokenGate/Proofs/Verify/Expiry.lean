import TokenGate.Proofs.Verify.Verdict
import Mathlib.Algebra.Order.Round
import Mathlib.Data.Rat.Floor

/-! # Accepted tokens are within their time

In either trust mode a token is accepted only if it has not expired (`expiry_of_verdict`) and is
valid already (`notBefore_of_verdict`). -/

/-! ## Accepted tokens have not expired

The expiry is checked by one of two readings of the payload, the value of it or the record of
registered claims. Where it is an integer in the value, it is the same integer in the record, so in
either trust mode it is not before the time less the tolerance (`expiry_of_verdict`). -/

namespace TokenGate.Proofs.Verify.Expiry

open TokenGate.Json TokenGate.Http TokenGate.Token TokenGate.Proofs.Results
open TokenGate.Proofs.Json.Entries TokenGate.Proofs.Token.Routing TokenGate.Proofs.Verify.Verdict
open TokenGate.Proofs.Verify.Agreement

/-! ### Bounds that are kept within 64 bits -/

theorem le_saturate {z : Int} (h : z ≤ Verify.maxInt64) : z ≤ Verify.saturate z := by
  unfold Verify.saturate
  rw [min_eq_right h]
  exact le_max_right _ _

theorem saturate_le {z : Int} (h : Verify.minInt64 ≤ z) : Verify.saturate z ≤ z := by
  unfold Verify.saturate
  exact max_le h (min_le_right _ _)

theorem saturate_of_le {z : Int} (hlow : Verify.minInt64 ≤ z) (hhigh : z ≤ Verify.maxInt64) :
    Verify.saturate z = z :=
  le_antisymm (saturate_le hlow) (le_saturate hhigh)

theorem tolerance_le (leeway : UInt64) : Verify.tolerance leeway ≤ leeway.toNat := by
  have hlow : Verify.minInt64 ≤ (leeway.toNat : Int) := by
    unfold Verify.minInt64
    omega
  exact saturate_le hlow

theorem tolerance_nonneg (leeway : UInt64) : 0 ≤ Verify.tolerance leeway := by
  unfold Verify.tolerance Verify.saturate Verify.minInt64 Verify.maxInt64
  omega

theorem sub_le_saturate (now : Int64) (leeway : UInt64) :
    now.toInt - leeway.toNat ≤ Verify.saturate (now.toInt - Verify.tolerance leeway) := by
  have hle := tolerance_le leeway
  have hnonneg := tolerance_nonneg leeway
  have hnow : now.toInt ≤ Verify.maxInt64 := Int64.toInt_le now
  calc now.toInt - leeway.toNat ≤ now.toInt - Verify.tolerance leeway := by omega
    _ ≤ Verify.saturate (now.toInt - Verify.tolerance leeway) := le_saturate (by omega)

theorem saturate_add_le (now : Int64) (leeway : UInt64) :
    Verify.saturate (now.toInt + Verify.tolerance leeway) ≤ now.toInt + leeway.toNat := by
  have hle := tolerance_le leeway
  have hnonneg := tolerance_nonneg leeway
  have hnow : Verify.minInt64 ≤ now.toInt := Int64.le_toInt now
  calc Verify.saturate (now.toInt + Verify.tolerance leeway)
      ≤ now.toInt + Verify.tolerance leeway := saturate_le (by omega)
    _ ≤ now.toInt + leeway.toNat := by omega

/-! ### The expiry -/

theorem exp_of_check {cs : Claims} {e : Claims.Expectation} (h : cs.check e = .ok ()) :
    ∃ n, cs.exp = .readable n ∧ e.now - e.leeway ≤ n := by
  unfold Claims.check at h
  split_ifs at h with hreadable _ hbefore
  cases hexp : cs.exp with
  | readable n =>
    rw [hexp, Claims.isBefore] at hbefore
    have hearliest : e.earliest ≤ n := by simpa using hbefore
    exact ⟨n, rfl, e.sub_le_earliest.trans hearliest⟩
  | absent | unreadable =>
    rw [hexp] at hreadable
    exact absurd rfl hreadable

/-- **A time in the record is that of the value**, if the value is a number, and else it cannot be
read. -/
theorem time_of_shape {name : String} {time : Claims → Claim Nat} {depth : Nat}
    {ms : List (Literal × Node)} {stop : Option TextFault} {claims w : Json} {cs : Claims}
    (hr : Reads (Claims.entries false .expectedObjectCommaOrEnd) name
      (Claims.timeShape .expectedObjectCommaOrEnd) time)
    (hvalue : (Node.object ms stop).value (depth + 1) = .ok claims)
    (hcs : Claims.shape (depth + 1) (.object ms stop) = .ok cs) (hw : claims.get? name = some w) :
    (∃ x, w = .number x ∧ time cs = Claims.time x) ∨ time cs = .unreadable := by
  unfold Claims.shape at hcs
  obtain ⟨n, hw', hread⟩ := (record_reads_value hr hcs hvalue).1 w hw
  -- The value and the record are read from one node, which is of the kind of the value.
  have hkind := readFrom_of_value hw'
  cases w with
  | number x =>
    rw [show n = .number (.ok x) from hkind] at hread
    exact Or.inl ⟨x, rfl, (Except.ok.inj hread).symm⟩
  | null | bool b =>
    rw [show n = _ from hkind] at hread
    exact Or.inr (Except.ok.inj hread).symm
  | string s =>
    obtain ⟨l, rfl, hl⟩ := hkind
    rw [Claims.timeShape, hl] at hread
    exact Or.inr (Except.ok.inj hread).symm
  | array items =>
    obtain ⟨nodes, rfl⟩ := hkind
    cases nodes with
    | nil => exact Or.inr (Except.ok.inj hread).symm
    | cons n nodes => cases hread
  | object members =>
    obtain ⟨nodes, vs, rfl, -⟩ := hkind
    cases nodes with
    | nil => exact Or.inr (Except.ok.inj hread).symm
    | cons n nodes => cases hread

variable {v : KeyVerifier} {clock : Clock} {net : Network} {token audience : String} {claims : Json}

/-- **A token that a verifier accepts has not expired**, but for the tolerance. -/
theorem expiry_of_verdict {p : Peek} {z : Int} (hp : Peek.ofToken token = .ok p)
    (h : (v.verify clock net token audience).1.verdict = .ok claims)
    (hz : claims.get? "exp" = some (.int z)) : clock.wall.toInt - v.leeway.toNat ≤ z := by
  by_cases hm : v.trustMode = .insecure
  · -- The value is checked.
    obtain ⟨-, -, -, hcheck⟩ := unsigned_of_verdict hm h
    obtain ⟨exp, hexp, hle⟩ := get?_exp_of_checkRegistered hcheck
    rw [hz, Option.bind_some, Json.int, Json.asInt64?] at hexp
    split_ifs at hexp
    cases hexp
    exact (sub_le_saturate clock.wall v.leeway).trans hle
  · -- The record is checked, which has the expiry of the value.
    obtain ⟨-, -, -, bytes, cs, -, -, hbytes, hvalue, hcs, hcheck⟩ := signed_of_verdict hm h
    obtain ⟨ms, stop, hroot⟩ := root_of_verdict hp h hbytes
    have hvalue := (ofBytes_eq_ok.mp hvalue).1
    have hcs := (readBytes_eq_ok.mp hcs).1
    rw [hroot] at hvalue hcs
    obtain ⟨n, hn, hle⟩ := exp_of_check hcheck
    rcases time_of_shape (exp_reads false _) hvalue hcs hz with ⟨x, hx, hexp⟩ | hexp
    · cases hx
      rw [hexp, Claims.time] at hn
      split_ifs at hn with hnonneg
      cases hn
      rwa [Int.toNat_of_nonneg hnonneg] at hle
    · rw [hexp] at hn
      cases hn

end TokenGate.Proofs.Verify.Expiry

/-! ## Accepted tokens are valid already

A token may say from when on it is valid. Where signatures go unchecked this has to be an integer,
and where they are checked a number that rounds to a natural of 64 bits; a claim of any other kind
makes the token invalid. So in either trust mode it is a number that is not after the time plus the
tolerance, once it is rounded to a second (`notBefore_of_verdict`). -/

namespace TokenGate.Proofs.Verify.NotBefore

open TokenGate.Json TokenGate.Http TokenGate.Token TokenGate.Number TokenGate.Proofs.Results
open TokenGate.Proofs.Json.Entries TokenGate.Proofs.Token.Routing TokenGate.Proofs.Verify.Verdict
open TokenGate.Proofs.Json.Members (eq_int_of_asInt64?)
open TokenGate.Proofs.Verify.Agreement TokenGate.Proofs.Verify.Expiry

/-- The rational that a number denotes. -/
def rational : Json.Number → ℚ
  | .int z => z
  | .float x => if x.negative then -(x.ratio.1 / x.ratio.2) else x.ratio.1 / x.ratio.2

/-! ### Rounding -/

theorem ratio_snd_pos (x : Binary64) : 0 < x.ratio.2 := by
  unfold Binary64.ratio
  split_ifs
  · exact Nat.one_pos
  · exact Nat.pow_pos (by decide)

theorem round_div (a : ℕ) {b : ℕ} (hb : 0 < b) :
    round ((a : ℚ) / b) = ((2 * a + b) / (2 * b) : ℕ) := by
  have hb' : (b : ℚ) ≠ 0 := Nat.cast_ne_zero.mpr hb.ne'
  have hsum : (a : ℚ) / b + 1 / 2 = ((2 * a + b : ℕ) : ℚ) / ((2 * b : ℕ) : ℚ) := by
    push_cast
    field_simp
  rw [round_eq, hsum, Rat.floor_natCast_div_natCast, Int.natCast_div]

theorem rational_of_isZero {x : Binary64} (h : x.isZero = true) : rational (.float x) = 0 := by
  have hm : x.mantissa = 0 := of_decide_eq_true h
  have hratio : x.ratio.1 = 0 := by
    unfold Binary64.ratio
    split_ifs <;> simp [hm]
  simp [rational, hratio]

theorem time_ne_absent (x : Json.Number) : Claims.time x ≠ .absent := by
  cases x with
  | int z =>
    rw [Claims.time]
    split_ifs <;> simp
  | float x =>
    rw [Claims.time]
    dsimp only
    split_ifs <;> simp

/-- **A time that can be read is the number that was written, rounded to a second.** -/
theorem round_of_time {x : Json.Number} {n : ℕ} (h : Claims.time x = .readable n) :
    round (rational x) = n := by
  cases x with
  | int z =>
    rw [Claims.time] at h
    split_ifs at h with hz
    cases h
    rw [rational, round_intCast, Int.toNat_of_nonneg hz]
  | float x =>
    rw [Claims.time] at h
    dsimp only at h
    split_ifs at h with hrange
    cases h
    have hround : round ((x.ratio.1 : ℚ) / x.ratio.2) = x.roundToNat :=
      round_div _ (ratio_snd_pos x)
    by_cases hneg : x.negative = true
    · -- Of the numbers with a minus sign only the zero can be read.
      have hzero : x.isZero = true := by
        by_contra hzero
        simp [hneg, hzero] at hrange
      have hrat := rational_of_isZero hzero
      rw [rational, if_pos hneg, neg_eq_zero] at hrat
      rw [rational, if_pos hneg, ← hround, hrat, neg_zero]
    · rw [rational, if_neg hneg]
      exact hround

/-! ### Checks -/

/-- Registered claims that hold have no start, or one that can be read and has passed. -/
theorem nbf_of_check {cs : Claims} {e : Claims.Expectation} (h : cs.check e = .ok ()) :
    cs.nbf = .absent ∨ ∃ n : ℕ, cs.nbf = .readable n ∧ n ≤ e.now + e.leeway := by
  unfold Claims.check at h
  split_ifs at h with _ hreadable _ hafter
  cases hnbf : cs.nbf with
  | absent => exact Or.inl rfl
  | readable n =>
    rw [hnbf, Claims.isAfter] at hafter
    have hlatest : n ≤ e.latest := by simpa using hafter
    exact Or.inr ⟨n, rfl, hlatest.trans e.latest_le_add⟩
  | unreadable =>
    rw [hnbf] at hreadable
    exact absurd rfl hreadable

/-- A start of an unsigned token is an integer that has passed. -/
theorem nbf_of_checkRegistered {claims w : Json} {issuer audience : String} {leeway : UInt64}
    {now : Int64} (h : Verify.checkRegistered claims issuer audience leeway now = .ok ())
    (hw : claims.get? "nbf" = some w) :
    ∃ z : ℤ, w = .int z ∧ z ≤ Verify.saturate (now.toInt + Verify.tolerance leeway) := by
  unfold Verify.checkRegistered at h
  split at h
  · cases h
  · rw [hw] at h
    dsimp only at h
    split at h
    · cases h
    · split at h
      · cases h
      · rename_i z hz
        split_ifs at h with hlate
        exact ⟨z, eq_int_of_asInt64? hz, not_lt.mp hlate⟩

/-! ### Verdicts -/

variable {v : KeyVerifier} {clock : Clock} {net : Network} {token audience : String}
variable {claims w : Json}

/-- **A token that a verifier accepts is valid already**, but for the tolerance: if it says from
when on, it does so with a number. -/
theorem notBefore_of_verdict {p : Peek} (hp : Peek.ofToken token = .ok p)
    (h : (v.verify clock net token audience).1.verdict = .ok claims)
    (hw : claims.get? "nbf" = some w) :
    ∃ x, w = .number x ∧ round (rational x) ≤ clock.wall.toInt + v.leeway.toNat := by
  by_cases hm : v.trustMode = .insecure
  · -- The value is checked.
    obtain ⟨-, -, -, hcheck⟩ := unsigned_of_verdict hm h
    obtain ⟨z, rfl, hz⟩ := nbf_of_checkRegistered hcheck hw
    refine ⟨.int z, rfl, ?_⟩
    rw [rational, round_intCast]
    exact hz.trans (saturate_add_le clock.wall v.leeway)
  · -- The record is checked, which has the time of the value, rounded.
    obtain ⟨-, -, -, bytes, cs, -, -, hbytes, hvalue, hcs, hcheck⟩ := signed_of_verdict hm h
    obtain ⟨ms, stop, hroot⟩ := root_of_verdict hp h hbytes
    have hvalue := (ofBytes_eq_ok.mp hvalue).1
    have hcs := (readBytes_eq_ok.mp hcs).1
    rw [hroot] at hvalue hcs
    have htime := time_of_shape (nbf_reads false _) hvalue hcs hw
    rcases nbf_of_check hcheck with habsent | ⟨n, hn, hle⟩
    · rcases htime with ⟨x, rfl, hx⟩ | hx
      · exact absurd (hx.symm.trans habsent) (time_ne_absent x)
      · rw [habsent] at hx
        cases hx
    · rcases htime with ⟨x, rfl, hx⟩ | hx
      · exact ⟨x, rfl, (round_of_time (hx.symm.trans hn)).trans_le hle⟩
      · rw [hn] at hx
        cases hx

end TokenGate.Proofs.Verify.NotBefore
