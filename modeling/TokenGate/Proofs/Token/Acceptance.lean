import TokenGate.Proofs.Json.Records
import TokenGate.Proofs.Token.Routing

/-! # Payloads that are accepted

A payload that is an object with distinct names routes its token by the issuer and the audience that
it has (`ofToken_of_object`), whatever else it says. Where its registered claims are of the kinds
that are meant, the record of them says what the value says (`readBytes_of_typed`), and it holds
where they are as they are meant (`exists_claims`). -/

namespace TokenGate.Proofs.Token.Acceptance

open TokenGate.Json TokenGate.Token TokenGate.Proofs.Results TokenGate.Proofs.Json.Entries
open TokenGate.Proofs.Json.Records TokenGate.Proofs.Token.Routing TokenGate.Proofs.Token.Segments

variable {depth : Nat} {n : Node} {w : Json}

/-! ### Members -/

theorem string_of_value {s : String} (h : n.value depth = .ok (.string s)) :
    NodeShape.string depth n = .ok s := by
  obtain ⟨l, rfl, hl⟩ := readFrom_of_value h
  rw [NodeShape.string, NodeShape.text, hl]
  rfl

theorem ofValue_of_value {β : Type} {f : Shape β} {b : β} (h : n.value depth = .ok w)
    (hf : f w = .ok b) : NodeShape.ofValue f depth n = .ok b := by
  rw [NodeShape.ofValue, NodeShape.text, h, Except.mapError, ok_bind, NodeShape.shape, hf]
  rfl

theorem audience_of_names? {names : List String} (h : names? w = some names) :
    Peek.audienceShape w = .ok names ∧ Claims.names w = .readable names := by
  unfold names? at h
  split at h
  · cases h
    exact ⟨rfl, rfl⟩
  · rw [Peek.audienceShape, Claims.names, h]
    exact ⟨rfl, rfl⟩
  · cases h

/-! ### Routing -/

theorem recordOf_peek : RecordOf Peek.entries ⟨"", []⟩ Peek.claims := ⟨_, fun _ _ _ => rfl⟩

/-- **A payload that is an object routes its token by its issuer and its audience.** -/
theorem ofToken_of_object {token issuer : String} {bytes : List UInt8} {claims : Json}
    {names : List String} (hbytes : payloadBytes? token = some bytes)
    (hobject : IsObject bytes claims) (hissuer : claims.get? "iss" = some (.string issuer))
    (haudience : (claims.get? "aud").bind names? = some names) (hne : issuer ≠ "")
    (hsome : names ≠ []) : Peek.ofToken token = .ok ⟨issuer, names⟩ := by
  obtain ⟨aud, haud, hnames⟩ := Option.bind_eq_some_iff.mp haudience
  obtain ⟨p, hp⟩ : ∃ p, readBytes Peek.claims bytes = .ok p := by
    refine exists_readBytes recordOf_peek hobject (by simp [Peek.entries]) ?_
    simp only [Peek.entries, List.mem_cons, List.not_mem_nil, or_false, forall_eq_or_imp, forall_eq,
      name_free, hissuer, haud, Option.some.injEq]
    constructor
    · rintro w n depth rfl hn a
      exact ⟨_, set_free.mpr ⟨issuer, string_of_value hn, rfl⟩⟩
    · rintro w n depth rfl hn a
      exact ⟨_, set_free.mpr ⟨names, ofValue_of_value hn (audience_of_names? hnames).1, rfl⟩⟩
  have hpissuer : p.issuer = issuer := by
    obtain ⟨n, depth, hn, hread⟩ :=
      (field_of_readBytes recordOf_peek issuer_reads hobject hp).1 _ hissuer
    exact Except.ok.inj (hread.symm.trans (string_of_value hn))
  have hpaudience : p.audience = names := by
    obtain ⟨n, depth, hn, hread⟩ :=
      (field_of_readBytes recordOf_peek audience_reads hobject hp).1 _ haud
    exact Except.ok.inj
      (hread.symm.trans (ofValue_of_value hn (audience_of_names? hnames).1))
  obtain ⟨pissuer, paudience⟩ := p
  dsimp only at hpissuer hpaudience
  rw [Peek.ofToken, hbytes]
  dsimp only
  rw [hp, hpissuer, hpaudience]
  dsimp only
  rw [if_neg hne, if_neg hsome]

/-! ### Registered claims -/

/-- The registered claims of an object are as they are meant, and hold at a time: an issuer, the
names of an audience, an expiry and, if they are there, a start and a subject. -/
structure Registered (claims : Json) (issuer : String) (names : List String) (leeway : ℕ)
    (now exp : ℤ) : Prop where
  issuer : claims.get? "iss" = some (.string issuer)
  audience : (claims.get? "aud").bind names? = some names
  expiry : claims.get? "exp" = some (.int exp)
  exp_nonneg : 0 ≤ exp
  not_expired : now - leeway ≤ exp
  start : ∀ w, claims.get? "nbf" = some w → ∃ nbf, w = .int nbf ∧ 0 ≤ nbf ∧ nbf ≤ now + leeway
  subject : ∀ w, claims.get? "sub" = some w → ∃ s, w = .string s

/-- The registered claims of an object are of the kinds that are meant, whatever they say: an
issuer, the names of an audience, and, where they are there, an expiry, a start and a subject. -/
structure Typed (claims : Json) (issuer : String) (names : List String) (exp nbf : Option ℤ) :
    Prop where
  issuer : claims.get? "iss" = some (.string issuer)
  audience : (claims.get? "aud").bind names? = some names
  expiry : claims.get? "exp" = exp.map Json.int
  exp_nonneg : ∀ z ∈ exp, 0 ≤ z
  start : claims.get? "nbf" = nbf.map Json.int
  start_nonneg : ∀ z ∈ nbf, 0 ≤ z
  subject : ∀ w, claims.get? "sub" = some w → ∃ s, w = .string s

theorem typed_of_registered {claims : Json} {issuer : String} {names : List String} {leeway : ℕ}
    {now exp : ℤ} (h : Registered claims issuer names leeway now exp) :
    ∃ nbf, Typed claims issuer names (some exp) nbf ∧ ∀ z ∈ nbf, z ≤ now + leeway := by
  have hexp : ∀ z ∈ some exp, 0 ≤ z := fun z hz => Option.some.inj hz ▸ h.exp_nonneg
  cases hw : claims.get? "nbf" with
  | none =>
    exact ⟨none, ⟨h.issuer, h.audience, h.expiry, hexp, hw, by simp, h.subject⟩, by simp⟩
  | some w =>
    obtain ⟨nbf, rfl, hnonneg, hle⟩ := h.start w hw
    exact ⟨some nbf, ⟨h.issuer, h.audience, h.expiry, hexp, hw,
      fun z hz => Option.some.inj hz ▸ hnonneg, h.subject⟩, fun z hz => Option.some.inj hz ▸ hle⟩

/-- The time of an integer that may be left out. -/
def timeOf : Option ℤ → Claim ℕ
  | none => .absent
  | some z => .readable z.toNat

theorem time_of_value {left : TextFault} {z : ℤ} (h : n.value depth = .ok (.int z)) (hz : 0 ≤ z) :
    Claims.timeShape left depth n = .ok (.readable z.toNat) := by
  rw [show n = .number (.ok (.int z)) from readFrom_of_value h, Claims.timeShape, Claims.time,
    if_pos hz]

theorem subject_of_value {left : TextFault} {s : String} (h : n.value depth = .ok (.string s)) :
    Claims.subjectShape left depth n = .ok () := by
  obtain ⟨l, rfl, hl⟩ := readFrom_of_value h
  rw [Claims.subjectShape, NodeShape.text, hl]
  rfl

theorem recordOf_claims : RecordOf (Claims.entries false .expectedObjectCommaOrEnd)
    ⟨.absent, .absent, .absent, .absent⟩ Claims.shape := ⟨_, fun _ _ _ => rfl⟩

section Record

variable {bytes : List UInt8} {claims : Json} {issuer : String} {names : List String}
variable {exp nbf : Option ℤ}

theorem exists_readBytes_claims (hobject : IsObject bytes claims)
    (h : Typed claims issuer names exp nbf) : ∃ cs, readBytes Claims.shape bytes = .ok cs := by
  refine exists_readBytes recordOf_claims hobject (by simp [Claims.entries]) ?_
  simp only [Claims.entries, List.mem_cons, List.not_mem_nil, or_false, forall_eq_or_imp, forall_eq,
    name_free]
  refine ⟨?_, ?_, ?_, ?_, ?_⟩
  · intro w n depth hw hn a
    obtain ⟨z, hz, rfl⟩ := Option.map_eq_some_iff.mp (h.expiry.symm.trans hw)
    exact ⟨_, set_free.mpr ⟨_, time_of_value hn (h.exp_nonneg z hz), rfl⟩⟩
  · intro w n depth hw hn a
    obtain ⟨z, hz, rfl⟩ := Option.map_eq_some_iff.mp (h.start.symm.trans hw)
    exact ⟨_, set_free.mpr ⟨_, time_of_value hn (h.start_nonneg z hz), rfl⟩⟩
  · intro w n depth hw hn a
    obtain ⟨s, rfl⟩ := h.subject w hw
    exact ⟨_, set_free.mpr ⟨_, subject_of_value hn, rfl⟩⟩
  · intro w n depth _ hn a
    exact ⟨_, set_free.mpr ⟨_, ofValue_of_value hn rfl, rfl⟩⟩
  · intro w n depth _ hn a
    exact ⟨_, set_free.mpr ⟨_, ofValue_of_value hn rfl, rfl⟩⟩

theorem time_of_typed {name : String} {time : Claims → Claim ℕ} {z? : Option ℤ} {cs : Claims}
    (hr : Reads (Claims.entries false .expectedObjectCommaOrEnd) name
      (Claims.timeShape .expectedObjectCommaOrEnd) time)
    (hstart : time ⟨.absent, .absent, .absent, .absent⟩ = .absent) (hobject : IsObject bytes claims)
    (hcs : readBytes Claims.shape bytes = .ok cs) (hz : claims.get? name = z?.map Json.int)
    (hnonneg : ∀ z ∈ z?, 0 ≤ z) : time cs = timeOf z? := by
  obtain ⟨hthere, habsent⟩ := field_of_readBytes recordOf_claims hr hobject hcs
  cases z? with
  | none => exact (habsent hz).trans hstart
  | some z =>
    obtain ⟨n, depth, hn, hread⟩ := hthere _ hz
    exact Except.ok.inj (hread.symm.trans (time_of_value hn (hnonneg z rfl)))

/-- **The record of registered claims of the kinds that are meant** says what the value says. -/
theorem readBytes_of_typed (hobject : IsObject bytes claims)
    (h : Typed claims issuer names exp nbf) :
    readBytes Claims.shape bytes =
      .ok ⟨timeOf exp, timeOf nbf, .readable [issuer], .readable names⟩ := by
  obtain ⟨cs, hcs⟩ := exists_readBytes_claims hobject h
  have hexp : cs.exp = timeOf exp :=
    time_of_typed (exp_reads _ _) rfl hobject hcs h.expiry h.exp_nonneg
  have hnbf : cs.nbf = timeOf nbf :=
    time_of_typed (nbf_reads _ _) rfl hobject hcs h.start h.start_nonneg
  have hiss : cs.iss = .readable [issuer] := by
    obtain ⟨n, depth, hn, hread⟩ :=
      (field_of_readBytes recordOf_claims (iss_reads _ _) hobject hcs).1 _ h.issuer
    exact Except.ok.inj (hread.symm.trans (ofValue_of_value hn rfl))
  have haud : cs.aud = .readable names := by
    obtain ⟨aud, haud, hnames⟩ := Option.bind_eq_some_iff.mp h.audience
    obtain ⟨n, depth, hn, hread⟩ :=
      (field_of_readBytes recordOf_claims (aud_reads _ _) hobject hcs).1 _ haud
    refine Except.ok.inj (hread.symm.trans (ofValue_of_value hn ?_))
    rw [(audience_of_names? hnames).2]
  rw [hcs, ← hexp, ← hnbf, ← hiss, ← haud]

/-- **Registered claims that are as they are meant hold** for each name of their audience. -/
theorem exists_claims {leeway : ℕ} {now exp : ℤ} (hobject : IsObject bytes claims)
    (h : Registered claims issuer names leeway now exp) {name : String} (hname : name ∈ names)
    (hexact : (⟨issuer, name, leeway, now⟩ : Claims.Expectation).Exact) :
    ∃ cs, readBytes Claims.shape bytes = .ok cs ∧ cs.check ⟨issuer, name, leeway, now⟩ = .ok () := by
  obtain ⟨nbf, htyped, hnbf⟩ := typed_of_registered h
  refine ⟨_, readBytes_of_typed hobject htyped, ?_⟩
  have hbefore : Claims.isBefore (timeOf (some exp)) (now - leeway) = false := by
    refine decide_eq_false ?_
    rw [Int.toNat_of_nonneg h.exp_nonneg]
    exact not_lt.mpr h.not_expired
  have hstart : Claims.isUnreadable (timeOf nbf) = false ∧
      Claims.isAfter (timeOf nbf) (now + leeway) = false := by
    cases nbf with
    | none => exact ⟨rfl, rfl⟩
    | some z =>
      refine ⟨rfl, decide_eq_false ?_⟩
      rw [Int.toNat_of_nonneg (htyped.start_nonneg z rfl)]
      exact not_lt.mpr (hnbf z rfl)
  rw [Claims.check, hexact.earliest_eq, hexact.latest_eq, hbefore, hstart.1, hstart.2]
  simp [Claims.isReadable, timeOf, Claims.lacks, hname]

end Record

end TokenGate.Proofs.Token.Acceptance
