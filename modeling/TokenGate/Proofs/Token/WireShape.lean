import TokenGate.Proofs.Json.Lexemes
import TokenGate.Proofs.Json.PrintedTokens
import TokenGate.Proofs.Token.Minted

/-! # The wire shape of routing claims

The claims that route a token are documented as an object with an issuer, which is a string, and an
audience, which is a string or an array of strings (`Documented`). Which tokens are routed is
settled in three steps, from the inside out. A node gives a string or an audience exactly if it is
one (`string_eq_ok`, `audience_eq_ok`); a tree gives complete claims exactly if it has one of two
shapes (`claims_iff_routes`); and a tree that gives claims can be passed over, so that its text
spells its lexemes (`whole_of_claims`). Together they describe the routed tokens
(`ofToken_iff_routes`).

The tokens of the documented shape are the routed ones whose payload is an object in UTF-8
(`documented_iff`). Others are routed too. The second of the two shapes is an array that lists
issuer and audience without their names, which the documentation does not know
(`not_forall_routed_documented`). And the strings that nobody reads may hold octets that are no
UTF-8. -/

namespace TokenGate.Proofs.Token.WireShape

open TokenGate.Json TokenGate.Text TokenGate.Token TokenGate.Proofs.Results
open TokenGate.Proofs.Json.Entries TokenGate.Proofs.Json.Grammar TokenGate.Proofs.Json.Lexemes
open TokenGate.Proofs.Json.Printed TokenGate.Proofs.Json.PrintedTokens
open TokenGate.Proofs.Json.Records TokenGate.Proofs.Json.Trees TokenGate.Proofs.Token.Fields
open TokenGate.Proofs.Token.Routing TokenGate.Proofs.Token.Segments

/-! ### Strings and audiences -/

/-- A string with a content. -/
def IsString (n : Node) (s : String) : Prop := ∃ l, n = .string l ∧ l.content = .ok s

/-- An audience: one string, or an array of strings. -/
inductive IsAudience : Node → List String → Prop
  | one {n : Node} {s : String} (h : IsString n s) : IsAudience n [s]
  | many {items : List Node} {names : List String} (h : List.Forall₂ IsString items names) :
    IsAudience (.array items none) names

theorem value_eq_string {depth : Nat} {n : Node} {s : String} :
    n.value depth = .ok (.string s) ↔ IsString n s := by
  constructor
  · exact readFrom_of_value
  · rintro ⟨l, rfl, hl⟩
    rw [Node.value, hl]
    rfl

theorem string_eq_ok {depth : Nat} {n : Node} {s : String} :
    NodeShape.string depth n = .ok s ↔ IsString n s := by
  constructor
  · exact fun h => value_eq_string.mp (value_of_string h)
  · rintro ⟨l, rfl, hl⟩
    rw [NodeShape.string, hl]
    rfl

theorem values_eq_strings {depth : Nat} {items : List Node} {names : List String} :
    Node.values depth items = .ok (names.map .string) ↔ List.Forall₂ IsString items names := by
  induction items generalizing names with
  | nil => cases names <;> simp [Node.values]
  | cons n items ih =>
    rw [Node.values]
    simp only [bind_eq_ok, pure_eq_ok]
    cases names with
    | nil => simp
    | cons s names =>
      rw [List.forall₂_cons, ← ih, ← @value_eq_string depth, List.map_cons]
      constructor
      · rintro ⟨v, hv, vs, hvs, h⟩
        cases h
        exact ⟨hv, hvs⟩
      · rintro ⟨hv, hvs⟩
        exact ⟨_, hv, _, hvs, rfl⟩

theorem value_eq_array {depth : Nat} {n : Node} {vs : List Json} :
    n.value (depth + 1) = .ok (.array vs) ↔
      ∃ items, n = .array items none ∧ Node.values depth items = .ok vs := by
  constructor
  · intro h
    obtain ⟨items, rfl⟩ := readFrom_of_value h
    rw [Node.value] at h
    obtain ⟨vs', hvs, h⟩ := bind_eq_ok.mp h
    cases h
    exact ⟨items, rfl, hvs⟩
  · rintro ⟨items, rfl, hvs⟩
    rw [Node.value, hvs]
    rfl

theorem audienceShape_eq_ok {v : Json} {names : List String} (hne : names ≠ []) :
    Peek.audienceShape v = .ok names ↔
      (∃ s, v = .string s ∧ names = [s]) ∨ v = .array (names.map .string) := by
  unfold Peek.audienceShape
  split
  · simp [hne.symm]
  · simp [eq_comm]
  · rename_i items
    split
    · rename_i ss hss
      rw [mapM_asString?_eq_some.mp hss]
      simp [(List.map_injective_iff.mpr fun a b h => Json.string.inj h).eq_iff]
    · rename_i hnone
      refine ⟨fun h => (by cases h), ?_⟩
      rintro (⟨s, h, -⟩ | h)
      · cases h
      · cases h
        rw [mapM_asString?_eq_some.mpr rfl] at hnone
        cases hnone
  · rename_i hstring harray
    refine ⟨fun h => (by cases h), ?_⟩
    rintro (⟨s, h, -⟩ | h)
    · exact absurd h (hstring s)
    · exact absurd h (harray _)

/-- **The nodes that an audience is read from.** -/
theorem audience_eq_ok {depth : Nat} {n : Node} {names : List String} (hne : names ≠ []) :
    audienceNode (depth + 1) n = .ok names ↔ IsAudience n names := by
  rw [audienceNode, NodeShape.ofValue]
  simp only [bind_eq_ok, NodeShape.text, NodeShape.shape, mapError_eq_ok]
  constructor
  · rintro ⟨v, hv, hnames⟩
    rcases (audienceShape_eq_ok hne).mp hnames with ⟨s, rfl, rfl⟩ | rfl
    · exact .one (value_eq_string.mp hv)
    · obtain ⟨items, rfl, hitems⟩ := value_eq_array.mp hv
      exact .many (values_eq_strings.mp hitems)
  · intro h
    cases h with
    | one h => exact ⟨_, value_eq_string.mpr h, (audienceShape_eq_ok hne).mpr (Or.inl ⟨_, rfl, rfl⟩)⟩
    | many h =>
      exact ⟨_, value_eq_array.mpr ⟨_, rfl, values_eq_strings.mpr h⟩,
        (audienceShape_eq_ok hne).mpr (Or.inr rfl)⟩

/-! ### Payloads -/

/-- The members of an object make routing claims: exactly one of each name, and all names have a
content. -/
structure HasClaims (ms : List (Literal × Node)) (p : Peek) : Prop where
  names : ∀ m ∈ ms, ∃ k, m.1.content = .ok k
  issuer : ∃ n, nodes "iss" ms = [n] ∧ IsString n p.issuer
  audience : ∃ n, nodes "aud" ms = [n] ∧ IsAudience n p.audience

/-- The trees that route a token: an object with the two claims, or an array of nothing but them. -/
inductive Routes : Node → Peek → Prop
  | object {ms : List (Literal × Node)} {p : Peek} (h : HasClaims ms p) : Routes (.object ms none) p
  | pair {i a : Node} {p : Peek} (hissuer : IsString i p.issuer) (haudience : IsAudience a p.audience) :
    Routes (.array [i, a] none) p

section Payloads

variable {depth : Nat} {ns : List Node}

theorem issuer_iff {issuer : String} (hne : issuer ≠ "") :
    FromNodes NodeShape.string "" depth ns issuer ↔ ∃ n, ns = [n] ∧ IsString n issuer := by
  match ns with
  | [] => simp [FromNodes, hne]
  | [n] => simp [FromNodes, string_eq_ok]
  | _ :: _ :: _ => simp [FromNodes]

theorem audience_iff {names : List String} (hne : names ≠ []) :
    FromNodes audienceNode [] (depth + 1) ns names ↔ ∃ n, ns = [n] ∧ IsAudience n names := by
  match ns with
  | [] => simp [FromNodes, hne]
  | [n] => simp [FromNodes, ← @audience_eq_ok depth _ _ hne]
  | _ :: _ :: _ => simp [FromNodes]

theorem hasFields_iff {ms : List (Literal × Node)} {p : Peek} (hissuer : p.issuer ≠ "")
    (haudience : p.audience ≠ []) : HasFields (depth + 1) ms p ↔ HasClaims ms p :=
  ⟨fun h => ⟨h.names, (issuer_iff hissuer).mp h.issuer, (audience_iff haudience).mp h.audience⟩,
    fun h => ⟨h.names, (issuer_iff hissuer).mpr h.issuer, (audience_iff haudience).mpr h.audience⟩⟩

/-- What a member of the record was read from can be passed over. -/
theorem passOver_of_set {n : Node} (hn : Well n) {e : Entry Peek} (he : e ∈ Peek.entries)
    {q q' : Peek} (h : e.set depth n q = .ok q') : n.passOver = .ok () := by
  simp only [Peek.entries, List.mem_cons, List.not_mem_nil, or_false] at he
  rcases he with rfl | rfl
  · obtain ⟨s, hs, -⟩ := set_free.mp h
    exact passOver_of_value hn (value_of_string hs)
  · obtain ⟨names, hnames, -⟩ := set_free.mp h
    obtain ⟨v, hv, -⟩ := bind_eq_ok.mp hnames
    exact passOver_of_value hn (mapError_eq_ok.mp hv)

/-- **A tree of a text that is read as routing claims** can be passed over. -/
theorem whole_of_claims {n : Node} (hn : Well n) {p : Peek} (h : Peek.claims (depth + 1) n = .ok p) :
    Whole n := by
  rcases root_of_record h with ⟨ms, stop, rfl⟩ | ⟨items, stop, rfl⟩
  · cases hn with
    | object _ hkeys hms =>
      rw [Peek.claims, Entry.record] at h
      obtain ⟨r, hr, h⟩ := bind_eq_ok.mp h
      obtain ⟨_, hstop, -⟩ := bind_eq_ok.mp h
      obtain ⟨rfl, -⟩ := finish_eq_ok.mp (mapError_eq_ok.mp hstop)
      obtain ⟨-, hmembers⟩ := single_of_setMembers hr
      refine .object (fun m hm => ?_) fun m hm => ?_
      · obtain ⟨k, hk, -⟩ := hmembers m hm
        exact hkeys m hm k hk
      · obtain ⟨-, -, ⟨e, he, q, q', hset⟩ | hpass⟩ := hmembers m hm
        · exact whole_of_passOver _ (passOver_of_set (hms m hm) he hset)
        · exact whole_of_passOver _ hpass
  · cases hn with
    | array _ hitems =>
      rw [Peek.claims, Entry.record] at h
      obtain ⟨q, hq, h⟩ := bind_eq_ok.mp h
      obtain ⟨rfl, -⟩ := finish_eq_ok.mp (mapError_eq_ok.mp h)
      refine .array fun n hn => ?_
      obtain ⟨e, he, b, b', hset⟩ := set_of_setItems hq n hn
      exact whole_of_passOver _ (passOver_of_set (hitems n hn) he hset)

/-- **The trees that are read as complete routing claims.** -/
theorem claims_iff_routes {n : Node} (hn : Whole n) {p : Peek} (hissuer : p.issuer ≠ "")
    (haudience : p.audience ≠ []) : Peek.claims (depth + 2) n = .ok p ↔ Routes n p := by
  constructor
  · intro h
    rcases root_of_record h with ⟨ms, stop, rfl⟩ | ⟨items, stop, rfl⟩
    · cases hn with
      | object hkeys hms =>
        have hwhole : Whole (.object ms none) := .object hkeys hms
        exact .object ((hasFields_iff hissuer haudience).mp ((claims_object_iff hwhole).mp h))
    · cases hn with
      | array hitems =>
        obtain ⟨hi, ha⟩ := claims_array_iff.mp h
        obtain ⟨i, hi, histring⟩ := (issuer_iff hissuer).mp hi
        obtain ⟨a, ha, haud⟩ := (audience_iff haudience).mp ha
        have hpair : items = [i, a] := by rw [← List.take_append_drop 1 items, hi, ha]; rfl
        rw [hpair]
        exact .pair histring haud
  · intro h
    cases h with
    | object h => exact (claims_object_iff hn).mpr ((hasFields_iff hissuer haudience).mpr h)
    | pair hi ha =>
      exact claims_array_iff.mpr ⟨(issuer_iff hissuer).mpr ⟨_, rfl, hi⟩,
        (audience_iff haudience).mpr ⟨_, rfl, ha⟩⟩

end Payloads

/-! ### Tokens -/

/-- Octets are a text of the grammar, which the reader makes a tree of. -/
structure IsText (bytes : List UInt8) (n : Node) : Prop where
  whole : Whole n
  spells : Spells (lexemes n) bytes
  read : Document.ofBytes bytes = ⟨n, false⟩

theorem readBytes_iff_routes {bytes : List UInt8} {p : Peek} (hissuer : p.issuer ≠ "")
    (haudience : p.audience ≠ []) :
    readBytes Peek.claims bytes = .ok p ↔ ∃ n, IsText bytes n ∧ Routes n p := by
  constructor
  · intro h
    obtain ⟨hclaims, htrailing⟩ := readBytes_eq_ok.mp h
    have hwhole := whole_of_claims (well_ofBytes bytes) hclaims
    have hread : Document.ofBytes bytes = ⟨(Document.ofBytes bytes).root, false⟩ := by rw [← htrailing]
    exact ⟨_, ⟨hwhole, spells_of_document hwhole hread, hread⟩,
      (claims_iff_routes hwhole hissuer haudience).mp hclaims⟩
  · rintro ⟨n, ⟨hwhole, -, hread⟩, hroutes⟩
    rw [readBytes_eq_ok, hread]
    exact ⟨(claims_iff_routes hwhole hissuer haudience).mpr hroutes, rfl⟩

theorem ofToken_eq_ok {token : String} {p : Peek} : Peek.ofToken token = .ok p ↔
    p.issuer ≠ "" ∧ p.audience ≠ [] ∧
      ∃ bytes, HasPayload token bytes ∧ readBytes Peek.claims bytes = .ok p := by
  constructor
  · intro h
    obtain ⟨bytes, hbytes, hread, hissuer, haudience⟩ := readBytes_of_peek h
    exact ⟨hissuer, haudience, bytes, hasPayload_of_payloadBytes? hbytes, hread⟩
  · rintro ⟨hissuer, haudience, bytes, hpayload, hread⟩
    rw [ofToken_of_claims hpayload hread, answer, if_neg hissuer, if_neg haudience]

/-- **The tokens that are routed**: exactly those whose second segment is base64url of a JSON text,
of an object with exactly one issuer and one audience, or of an array of an issuer and an audience,
where the issuer is not empty and the audience names somebody. -/
theorem ofToken_iff_routes (token : String) (p : Peek) : Peek.ofToken token = .ok p ↔
    p.issuer ≠ "" ∧ p.audience ≠ [] ∧
      ∃ bytes n, HasPayload token bytes ∧ IsText bytes n ∧ Routes n p := by
  rw [ofToken_eq_ok]
  refine and_congr_right fun hissuer => and_congr_right fun haudience => exists_congr fun bytes => ?_
  rw [readBytes_iff_routes hissuer haudience, exists_and_left]

/-! ### The documented shape -/

/-- A token has the documented wire shape: its payload is a UTF-8 text of an object that makes the
claims. -/
def Documented (token : String) (p : Peek) : Prop :=
  p.issuer ≠ "" ∧ p.audience ≠ [] ∧ ∃ text ms, HasPayload token (Utf8.encode text) ∧
    IsText (Utf8.encode text) (.object ms none) ∧ HasClaims ms p

/-- **The documented tokens are routed**, and they are those that are an object in UTF-8. -/
theorem documented_iff {token : String} {p : Peek} : Documented token p ↔
    Peek.ofToken token = .ok p ∧ ∃ text ms, HasPayload token (Utf8.encode text) ∧
      (Document.ofBytes (Utf8.encode text)).root = .object ms none := by
  constructor
  · rintro ⟨hissuer, haudience, text, ms, hpayload, htext, hclaims⟩
    have hread : readBytes Peek.claims (Utf8.encode text) = .ok p :=
      (readBytes_iff_routes hissuer haudience).mpr ⟨_, htext, .object hclaims⟩
    exact ⟨ofToken_eq_ok.mpr ⟨hissuer, haudience, _, hpayload, hread⟩, text, ms, hpayload,
      congrArg Document.root htext.read⟩
  · rintro ⟨h, text, ms, hpayload, hroot⟩
    obtain ⟨hissuer, haudience, bytes, hbytes, hread⟩ := ofToken_eq_ok.mp h
    obtain rfl := hasPayload_unique hpayload hbytes
    obtain ⟨n, htext, hroutes⟩ := (readBytes_iff_routes hissuer haudience).mp hread
    obtain rfl : n = .object ms none := (congrArg Document.root htext.read).symm.trans hroot
    cases hroutes with
    | object hclaims => exact ⟨hissuer, haudience, text, ms, hpayload, htext, hclaims⟩

/-- A token whose payload is the array `["http://a","x"]`. -/
def pairToken : String := "a.WyJodHRwOi8vYSIsIngiXQ.c"

theorem hasPayload_pairToken :
    HasPayload pairToken (Utf8.encode (Json.strings ["http://a", "x"]).render) :=
  ⟨['a'], "WyJodHRwOi8vYSIsIngiXQ".toList, [['c']], by decide, by decide⟩

theorem ofToken_pairToken : Peek.ofToken pairToken = .ok ⟨"http://a", ["x"]⟩ := by
  have hwhole := whole_tree (.strings ["http://a", "x"])
  have hread := ofBytes_render (.strings ["http://a", "x"])
  have hissuer : IsString (tree (.string "http://a")) "http://a" := ⟨_, rfl, rfl⟩
  have haudience : IsString (tree (.string "x")) "x" := ⟨_, rfl, rfl⟩
  refine ofToken_eq_ok.mpr ⟨by decide, by decide, _, hasPayload_pairToken, ?_⟩
  refine (readBytes_iff_routes (by decide) (by decide)).mpr ⟨_, ?_, .pair hissuer (.one haudience)⟩
  exact ⟨hwhole, spells_of_document hwhole hread, hread⟩

/-- **Some tokens are routed that do not have the documented shape**: the payload of this one is an
array. -/
theorem not_forall_routed_documented :
    ¬ ∀ token p, Peek.ofToken token = .ok p → Documented token p := by
  intro h
  obtain ⟨-, text, ms, hpayload, hroot⟩ := documented_iff.mp (h _ _ ofToken_pairToken)
  rw [hasPayload_unique hpayload hasPayload_pairToken, ofBytes_render] at hroot
  cases hroot

end TokenGate.Proofs.Token.WireShape
