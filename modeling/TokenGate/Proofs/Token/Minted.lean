import TokenGate.Proofs.Json.Grammar
import TokenGate.Proofs.Json.PrintedTokens
import TokenGate.Proofs.Json.Records
import TokenGate.Proofs.Token.Routing

/-! # Claims that are read back from a token

An issuer mints a token by printing an object of claims and writing the octets as the second
segment. What stands in front of it and behind it does not matter, nor do members of other names,
whatever their values are: they are only passed over. The answer is that to the issuer and the
audience of the object (`ofToken_mint`). Conversely, the octets that are found in a token are
written as its second segment and no other text is read as them (`minted_claims_read_back`). -/

/-! ## The fields of routing claims

An object is read as routing claims exactly if its names have a content and each of the two known
names stands at most once, with a node that its field can be read from (`claims_object_iff`). A
field whose name is absent is empty. An array is read as routing claims if it has at most two items,
of which the first is the issuer and the second the audience (`claims_array_iff`). The claims of its
payload decide what a token is answered (`ofToken_of_claims`). -/

namespace TokenGate.Proofs.Token.Fields

open TokenGate.Json TokenGate.Token TokenGate.Proofs.Results TokenGate.Proofs.Json.Entries
open TokenGate.Proofs.Json.Grammar TokenGate.Proofs.Json.Records TokenGate.Proofs.Token.Routing
open TokenGate.Proofs.Token.Segments

variable {α β : Type}

/-! ### One field -/

/-- A field is read from the nodes of its name: from the only one, or it has its default. -/
def FromNodes (inner : NodeShape β) (start : β) (depth : Nat) : List Node → β → Prop
  | [], b => b = start
  | [n], b => inner depth n = .ok b
  | _ :: _ :: _, _ => False

section FromNodes

variable {inner : NodeShape β} {start b b' : β} {depth : Nat} {ns : List Node}

theorem field_unique (h : FromNodes inner start depth ns b) (h' : FromNodes inner start depth ns b') :
    b = b' := by
  match ns with
  | [] => exact Eq.trans h (Eq.symm h')
  | [n] => exact Except.ok.inj (Eq.trans (Eq.symm h) h')

theorem length_of_field (h : FromNodes inner start depth ns b) : ns.length ≤ 1 := by
  match ns with
  | [] => exact Nat.zero_le _
  | [n] => exact Nat.le_refl _

theorem ok_of_field (h : FromNodes inner start depth ns b) {n : Node} (hn : n ∈ ns) :
    inner depth n = .ok b := by
  match ns with
  | [n'] =>
    obtain rfl := List.mem_singleton.mp hn
    exact h

theorem field_of_record {entries : List (Entry α)} {name : String} {proj : α → β} {start : α}
    (hr : Reads entries name inner proj) {ms : List (Literal × Node)} (hone : (nodes name ms).length ≤ 1)
    {type : String} {stop : Option TextFault} {a : α}
    (h : Entry.record type start entries (depth + 1) (.object ms stop) = .ok a) :
    FromNodes inner (proj start) depth (nodes name ms) (proj a) := by
  obtain ⟨hread, hdefault⟩ := record_reads hr h
  match hns : nodes name ms with
  | [] =>
    refine hdefault ?_
    rw [node?_eq_getLast?, hns]
    rfl
  | [n] => exact hread n (node?_of_nodes hns)
  | _ :: _ :: _ =>
    rw [hns] at hone
    exact absurd hone (by simp)

end FromNodes

/-! ### Objects -/

/-- An audience, read from a node. -/
abbrev audienceNode : NodeShape (List String) := NodeShape.ofValue Peek.audienceShape

/-- The members of an object are read as routing claims. -/
structure HasFields (depth : Nat) (ms : List (Literal × Node)) (p : Peek) : Prop where
  names : ∀ m ∈ ms, ∃ k, m.1.content = .ok k
  issuer : FromNodes NodeShape.string "" depth (nodes "iss" ms) p.issuer
  audience : FromNodes audienceNode [] depth (nodes "aud" ms) p.audience

theorem fields_unique {depth : Nat} {ms : List (Literal × Node)} {p p' : Peek}
    (h : HasFields depth ms p) (h' : HasFields depth ms p') : p = p' := by
  obtain ⟨issuer, audience⟩ := p
  obtain ⟨issuer', audience'⟩ := p'
  obtain rfl : issuer = issuer' := field_unique h.issuer h'.issuer
  obtain rfl : audience = audience' := field_unique h.audience h'.audience
  rfl

theorem single_of_fields {depth : Nat} {ms : List (Literal × Node)} {p : Peek}
    (h : HasFields depth ms p) : Single Peek.entries [] ms := by
  intro e he
  refine ⟨?_, fun hmem => absurd hmem List.not_mem_nil⟩
  simp only [Peek.entries, List.mem_cons, List.not_mem_nil, or_false] at he
  rcases he with rfl | rfl
  · exact length_of_field h.issuer
  · exact length_of_field h.audience

theorem fields_of_claims {depth : Nat} {ms : List (Literal × Node)} {stop : Option TextFault} {p : Peek}
    (h : Peek.claims (depth + 1) (.object ms stop) = .ok p) : HasFields depth ms p := by
  have hrecord := h
  rw [Peek.claims, Entry.record] at hrecord
  obtain ⟨r, hr, -⟩ := bind_eq_ok.mp hrecord
  obtain ⟨hsingle, hmembers⟩ := single_of_setMembers hr
  have hissuer : (nodes "iss" ms).length ≤ 1 := (hsingle Peek.entries[0] (by simp [Peek.entries])).1
  have haudience : (nodes "aud" ms).length ≤ 1 := (hsingle Peek.entries[1] (by simp [Peek.entries])).1
  have hnames : ∀ m ∈ ms, ∃ k, m.1.content = .ok k := fun m hm => (hmembers m hm).imp fun _ h => h.1
  exact ⟨hnames, field_of_record issuer_reads hissuer h, field_of_record audience_reads haudience h⟩

theorem exists_set {depth : Nat} {ms : List (Literal × Node)} {p : Peek} (h : HasFields depth ms p)
    {m : Literal × Node} (hm : m ∈ ms) {e : Entry Peek} (he : e ∈ Peek.entries)
    (hname : m.1.content = .ok e.name) (q : Peek) : ∃ q', e.set depth m.2 q = .ok q' := by
  have hmem := mem_nodes hm hname
  simp only [Peek.entries, List.mem_cons, List.not_mem_nil, or_false] at he
  rcases he with rfl | rfl
  · exact ⟨_, set_free.mpr ⟨_, ok_of_field h.issuer hmem, rfl⟩⟩
  · exact ⟨_, set_free.mpr ⟨_, ok_of_field h.audience hmem, rfl⟩⟩

/-- **The objects that are read as routing claims.** -/
theorem claims_object_iff {depth : Nat} {ms : List (Literal × Node)} (hw : Whole (.object ms none))
    {p : Peek} : Peek.claims (depth + 1) (.object ms none) = .ok p ↔ HasFields depth ms p := by
  refine ⟨fields_of_claims, fun h => ?_⟩
  have hmembers : ∀ m ∈ ms, ∃ k, m.1.content = .ok k ∧ m.2.passOver = .ok () ∧
      ∀ e ∈ Peek.entries, e.name = k → ∀ q, ∃ q', e.set depth m.2 q = .ok q' := by
    intro m hm
    obtain ⟨k, hk⟩ := h.names m hm
    have hpass : m.2.passOver = .ok () := by
      cases hw with
      | object _ hms => exact passOver_of_whole (hms m hm)
    exact ⟨k, hk, hpass, fun e he hek q => exists_set h hm he (hek ▸ hk) q⟩
  obtain ⟨⟨q, seen⟩, hr⟩ := exists_setMembers (single_of_fields h) hmembers ⟨"", []⟩
  have hq : Peek.claims (depth + 1) (.object ms none) = .ok q := by
    rw [Peek.claims, Entry.record, hr, ok_bind]
    rfl
  rw [hq, fields_unique h (fields_of_claims hq)]

/-! ### Arrays -/

/-- **The arrays that are read as routing claims**: the items are taken for the fields in their
order. -/
theorem claims_array_iff {depth : Nat} {items : List Node} {p : Peek} :
    Peek.claims (depth + 1) (.array items none) = .ok p ↔
      FromNodes NodeShape.string "" depth (items.take 1) p.issuer ∧
        FromNodes audienceNode [] depth (items.drop 1) p.audience := by
  have htext : ∀ q : Peek, NodeShape.text (Except.ok q) = .ok p ↔ q = p := by
    simp [NodeShape.text, Except.mapError]
  obtain ⟨issuer, audience⟩ := p
  cases items with
  | nil =>
    simp [Peek.claims, Entry.record, Entry.setItems, Peek.entries, FromNodes, finish, htext,
      @eq_comm String "", @eq_comm (List String) []]
  | cons i items =>
    cases items with
    | nil =>
      simp [Peek.claims, Entry.record, Entry.setItems, Peek.entries, FromNodes, finish, htext,
        @eq_comm (List String) []]
    | cons a items =>
      cases items with
      | nil => simp [Peek.claims, Entry.record, Entry.setItems, Peek.entries, FromNodes, finish, htext]
      | cons => simp [Peek.claims, Entry.record, Entry.setItems, Peek.entries, FromNodes, finish]

/-! ### Tokens -/

/-- The answer to a token with some claims. -/
def answer (p : Peek) : Except Peek.Fault Peek :=
  if p.issuer = "" then .error .missingIssuer
  else if p.audience = [] then .error .missingAudience
  else .ok p

theorem ofToken_of_claims {token : String} {bytes : List UInt8} (hp : HasPayload token bytes) {p : Peek}
    (h : readBytes Peek.claims bytes = .ok p) : Peek.ofToken token = answer p := by
  rw [Peek.ofToken, payloadBytes?_of_hasPayload hp]
  dsimp only
  rw [h]
  rfl

end TokenGate.Proofs.Token.Fields

/-! ## Mints -/

namespace TokenGate.Proofs.Token.Minted

open TokenGate.Json TokenGate.Text TokenGate.Token TokenGate.Proofs.Results
open TokenGate.Proofs.Json.Entries TokenGate.Proofs.Json.Grammar TokenGate.Proofs.Json.PrintedTokens
open TokenGate.Proofs.Json.Printed TokenGate.Proofs.Json.Records TokenGate.Proofs.Token.Fields
open TokenGate.Proofs.Token.Routing TokenGate.Proofs.Token.Segments

/-! ### Minting -/

/-- A token with a value as its second segment. Behind it stands nothing, or a full stop and a
text. -/
def mint (header : String) (claims : Json) (rest : Option String) : String :=
  String.ofList (header.toList ++ '.' :: (segment (Utf8.encode claims.render) ++
    match rest with
    | none => []
    | some text => '.' :: text.toList))

theorem hasPayload_mint {header : String} (h : '.' ∉ header.toList) (claims : Json)
    (rest : Option String) : HasPayload (mint header claims rest) (Utf8.encode claims.render) := by
  have hsegment := encodeChars_segment (Utf8.encode claims.render)
  have hstop := stop_not_mem_of_segmentBytes (segmentBytes_segment (Utf8.encode claims.render))
  cases rest with
  | none =>
    refine ⟨header.toList, _, [], ?_, hsegment⟩
    rw [mint, String.toList_ofList, splitOn_append h, List.append_nil, splitOn_of_not_mem hstop]
  | some text =>
    refine ⟨header.toList, _, splitOn '.' text.toList, ?_, hsegment⟩
    rw [mint, String.toList_ofList, splitOn_append h, splitOn_append hstop]

/-! ### Members -/

/-- The values of the members of a name, in their order. -/
def named (name : String) (ms : List (String × Json)) : List Json :=
  (ms.filter fun m => m.1 = name).map Prod.snd

theorem nodes_memberTrees (name : String) (ms : List (String × Json)) :
    nodes name (memberTrees ms) = (named name ms).map tree := by
  induction ms with
  | nil => rfl
  | cons m ms ih =>
    obtain ⟨n, v⟩ := m
    rw [memberTrees, nodes_cons rfl, ih, named, named, List.filter_cons]
    by_cases hname : n = name <;> simp [hname]

/-- The issuer that members of an object name: a text, or none. -/
inductive Issuer : List Json → String → Prop
  | absent : Issuer [] ""
  | text (s : String) : Issuer [.string s] s

/-- The audience that members of an object name: some texts, one without a list, or none. -/
inductive Audience : List Json → List String → Prop
  | absent : Audience [] []
  | null : Audience [.null] []
  | text (s : String) : Audience [.string s] [s]
  | texts (ss : List String) : Audience [.strings ss] ss

theorem field_of_issuer {vs : List Json} {issuer : String} (h : Issuer vs issuer) (depth : Nat) :
    FromNodes NodeShape.string "" depth (vs.map tree) issuer := by
  cases h <;> rfl

theorem audienceShape_strings (ss : List String) : Peek.audienceShape (.strings ss) = .ok ss := by
  rw [Json.strings, Peek.audienceShape, mapM_asString?_eq_some.mpr rfl]

theorem field_of_audience {vs : List Json} {audience : List String} (h : Audience vs audience)
    (depth : Nat) : FromNodes audienceNode [] (depth + 1) (vs.map tree) audience := by
  cases h with
  | absent | null | text => rfl
  | texts =>
    rw [List.map_singleton, FromNodes, audienceNode, NodeShape.ofValue,
      value_tree (exact_strings audience), canonical_strings, NodeShape.text, Except.mapError,
      ok_bind, NodeShape.shape, audienceShape_strings]
    rfl

/-! ### Tokens -/

section Tokens

variable {header : String} {ms : List (String × Json)}

theorem readBytes_minted {issuer : String} {audience : List String}
    (hissuer : Issuer (named "iss" ms) issuer) (haudience : Audience (named "aud" ms) audience) :
    readBytes Peek.claims (Utf8.encode (Json.object ms).render) = .ok ⟨issuer, audience⟩ := by
  rw [readBytes_eq_ok, ofBytes_render]
  refine ⟨(claims_object_iff (whole_tree (.object ms))).mpr ⟨fun m hm => ?_, ?_, ?_⟩, rfl⟩
  · rw [memberTrees_eq_map] at hm
    obtain ⟨m, -, rfl⟩ := List.mem_map.mp hm
    exact ⟨m.1, rfl⟩
  · rw [nodes_memberTrees]
    exact field_of_issuer hissuer _
  · rw [nodes_memberTrees]
    exact field_of_audience haudience _

/-- **A minted token is answered** with the issuer and the audience of its claims. -/
theorem ofToken_mint (hheader : '.' ∉ header.toList) (rest : Option String) {issuer : String}
    {audience : List String} (hissuer : Issuer (named "iss" ms) issuer)
    (haudience : Audience (named "aud" ms) audience) :
    Peek.ofToken (mint header (.object ms) rest) = answer ⟨issuer, audience⟩ :=
  ofToken_of_claims (hasPayload_mint hheader _ rest) (readBytes_minted hissuer haudience)

end Tokens

/-- **Minted claims are read back**: issuer and audience as they were minted, where the issuer is
missing before the audience is. Conversely, the octets that are found in a token are written as its
second segment, and as no other. -/
theorem minted_claims_read_back :
    (∀ header rest ms, '.' ∉ header.toList →
      (∀ issuer audience, issuer ≠ "" → audience ≠ [] → named "iss" ms = [.string issuer] →
        named "aud" ms = [.strings audience] →
        Peek.ofToken (mint header (.object ms) rest) = .ok ⟨issuer, audience⟩) ∧
      (∀ issuer name, issuer ≠ "" → named "iss" ms = [.string issuer] →
        named "aud" ms = [.string name] →
        Peek.ofToken (mint header (.object ms) rest) = .ok ⟨issuer, [name]⟩) ∧
      (∀ audience, named "iss" ms = [] ∨ named "iss" ms = [.string ""] →
        Audience (named "aud" ms) audience →
        Peek.ofToken (mint header (.object ms) rest) = .error .missingIssuer) ∧
      (∀ issuer, issuer ≠ "" → named "iss" ms = [.string issuer] →
        named "aud" ms = [] ∨ named "aud" ms = [.null] ∨ named "aud" ms = [.array []] →
        Peek.ofToken (mint header (.object ms) rest) = .error .missingAudience)) ∧
    ∀ token bytes, payloadBytes? token = some bytes → ∃ header payload rest,
      splitOn '.' token.toList = header :: payload :: rest ∧ payload = segment bytes ∧
        ∀ s, segmentBytes s = .ok bytes → s = payload := by
  refine ⟨fun header rest ms hheader => ⟨?_, ?_, ?_, ?_⟩, ?_⟩
  · intro issuer audience hne hne' hiss haud
    have hissuer : Issuer (named "iss" ms) issuer := hiss ▸ Issuer.text issuer
    have haudience : Audience (named "aud" ms) audience := haud ▸ Audience.texts audience
    rw [ofToken_mint hheader rest hissuer haudience, answer, if_neg hne, if_neg hne']
  · intro issuer name hne hiss haud
    have hissuer : Issuer (named "iss" ms) issuer := hiss ▸ Issuer.text issuer
    have haudience : Audience (named "aud" ms) [name] := haud ▸ Audience.text name
    rw [ofToken_mint hheader rest hissuer haudience, answer, if_neg hne, if_neg (List.cons_ne_nil _ _)]
  · intro audience hiss haudience
    have hissuer : Issuer (named "iss" ms) "" := by
      rcases hiss with hiss | hiss <;> rw [hiss]
      · exact .absent
      · exact .text ""
    rw [ofToken_mint hheader rest hissuer haudience, answer, if_pos rfl]
  · intro issuer hne hiss haud
    have hissuer : Issuer (named "iss" ms) issuer := hiss ▸ Issuer.text issuer
    have haudience : Audience (named "aud" ms) [] := by
      rcases haud with haud | haud | haud <;> rw [haud]
      · exact .absent
      · exact .null
      · exact .texts []
    rw [ofToken_mint hheader rest hissuer haudience, answer, if_neg hne, if_pos rfl]
  · intro token bytes h
    obtain ⟨header, payload, rest, hsplit, hpayload⟩ := payloadBytes?_eq_some.mp h
    have hsegment := segmentBytes_iff.mp hpayload
    exact ⟨header, payload, rest, hsplit, hsegment,
      fun s hs => (segmentBytes_iff.mp hs).trans hsegment.symm⟩

/-- Members of other names, with values inside each other. -/
def others : List (String × Json) :=
  [("n", .array [.null, .object [("é", .number (.float ⟨true, 3, -1⟩))]]), ("n", .bool true)]

theorem minted_claims_read_back_among_others :
    Peek.ofToken (mint "h" (.object (("iss", .string "a") :: ("aud", .strings ["x", "\n"]) :: others))
      (some "s.t")) = .ok ⟨"a", ["x", "\n"]⟩ ∧
    Peek.ofToken (mint "" (.object (others ++ [("aud", .string "x"), ("iss", .string "a")])) none) =
      .ok ⟨"a", ["x"]⟩ ∧
    Peek.ofToken (mint "" (.object (("aud", .null) :: others)) none) = .error .missingIssuer ∧
    Peek.ofToken (mint "" (.object (("iss", .string "a") :: others)) none) = .error .missingAudience ∧
    ∃ header payload rest, splitOn '.' "a.YQ".toList = header :: payload :: rest ∧
      payload = segment [0x61] ∧ ∀ s, segmentBytes s = .ok [0x61] → s = payload := by
  obtain ⟨hminted, hsegment⟩ := minted_claims_read_back
  refine ⟨?_, ?_, ?_, ?_, hsegment "a.YQ" [0x61] (by decide)⟩
  · exact (hminted "h" (some "s.t") _ (by decide)).1 "a" ["x", "\n"] (by decide) (by decide) rfl rfl
  · exact (hminted "" none _ (by decide)).2.1 "a" "x" (by decide) rfl rfl
  · exact (hminted "" none _ (by decide)).2.2.1 [] (Or.inl rfl) .null
  · exact (hminted "" none _ (by decide)).2.2.2 "a" (by decide) rfl (Or.inl rfl)

end TokenGate.Proofs.Token.Minted
