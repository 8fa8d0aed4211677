import TokenGate.Proofs.Json.Entries
import TokenGate.Proofs.Text.Base64Url
import TokenGate.Token.Claims
import TokenGate.Token.Compact

/-! # What a token is routed by

A token is taken apart twice, in two ways, and its payload is read twice, in two ways. The parts
that decide about it are the same (`payloadBytes?_of_header`, `get?_issuer_of_claims`,
`names?_of_claims`). -/

/-! ## Segments of a token

A token is taken apart from the left, to look at its payload, and from the right, to check its
signature. A segment that is base64url holds no full stop, so a token whose header can be read has
exactly three segments (`splitOn_of_header`), and both ways find the same payload
(`payloadBytes?_of_header`). -/

namespace TokenGate.Proofs.Token.Segments

open TokenGate.Text TokenGate.Token TokenGate.Proofs.Results TokenGate.Proofs.Text.Base64Url
open TokenGate.Proofs.Text.Utf8 (encodeChars_ascii encode_injective)

/-! ### Splitting -/

theorem splitOn_of_not_mem {sep : Char} {cs : List Char} (h : sep ∉ cs) :
    splitOn sep cs = [cs] := by
  induction cs with
  | nil => rfl
  | cons c cs ih =>
    rw [List.mem_cons, not_or] at h
    rw [splitOn, if_neg (Ne.symm h.1), ih h.2]

theorem splitOn_append {sep : Char} {cs : List Char} (h : sep ∉ cs) (rest : List Char) :
    splitOn sep (cs ++ sep :: rest) = cs :: splitOn sep rest := by
  induction cs with
  | nil => rw [List.nil_append, splitOn, if_pos rfl]
  | cons c cs ih =>
    rw [List.mem_cons, not_or] at h
    rw [List.cons_append, splitOn, if_neg (Ne.symm h.1), ih h.2]

theorem stop_not_mem_of_splitLast? {cs : List Char} (h : splitLast? cs = none) : '.' ∉ cs := by
  induction cs with
  | nil => simp
  | cons c cs ih =>
    rw [splitLast?] at h
    cases hl : splitLast? cs with
    | some p => rw [hl] at h; cases h
    | none =>
      rw [hl] at h
      dsimp only at h
      split_ifs at h with hdot
      rw [List.mem_cons, not_or]
      exact ⟨Ne.symm hdot, ih hl⟩

theorem splitLast?_eq_some {cs before after : List Char}
    (h : splitLast? cs = some (before, after)) : cs = before ++ '.' :: after ∧ '.' ∉ after := by
  induction cs generalizing before with
  | nil => cases h
  | cons c cs ih =>
    rw [splitLast?] at h
    cases hl : splitLast? cs with
    | some p =>
      rw [hl] at h
      cases h
      obtain ⟨h1, h2⟩ := ih hl
      exact ⟨by rw [List.cons_append, ← h1], h2⟩
    | none =>
      rw [hl] at h
      dsimp only at h
      split_ifs at h with hdot
      cases h
      exact ⟨by rw [hdot, List.nil_append], stop_not_mem_of_splitLast? hl⟩

/-! ### Segments of base64url -/

theorem encodeChars_of_segmentBytes {s : List Char} {bytes : List UInt8}
    (h : segmentBytes s = .ok bytes) : Utf8.encodeChars s = Base64Url.encode bytes :=
  eq_encode_of_decode h

theorem stop_not_mem_of_segmentBytes {s : List Char} {bytes : List UInt8}
    (h : segmentBytes s = .ok bytes) : '.' ∉ s := by
  intro hmem
  refine stop_not_mem_encode bytes ?_
  rw [← encodeChars_of_segmentBytes h, Utf8.encodeChars]
  exact List.mem_flatMap.mpr ⟨'.', hmem, by decide⟩

/-- The segment that some octets are written as. -/
def segment (bytes : List UInt8) : List Char :=
  (Base64Url.encode bytes).map fun b => Char.ofNat b.toNat

theorem encodeChars_segment (bytes : List UInt8) :
    Utf8.encodeChars (segment bytes) = Base64Url.encode bytes :=
  encodeChars_ascii (ascii_encode bytes)

theorem segmentBytes_segment (bytes : List UInt8) : segmentBytes (segment bytes) = .ok bytes := by
  rw [segmentBytes, encodeChars_segment]
  exact decode_encode bytes

/-- **Octets are written as one segment**, and no other is read as them. -/
theorem segmentBytes_iff {s : List Char} {bytes : List UInt8} :
    segmentBytes s = .ok bytes ↔ s = segment bytes := by
  constructor
  · intro h
    have hs : Utf8.encode (String.ofList s) = Utf8.encode (String.ofList (segment bytes)) := by
      rw [Utf8.encode, Utf8.encode, String.toList_ofList, String.toList_ofList, encodeChars_segment,
        encodeChars_of_segmentBytes h]
    exact String.ofList_injective (encode_injective hs)
  · rintro rfl
    exact segmentBytes_segment bytes

/-- The second segment of a token is the written form of some octets. -/
def HasPayload (token : String) (bytes : List UInt8) : Prop :=
  ∃ header payload rest, splitOn '.' token.toList = header :: payload :: rest ∧
    Utf8.encodeChars payload = Base64Url.encode bytes

theorem payloadBytes?_eq_some {token : String} {bytes : List UInt8} :
    payloadBytes? token = some bytes ↔ ∃ header payload rest,
      splitOn '.' token.toList = header :: payload :: rest ∧ segmentBytes payload = .ok bytes := by
  unfold payloadBytes?
  constructor
  · intro h
    split at h
    · rename_i header payload rest hs
      exact ⟨header, payload, rest, hs, toOption_eq_some.mp h⟩
    · cases h
  · rintro ⟨header, payload, rest, hs, h⟩
    rw [hs]
    exact toOption_eq_some.mpr h

theorem hasPayload_of_payloadBytes? {token : String} {bytes : List UInt8}
    (h : payloadBytes? token = some bytes) : HasPayload token bytes := by
  obtain ⟨header, payload, rest, hs, hp⟩ := payloadBytes?_eq_some.mp h
  exact ⟨header, payload, rest, hs, encodeChars_of_segmentBytes hp⟩

/-- The second segment of a token is read as the octets that it is the written form of. -/
theorem payloadBytes?_of_hasPayload {token : String} {bytes : List UInt8}
    (h : HasPayload token bytes) : payloadBytes? token = some bytes := by
  obtain ⟨header, payload, rest, hs, hp⟩ := h
  refine payloadBytes?_eq_some.mpr ⟨header, payload, rest, hs, ?_⟩
  rw [segmentBytes, hp]
  exact decode_encode bytes

theorem hasPayload_unique {token : String} {bytes bytes' : List UInt8} (h : HasPayload token bytes)
    (h' : HasPayload token bytes') : bytes = bytes' :=
  Option.some.inj ((payloadBytes?_of_hasPayload h).symm.trans (payloadBytes?_of_hasPayload h'))

/-! ### Three segments -/

/-- **A token whose first part from the right is base64url has exactly three segments.** -/
theorem splitOn_of_header {token : String} {c : Compact} {bytes : List UInt8}
    (hc : Compact.ofToken? token = some c) (hh : segmentBytes c.header = .ok bytes) :
    splitOn '.' token.toList = [c.header, c.payload, c.signature] := by
  unfold Compact.ofToken? at hc
  simp only [Option.bind_eq_bind, Option.bind_eq_some_iff] at hc
  obtain ⟨⟨message, signature⟩, h1, ⟨header, payload⟩, h2, hc⟩ := hc
  cases hc
  obtain ⟨h3, hsig⟩ := splitLast?_eq_some h1
  obtain ⟨h4, hpay⟩ : message = header ++ '.' :: payload ∧ '.' ∉ payload := splitLast?_eq_some h2
  -- None of the parts holds a full stop: the last two come from the right, the first is base64url.
  rw [h3, h4, List.append_assoc, List.cons_append,
    splitOn_append (stop_not_mem_of_segmentBytes hh), splitOn_append hpay, splitOn_of_not_mem hsig]

theorem payloadBytes?_of_header {token : String} {c : Compact} {bytes payload : List UInt8}
    (hc : Compact.ofToken? token = some c) (hh : segmentBytes c.header = .ok bytes)
    (hp : segmentBytes c.payload = .ok payload) : payloadBytes? token = some payload :=
  payloadBytes?_eq_some.mpr ⟨c.header, c.payload, [c.signature], splitOn_of_header hc hh, hp⟩

theorem segmentBytes_of_header {token : String} {h : Header} (hh : Header.ofToken token = .ok h) :
    ∃ c bytes, Compact.ofToken? token = some c ∧ segmentBytes c.header = .ok bytes := by
  unfold Header.ofToken at hh
  split at hh
  · cases hh
  · rename_i c hc
    split at hh
    · cases hh
    · rename_i bytes hb
      exact ⟨c, bytes, hc, hb⟩

end TokenGate.Proofs.Token.Segments

/-! ## Routing claims and the value of the payload

The claims that route a token are read as a record, and what a verifier hands on is the value of the
same text. Issuer and audience of the two agree whenever the payload is an object
(`get?_issuer_of_claims`, `names?_of_claims`). A payload that is an array can route a token too, but
it is then too short for the record of registered claims (`not_array_of_shape`). -/

namespace TokenGate.Proofs.Token.Routing

open TokenGate.Json TokenGate.Token TokenGate.Proofs.Results TokenGate.Proofs.Json.Entries
open TokenGate.Proofs.Json.Members (eq_string_of_asString?)

/-- The names of an audience: a single one, or a list of them. -/
def names? : Json → Option (List String)
  | .string s => some [s]
  | .array items => items.mapM Json.asString?
  | _ => none

theorem mapM_asString?_eq_some {items : List Json} {names : List String} :
    items.mapM Json.asString? = some names ↔ items = names.map .string := by
  induction items generalizing names with
  | nil => cases names <;> simp
  | cons v items ih =>
    rw [List.mapM_cons]
    simp only [Option.bind_eq_bind, Option.bind_eq_some_iff, Option.pure_def, Option.some.injEq]
    constructor
    · rintro ⟨s, hs, rest, hrest, rfl⟩
      rw [eq_string_of_asString? hs, ih.mp hrest, List.map_cons]
    · intro h
      obtain ⟨s, rest, rfl, hv, hrest⟩ := List.map_eq_cons_iff.mp h.symm
      exact ⟨s, by rw [← hv]; rfl, rest, ih.mpr hrest.symm, rfl⟩

theorem mem_iff_of_mapM_asString? {items : List Json} {names : List String} {name : String}
    (h : items.mapM Json.asString? = some names) : name ∈ names ↔ .string name ∈ items := by
  rw [mapM_asString?_eq_some.mp h]
  simp

theorem mem_of_names? {w : Json} {names : List String} {name : String} (h : names? w = some names)
    (hname : name ∈ names) : w = .string name ∨ ∃ items, w = .array items ∧ .string name ∈ items := by
  unfold names? at h
  split at h
  · cases h
    rw [List.mem_singleton.mp hname]
    exact Or.inl rfl
  · rename_i items
    exact Or.inr ⟨items, rfl, (mem_iff_of_mapM_asString? h).mp hname⟩
  · cases h

theorem readBytes_of_peek {token : String} {p : Peek} (h : Peek.ofToken token = .ok p) :
    ∃ bytes, payloadBytes? token = some bytes ∧ readBytes Peek.claims bytes = .ok p ∧
      p.issuer ≠ "" ∧ p.audience ≠ [] := by
  unfold Peek.ofToken at h
  split at h
  · cases h
  · rename_i bytes hbytes
    split at h
    · cases h
    · rename_i q hq
      split_ifs at h with hiss haud
      cases h
      exact ⟨bytes, hbytes, hq, hiss, haud⟩

/-! ### Members of the records -/

theorem issuer_reads : Reads Peek.entries "iss" NodeShape.string Peek.issuer where
  known := by simp [Peek.entries]
  set := by simp [Peek.entries]
  keep := by simp [Peek.entries]

theorem audience_reads :
    Reads Peek.entries "aud" (NodeShape.ofValue Peek.audienceShape) Peek.audience where
  known := by simp [Peek.entries]
  set := by simp [Peek.entries]
  keep := by simp [Peek.entries]

theorem exp_reads (needed : Bool) (left : TextFault) :
    Reads (Claims.entries needed left) "exp" (Claims.timeShape left) Claims.exp where
  known := by simp [Claims.entries]
  set := by simp [Claims.entries]
  keep := by simp [Claims.entries]

theorem nbf_reads (needed : Bool) (left : TextFault) :
    Reads (Claims.entries needed left) "nbf" (Claims.timeShape left) Claims.nbf where
  known := by simp [Claims.entries]
  set := by simp [Claims.entries]
  keep := by simp [Claims.entries]

theorem iss_reads (needed : Bool) (left : TextFault) :
    Reads (Claims.entries needed left) "iss" Claims.namesShape Claims.iss where
  known := by simp [Claims.entries]
  set := by simp [Claims.entries]
  keep := by simp [Claims.entries]

theorem aud_reads (needed : Bool) (left : TextFault) :
    Reads (Claims.entries needed left) "aud" Claims.namesShape Claims.aud where
  known := by simp [Claims.entries]
  set := by simp [Claims.entries]
  keep := by simp [Claims.entries]

theorem value_of_string {depth : Nat} {n : Node} {s : String}
    (h : NodeShape.string depth n = .ok s) : n.value depth = .ok (.string s) := by
  unfold NodeShape.string at h
  split at h
  · rename_i l
    rw [Node.value, mapError_eq_ok.mp h]
    rfl
  · exact absurd h mismatch_ne_ok

theorem names?_of_audienceShape {v : Json} {ss : List String} (h : Peek.audienceShape v = .ok ss)
    (hne : ss ≠ []) : names? v = some ss := by
  unfold Peek.audienceShape at h
  split at h
  · cases h
    exact absurd rfl hne
  · cases h
    rfl
  · rename_i items
    rw [names?]
    split at h
    · rename_i ns hns
      cases h
      exact hns
    · cases h
  · cases h

section Object

variable {depth : Nat} {ms : List (Literal × Node)} {stop : Option TextFault} {p : Peek} {v : Json}

/-- **The issuer that routes a token is the one in the value of its payload.** -/
theorem get?_issuer_of_claims (hp : Peek.claims (depth + 1) (.object ms stop) = .ok p)
    (hv : (Node.object ms stop).value (depth + 1) = .ok v) (hne : p.issuer ≠ "") :
    v.get? "iss" = some (.string p.issuer) := by
  obtain ⟨hread, hdefault⟩ := record_reads_value issuer_reads hp hv
  cases hw : v.get? "iss" with
  | none => exact absurd (hdefault hw) hne
  | some w =>
    obtain ⟨n, hn, hissuer⟩ := hread w hw
    rw [Except.ok.inj (hn.symm.trans (value_of_string hissuer))]

/-- **The audience that routes a token is the one in the value of its payload.** -/
theorem names?_of_claims (hp : Peek.claims (depth + 1) (.object ms stop) = .ok p)
    (hv : (Node.object ms stop).value (depth + 1) = .ok v) (hne : p.audience ≠ []) :
    (v.get? "aud").bind names? = some p.audience := by
  obtain ⟨hread, hdefault⟩ := record_reads_value audience_reads hp hv
  cases hw : v.get? "aud" with
  | none => exact absurd (hdefault hw) hne
  | some w =>
    obtain ⟨n, hn, haudience⟩ := hread w hw
    obtain ⟨w', hw', hshape⟩ := bind_eq_ok.mp haudience
    obtain rfl : w = w' := Except.ok.inj (hn.symm.trans (mapError_eq_ok.mp hw'))
    exact names?_of_audienceShape (mapError_eq_ok.mp hshape) hne

end Object

/-! ### Payloads that are arrays -/

/-- **No array holds both routing claims and registered ones**: it has two items at most for the
first, and three at least for the second. -/
theorem not_array_of_shape {depth : Nat} {items : List Node} {stop : Option TextFault} {p : Peek}
    {c : Claims} (hp : Peek.claims depth (.array items stop) = .ok p)
    (hc : Claims.shape depth (.array items stop) = .ok c) : False := by
  have hle : items.length ≤ 2 := (record_array hp).1
  obtain ⟨-, hreq⟩ := record_array hc
  have hsub : (Claims.entries true .expectedListCommaOrEnd)[2] ∈
      (Claims.entries true .expectedListCommaOrEnd).drop items.length := by
    rw [List.mem_drop_iff_getElem]
    exact ⟨2 - items.length, by simp [Claims.entries]; omega, by simp [Nat.add_sub_cancel' hle]⟩
  exact absurd (hreq _ hsub) (by decide)

end TokenGate.Proofs.Token.Routing
