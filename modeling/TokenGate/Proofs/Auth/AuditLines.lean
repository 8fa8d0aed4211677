import TokenGate.Auth.Gate
import TokenGate.Proofs.Json.Controls
import TokenGate.Proofs.Json.Members
import TokenGate.Proofs.Json.PrintedTokens
import TokenGate.Proofs.Json.Records

/-! # Audit lines that cannot be forged

Whatever its members hold, the text of an audit record is that of one object without repeated names,
so that a record is determined by its text, and no token has a part in it. The text has no line
break of ASCII and no other control character below the blank (`render_unforgeable`). The control
characters from the delete character on are not escaped: they stand in the text as they stand in the
record (`not_forall_controls_escaped`). -/

/-! ## Audit records that are read

An audit record leaves a text. Who reads it finds an object in which every member that the record
has says what the record says, and nothing else (`tells_render`). -/

namespace TokenGate.Proofs.Auth.Records

open TokenGate.Json TokenGate.Proofs.Json.Members
open TokenGate.Proofs.Json.PrintedTokens TokenGate.Proofs.Json.Printed

/-- What a record says under a name. -/
def said (a : Audit) : String → Option Json
  | "event" => some (.string a.event)
  | "principal" => a.principal.map .string
  | "issuer" => a.issuer.map .string
  | "groups" => a.groups.map .strings
  | "reason" => a.reason.map .string
  | "path" => some (.string a.path)
  | _ => none

/-- A text tells a record: it is that of an object with the members of the record. -/
def Tells (text : String) (a : Audit) : Prop :=
  ∃ ms, Json.ofText text = .ok (.object ms) ∧ ∀ name, lookup? name ms = said a name

/-! ### Members that may be missing -/

theorem canonicalMembers_member (n : String) (v : Option Json) :
    canonicalMembers (Audit.member n v) = Audit.member n (v.map canonical) := by
  cases v <;> rfl

theorem last?_member (name n : String) (v : Option Json) :
    last? name (Audit.member n v) = if n = name then v else none := by
  cases v with
  | none => rw [ite_self]; rfl
  | some v => rw [Audit.member]; simp [last?]

theorem exact_member {depth : Nat} {n : String} {v : Option Json} (h : ∀ w, v = some w → Exact depth w)
    {m : String × Json} (hm : m ∈ Audit.member n v) : Exact depth m.2 := by
  obtain ⟨w, hw, rfl⟩ := Option.map_eq_some_iff.mp (Option.mem_toList.mp hm)
  exact h w hw

/-! ### Records -/

/-- The members of the text of a record, in the order of a reader. -/
def members (a : Audit) : List (String × Json) :=
  sorted (("event", .string a.event) :: Audit.member "principal" (a.principal.map .string)
    ++ Audit.member "issuer" (a.issuer.map .string) ++ Audit.member "groups" (a.groups.map .strings)
    ++ Audit.member "reason" (a.reason.map .string) ++ [("path", .string a.path)])

theorem canonical_toJson (a : Audit) : canonical a.toJson = .object (members a) := by
  have hstring : canonical ∘ Json.string = Json.string := rfl
  have hstrings : canonical ∘ Json.strings = Json.strings := funext canonical_strings
  rw [Audit.toJson, canonical, members]
  simp only [List.cons_append, canonicalMembers, canonicalMembers_append, canonicalMembers_member,
    Option.map_map, hstring, hstrings]
  rfl

/-- **A record says all that its members say.** -/
theorem lookup?_members (a : Audit) (name : String) : lookup? name (members a) = said a name := by
  have hlast : lookup? name (members a) = (if "path" = name then some (.string a.path) else none).or
      ((if "reason" = name then a.reason.map .string else none).or
        ((if "groups" = name then a.groups.map .strings else none).or
          ((if "issuer" = name then a.issuer.map .string else none).or
            ((if "principal" = name then a.principal.map .string else none).or
              (if "event" = name then some (.string a.event) else none))))) := by
    rw [members, lookup?_sorted]
    simp only [List.cons_append, last?, last?_append, last?_member, Option.none_or, Option.or_assoc]
  rw [hlast]
  fun_cases said a name
  case case7 h1 h2 h3 h4 h5 h6 =>
    rw [if_neg (Ne.symm h6), if_neg (Ne.symm h5), if_neg (Ne.symm h4), if_neg (Ne.symm h3),
      if_neg (Ne.symm h2), if_neg (Ne.symm h1)]
    rfl
  all_goals simp

theorem exact_toJson (a : Audit) : Exact depthLimit a.toJson := by
  have hstring : ∀ (o : Option String) w, o.map Json.string = some w → Exact 126 w := by
    intro o w hw
    obtain ⟨s, -, rfl⟩ := Option.map_eq_some_iff.mp hw
    exact .string s
  refine .object fun m hm => ?_
  simp only [List.mem_append, List.mem_cons, List.not_mem_nil, or_false] at hm
  rcases hm with ((((rfl | hm) | hm) | hm) | hm) | rfl
  · exact .string a.event
  · exact exact_member (hstring _) hm
  · exact exact_member (hstring _) hm
  · refine exact_member (fun w hw => ?_) hm
    obtain ⟨ss, -, rfl⟩ := Option.map_eq_some_iff.mp hw
    exact exact_strings ss
  · exact exact_member (hstring _) hm
  · exact .string a.path

/-- **A record is read from its text.** -/
theorem tells_render (a : Audit) : Tells a.render a :=
  ⟨members a, by rw [Audit.render, ofText_render (exact_toJson a), canonical_toJson], lookup?_members a⟩

end TokenGate.Proofs.Auth.Records

/-! ## Lines -/

namespace TokenGate.Proofs.Auth.AuditLines

open TokenGate.Json TokenGate.Text.Utf8 TokenGate.Proofs.Json.Records
open TokenGate.Proofs.Json.PrintedTokens TokenGate.Proofs.Json.Printed
open TokenGate.Proofs.Json.Controls TokenGate.Proofs.Auth.Records

variable {a b : Audit} {c : Char}

/-! ### Members -/

/-- The names that a record may have, in their order. -/
def names : List String := ["event", "principal", "issuer", "groups", "reason", "path"]

theorem fst_member_sublist (n : String) (o : Option Json) :
    ((Audit.member n o).map Prod.fst).Sublist [n] := by
  cases o with
  | none => exact List.nil_sublist _
  | some v => exact List.Sublist.refl _

theorem mem_member {n : String} {o : Option Json} {m : String × Json} :
    m ∈ Audit.member n o ↔ m.1 = n ∧ o = some m.2 := by
  obtain ⟨n', v⟩ := m
  cases o <;> simp [Audit.member, eq_comm]

/-- **The members that are written are those that a record has**, each of them once. -/
theorem exists_toJson (a : Audit) : ∃ ms, a.toJson = .object ms ∧ (ms.map Prod.fst).Sublist names ∧
    ∀ m, m ∈ ms ↔ said a m.1 = some m.2 := by
  refine ⟨_, rfl, ?_, fun ⟨n, v⟩ => ?_⟩
  · simp only [List.cons_append, List.map_cons, List.map_append, List.append_assoc]
    refine List.Sublist.cons_cons _ ?_
    exact (fst_member_sublist _ _).append ((fst_member_sublist _ _).append
      ((fst_member_sublist _ _).append ((fst_member_sublist _ _).append (List.Sublist.refl _))))
  · simp only [List.mem_append, List.mem_cons, List.not_mem_nil, or_false, mem_member, Prod.mk.injEq]
    fun_cases said a n <;> simp_all [eq_comm]

theorem distinct_memberTrees {ms : List (String × Json)} (h : (ms.map Prod.fst).Nodup) :
    Distinct (memberTrees ms) := by
  rw [memberTrees_eq_map, Distinct, List.pairwise_map]
  refine (List.pairwise_map.mp h).imp fun hne heq => hne ?_
  exact Option.some.inj heq

/-- **The text of a record is one object without repeated names.** -/
theorem isObject_render (a : Audit) : IsObject (encode a.render) (.object (members a)) := by
  obtain ⟨ms, hms, hnames, -⟩ := exists_toJson a
  constructor
  · have hread := ofText_render (exact_toJson a)
    rwa [canonical_toJson] at hread
  · rw [Audit.render, ofBytes_render, hms]
    exact distinct_memberTrees (List.Nodup.sublist hnames (by decide))

/-! ### What a text determines -/

theorem eq_of_said (h : said a = said b) : a = b := by
  have hstring : Function.Injective Json.string := fun _ _ h => Json.string.inj h
  have hstrings : Function.Injective Json.strings := fun _ _ h =>
    hstring.list_map (Json.array.inj h)
  have hevent : some (Json.string a.event) = some (.string b.event) := congrFun h "event"
  have hprincipal : a.principal.map Json.string = b.principal.map .string := congrFun h "principal"
  have hissuer : a.issuer.map Json.string = b.issuer.map .string := congrFun h "issuer"
  have hgroups : a.groups.map Json.strings = b.groups.map .strings := congrFun h "groups"
  have hreason : a.reason.map Json.string = b.reason.map .string := congrFun h "reason"
  have hpath : some (Json.string a.path) = some (.string b.path) := congrFun h "path"
  obtain ⟨event, principal, issuer, groups, reason, path⟩ := a
  rw [Audit.mk.injEq]
  exact ⟨hstring (Option.some.inj hevent), Option.map_injective hstring hprincipal,
    Option.map_injective hstring hissuer, Option.map_injective hstrings hgroups,
    Option.map_injective hstring hreason, hstring (Option.some.inj hpath)⟩

/-- **Records with the same text are equal.** -/
theorem render_injective : Function.Injective Audit.render := by
  intro a b h
  have ha := (isObject_render a).value
  rw [h, (isObject_render b).value] at ha
  have hmembers : members b = members a := Json.object.inj (Except.ok.inj ha)
  refine eq_of_said (funext fun name => ?_)
  rw [← lookup?_members, ← lookup?_members, hmembers]

/-! ### Control characters -/

theorem standsIn_toJson (hc : IsControl c) (a : Audit) :
    StandsIn c a.toJson ↔ ∃ name v, said a name = some v ∧ StandsIn c v := by
  obtain ⟨ms, hms, hnames, hsaid⟩ := exists_toJson a
  have hprintable : ∀ n ∈ names, ∀ d ∈ n.toList, IsPrintable d.toNat := fun n hn =>
    printable_of_all (List.all_eq_true.mp (by decide : names.all fun n =>
      n.toList.all fun d => decide (IsPrintable d.toNat)) n hn)
  rw [hms]
  constructor
  · rintro (_ | _ | ⟨hm, h⟩ | ⟨hm, h⟩)
    · have hname := hnames.subset (List.mem_map_of_mem hm)
      exact absurd h (not_mem_of_printable hc (hprintable _ hname))
    · exact ⟨_, _, (hsaid _).mp hm, h⟩
  · rintro ⟨name, v, hv, h⟩
    exact .member ((hsaid (name, v)).mpr hv) h

/-- **The control characters of a text** are those of the values, from the delete character on. -/
theorem mem_render_iff (hc : IsControl c) (a : Audit) : c ∈ a.render.toList ↔
    0x7F ≤ c.toNat ∧ ∃ name v, said a name = some v ∧ StandsIn c v := by
  rw [Audit.render, Json.render, String.toList_ofList, mem_chars_iff hc, standsIn_toJson hc]

/-- **Audit lines cannot be forged through their contents.** The text of a record is one object,
with the members of the record and their values and no other member, and no name is repeated. Of the
control characters it has those from the delete character on that a value has, and none below the
blank. Two records with the same text are equal, and the token of an identity leaves no trace. -/
theorem render_unforgeable :
    (∀ a : Audit,
      (∃ v, IsObject (encode a.render) v ∧ ∀ name, v.get? name = said a name) ∧
      (∀ c ∈ a.render.toList, ¬c.toNat < 0x20) ∧
      (∀ c, IsControl c → (c ∈ a.render.toList ↔
        0x7F ≤ c.toNat ∧ ∃ name v, said a name = some v ∧ StandsIn c v)) ∧
      ∀ b : Audit, a.render = b.render → a = b) ∧
    ∀ (i : Identity) (token : Option String) (issuer : Option String) (path : String),
      (Audit.authenticated { i with token := token } issuer path).render =
        (Audit.authenticated i issuer path).render := by
  refine ⟨fun a => ⟨?_, fun c hmem hlow => ?_, fun c hc => mem_render_iff hc a,
    fun b h => render_injective h⟩, fun _ _ _ _ => rfl⟩
  · exact ⟨_, isObject_render a, lookup?_members a⟩
  · have hhigh := ((mem_render_iff (Or.inl hlow) a).mp hmem).1
    omega

/-- **Not all control characters are escaped.** The delete character and a line break beyond ASCII
stand in a record as a token has them. -/
theorem not_forall_controls_escaped : ¬ ∀ (f : Rejection) (issuer : Option String) (path : String),
    ∀ c ∈ (Audit.rejected f issuer path).render.toList, ¬IsControl c := by
  intro h
  have hdelete := h .missingAuthHeader (some "http://a\x7f\u0085b") "/v1/whoami" '\x7f'
  revert hdelete
  decide +kernel

end TokenGate.Proofs.Auth.AuditLines
