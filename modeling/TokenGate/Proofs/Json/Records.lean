import TokenGate.Proofs.Json.Trees

/-! # Records that can be read

An object whose names are distinct has under each name the value of its one member (`get?_of_mem`).
A record can be read from such an object if each of its members that is there can: from a text
(`exists_record`), where all other members are passed over, and from a value (`exists_shape`), where
the members that have to be there must be. -/

namespace TokenGate.Proofs.Json.Records

open TokenGate.Json TokenGate.Proofs.Results TokenGate.Proofs.Json.Members
open TokenGate.Proofs.Json.Entries TokenGate.Proofs.Json.Trees

variable {α : Type}

/-! ### Texts -/

/-- The names of members of a text are distinct. -/
def Distinct (ms : List (Literal × Node)) : Prop :=
  ms.Pairwise fun m m' => m.1.content.toOption ≠ m'.1.content.toOption

instance (ms : List (Literal × Node)) : Decidable (Distinct ms) :=
  inferInstanceAs (Decidable (ms.Pairwise fun m m' => m.1.content.toOption ≠ m'.1.content.toOption))

/-- The nodes of the members whose name has the content `name`, in their order. -/
def nodes (name : String) (ms : List (Literal × Node)) : List Node :=
  (ms.filter fun m => m.1.content.toOption = some name).map Prod.snd

theorem nodes_member (name : String) (m : Literal × Node) (ms : List (Literal × Node)) :
    nodes name (m :: ms) =
      if m.1.content.toOption = some name then m.2 :: nodes name ms else nodes name ms := by
  rw [nodes, List.filter_cons]
  simp only [decide_eq_true_eq]
  split_ifs <;> rfl

theorem nodes_cons {key : Literal} {k : String} (hk : key.content = .ok k) (name : String) (n : Node)
    (ms : List (Literal × Node)) :
    nodes name ((key, n) :: ms) = if k = name then n :: nodes name ms else nodes name ms := by
  rw [nodes_member, hk]
  simp only [Except.toOption, Option.some.injEq]

theorem mem_nodes {ms : List (Literal × Node)} {m : Literal × Node} (hm : m ∈ ms) {k : String}
    (hk : m.1.content = .ok k) : m.2 ∈ nodes k ms := by
  refine List.mem_map.mpr ⟨m, List.mem_filter.mpr ⟨hm, ?_⟩, rfl⟩
  rw [hk]
  exact decide_eq_true rfl

theorem node?_eq_getLast? (name : String) (ms : List (Literal × Node)) :
    node? name ms = (nodes name ms).getLast? := by
  induction ms with
  | nil => rfl
  | cons m ms ih =>
    obtain ⟨key, n⟩ := m
    rw [node?, ih, nodes_member]
    split_ifs with hname
    · rw [List.getLast?_cons]
      cases (nodes name ms).getLast? <;> rfl
    · rw [Option.or_none]

theorem node?_of_nodes {name : String} {ms : List (Literal × Node)} {n : Node}
    (h : nodes name ms = [n]) : node? name ms = some n := by
  rw [node?_eq_getLast?, h]
  rfl

theorem length_nodes_le {ms : List (Literal × Node)} (hd : Distinct ms) (name : String) :
    (nodes name ms).length ≤ 1 := by
  induction ms with
  | nil => exact Nat.zero_le _
  | cons m ms ih =>
    obtain ⟨hlater, hms⟩ := List.pairwise_cons.mp hd
    rw [nodes_member]
    split_ifs with hname
    · have hnone : ms.filter (fun m => m.1.content.toOption = some name) = [] := by
        refine List.filter_eq_nil_iff.mpr fun m' hm' hname' => hlater m' hm' ?_
        exact hname.trans (of_decide_eq_true hname').symm
      rw [nodes, hnone]
      exact Nat.le_refl _
    · exact ih hms

theorem node?_of_mem {ms : List (Literal × Node)} (hd : Distinct ms) {m : Literal × Node}
    (hm : m ∈ ms) {k : String} (hk : m.1.content = .ok k) : node? k ms = some m.2 := by
  have hmem := mem_nodes hm hk
  have hone := length_nodes_le hd k
  obtain ⟨n, hn⟩ : ∃ n, nodes k ms = [n] :=
    List.length_eq_one_iff.mp (Nat.le_antisymm hone (List.length_pos_of_mem hmem))
  rw [hn, List.mem_singleton] at hmem
  rw [hmem]
  exact node?_of_nodes hn

/-- **Under each name of an object with distinct names stands the value of its member.** -/
theorem get?_of_mem {depth : Nat} {ms : List (Literal × Node)} {stop : Option TextFault} {v : Json}
    (hv : (Node.object ms stop).value (depth + 1) = .ok v) (hd : Distinct ms) {m : Literal × Node}
    (hm : m ∈ ms) :
    ∃ k w, m.1.content = .ok k ∧ m.2.value depth = .ok w ∧ v.get? k = some w := by
  obtain ⟨-, vs, hvs, -⟩ := value_object hv
  obtain ⟨k, w, hk, hw⟩ := value_of_mem_members hvs m hm
  obtain ⟨w', hw', hget⟩ := (get?_of_value k hv).1 m.2 (node?_of_mem hd hm hk)
  obtain rfl : w = w' := Except.ok.inj (hw.symm.trans hw')
  exact ⟨k, w, hk, hw, hget⟩

section Text

variable {entries : List (Entry α)} {depth : Nat} {seen : List String} {key : Literal} {k : String}
variable {n : Node} {ms : List (Literal × Node)} {a b : α}

theorem setMembers_of_known {e : Entry α} (hk : key.content = .ok k)
    (he : entries.find? (·.name = k) = some e) (hseen : k ∉ seen) (hset : e.set depth n a = .ok b) :
    Entry.setMembers entries depth seen ((key, n) :: ms) a =
      Entry.setMembers entries depth (k :: seen) ms b := by
  rw [Entry.setMembers, NodeShape.text, hk, Except.mapError, ok_bind, he]
  dsimp only
  rw [if_neg (by simpa using hseen), hset, ok_bind]

theorem setMembers_of_unknown (hk : key.content = .ok k)
    (he : entries.find? (·.name = k) = none) (hpass : n.passOver = .ok ()) :
    Entry.setMembers entries depth seen ((key, n) :: ms) a =
      Entry.setMembers entries depth seen ms a := by
  rw [Entry.setMembers, NodeShape.text, hk, Except.mapError, ok_bind, he]
  dsimp only
  rw [NodeShape.text, hpass, Except.mapError, ok_bind]

/-- Each known name stands at most once among members, and not again if it was seen before. -/
def Single (entries : List (Entry α)) (seen : List String) (ms : List (Literal × Node)) : Prop :=
  ∀ e ∈ entries, (nodes e.name ms).length ≤ 1 ∧ (e.name ∈ seen → nodes e.name ms = [])

theorem single_of_unknown (hk : key.content = .ok k) (he : ∀ e ∈ entries, e.name ≠ k) :
    Single entries seen ((key, n) :: ms) ↔ Single entries seen ms := by
  refine forall₂_congr fun e hmem => ?_
  rw [nodes_cons hk, if_neg (he e hmem).symm]

theorem single_of_known {e : Entry α} (hk : key.content = .ok k) (he : e ∈ entries)
    (hname : e.name = k) :
    Single entries seen ((key, n) :: ms) ↔ k ∉ seen ∧ Single entries (k :: seen) ms := by
  subst hname
  constructor
  · intro h
    refine ⟨fun hseen => ?_, fun e' he' => ?_⟩
    · have hnone := (h e he).2 hseen
      rw [nodes_cons hk, if_pos rfl] at hnone
      cases hnone
    · obtain ⟨hone, hnone⟩ := h e' he'
      rw [nodes_cons hk] at hone hnone
      by_cases hsame : e.name = e'.name
      · have hnil : nodes e'.name ms = [] := by
          rw [if_pos hsame, List.length_cons] at hone
          exact List.length_eq_zero_iff.mp (by omega)
        rw [hnil]
        exact ⟨Nat.zero_le _, fun _ => rfl⟩
      · rw [if_neg hsame] at hone hnone
        exact ⟨hone, fun hmem => hnone ((List.mem_cons.mp hmem).resolve_left (Ne.symm hsame))⟩
  · rintro ⟨hseen, h⟩ e' he'
    obtain ⟨hone, hnone⟩ := h e' he'
    rw [nodes_cons hk]
    split_ifs with hsame
    · rw [hnone (hsame ▸ List.mem_cons_self)]
      exact ⟨Nat.le_refl _, fun hmem => absurd (hsame ▸ hmem) hseen⟩
    · exact ⟨hone, fun hmem => hnone (List.mem_cons_of_mem _ hmem)⟩

/-- **Members are all read** if each known name stands once, those that are known can be set, and
the others can be passed over. -/
theorem exists_setMembers (hsingle : Single entries seen ms)
    (h : ∀ m ∈ ms, ∃ k, m.1.content = .ok k ∧ m.2.passOver = .ok () ∧
      ∀ e ∈ entries, e.name = k → ∀ a, ∃ b, e.set depth m.2 a = .ok b) (a : α) :
    ∃ r, Entry.setMembers entries depth seen ms a = .ok r := by
  induction ms generalizing seen a with
  | nil => exact ⟨_, rfl⟩
  | cons m ms ih =>
    obtain ⟨key, n⟩ := m
    obtain ⟨⟨k, hk, hpass, hset⟩, hrest⟩ := List.forall_mem_cons.mp h
    dsimp only at hk hpass hset
    cases he : entries.find? (·.name = k) with
    | none =>
      rw [setMembers_of_unknown hk he hpass]
      exact ih ((single_of_unknown hk (by simpa using he)).mp hsingle) hrest a
    | some e =>
      have hmem := List.mem_of_find?_eq_some he
      have hname : e.name = k := by simpa using List.find?_some he
      obtain ⟨hseen, hsingle⟩ := (single_of_known hk hmem hname).mp hsingle
      obtain ⟨b, hb⟩ := hset e hmem hname a
      rw [setMembers_of_known hk he hseen hb]
      exact ih hsingle hrest b

/-- **Conversely, members that are all read** have names with a content, of which each known one
stands once. The nodes of these are read, and those of the others are passed over. -/
theorem single_of_setMembers {r : α × List String}
    (h : Entry.setMembers entries depth seen ms a = .ok r) :
    Single entries seen ms ∧ ∀ m ∈ ms, ∃ k, m.1.content = .ok k ∧
      ((∃ e ∈ entries, ∃ a b, e.set depth m.2 a = .ok b) ∨ m.2.passOver = .ok ()) := by
  induction ms generalizing seen a with
  | nil => exact ⟨fun e he => ⟨Nat.zero_le _, fun _ => rfl⟩, by simp⟩
  | cons m ms ih =>
    obtain ⟨key, n⟩ := m
    obtain ⟨k, hk, hstep⟩ := setMembers_cons h
    rcases hstep with ⟨e, he, hname, hseen, b, hb, hrest⟩ | ⟨hnone, hpass, hrest⟩
    · obtain ⟨hsingle, hmembers⟩ := ih hrest
      exact ⟨(single_of_known hk he hname).mpr ⟨hseen, hsingle⟩,
        List.forall_mem_cons.mpr ⟨⟨k, hk, Or.inl ⟨e, he, a, b, hb⟩⟩, hmembers⟩⟩
    · obtain ⟨hsingle, hmembers⟩ := ih hrest
      exact ⟨(single_of_unknown hk hnone).mpr hsingle,
        List.forall_mem_cons.mpr ⟨⟨k, hk, Or.inr hpass⟩, hmembers⟩⟩

/-- **A record without required members can be read from an object with distinct names** if each of
its members that is there can. -/
theorem exists_record {stop : Option TextFault} {v : Json} (type : String) (start : α)
    (hwell : Well (.object ms stop)) (hv : (Node.object ms stop).value (depth + 1) = .ok v)
    (hd : Distinct ms) (hfree : ∀ e ∈ entries, e.required = false)
    (hset : ∀ e ∈ entries, ∀ w n, v.get? e.name = some w → n.value depth = .ok w →
      ∀ a, ∃ b, e.set depth n a = .ok b) :
    ∃ a, Entry.record type start entries (depth + 1) (.object ms stop) = .ok a := by
  have hmembers : ∀ m ∈ ms, ∃ k, m.1.content = .ok k ∧ m.2.passOver = .ok () ∧
      ∀ e ∈ entries, e.name = k → ∀ a, ∃ b, e.set depth m.2 a = .ok b := by
    intro m hm
    obtain ⟨k, w, hk, hw, hget⟩ := get?_of_mem hv hd hm
    have hpass : m.2.passOver = .ok () := by
      cases hwell with
      | object _ _ h => exact passOver_of_value (h m hm) hw
    exact ⟨k, hk, hpass, fun e he hek => hset e he w m.2 (hek ▸ hget) hw⟩
  have hsingle : Single entries [] ms :=
    fun e _ => ⟨length_nodes_le hd e.name, fun hmem => absurd hmem List.not_mem_nil⟩
  obtain ⟨⟨a, seen⟩, hr⟩ := exists_setMembers hsingle hmembers start
  obtain ⟨rfl, -⟩ := value_object hv
  have hnone : (entries.find? fun e => e.required && !seen.contains e.name) = none := by
    rw [List.find?_eq_none]
    intro e he
    simp [hfree e he]
  refine ⟨a, ?_⟩
  rw [Entry.record, hr, ok_bind]
  dsimp only
  rw [hnone]
  rfl

/-- A tree is an object whose names are distinct. -/
def HasDistinctNames : Node → Prop
  | .object ms _ => Distinct ms
  | _ => False

instance : (n : Node) → Decidable (HasDistinctNames n)
  | .object ms _ => inferInstanceAs (Decidable (Distinct ms))
  | .null | .bool _ | .number _ | .string _ | .array _ _ | .broken _ => isFalse id

/-- A text is an object with distinct names, with this value. -/
structure IsObject (bytes : List UInt8) (v : Json) : Prop where
  value : Json.ofBytes bytes = .ok v
  names : HasDistinctNames (Document.ofBytes bytes).root

theorem tree_of_names (h : HasDistinctNames n) : ∃ ms stop, n = .object ms stop ∧ Distinct ms := by
  cases n with
  | object ms stop => exact ⟨ms, stop, rfl, h⟩
  | _ => exact False.elim h

/-- A way to read texts takes objects for records of these members. -/
def RecordOf (entries : List (Entry α)) (start : α) (f : NodeShape α) : Prop :=
  ∃ type, ∀ depth ms stop,
    f depth (.object ms stop) = Entry.record type start entries depth (.object ms stop)

variable {bytes : List UInt8} {v : Json} {f : NodeShape α} {start : α}

/-- **A record can be read from the text of an object with distinct names** if none of its members
has to be there and each one that is there can be read. -/
theorem exists_readBytes (hf : RecordOf entries start f) (hobject : IsObject bytes v)
    (hfree : ∀ e ∈ entries, e.required = false)
    (hset : ∀ e ∈ entries, ∀ w n depth, v.get? e.name = some w → n.value depth = .ok w →
      ∀ a, ∃ b, e.set depth n a = .ok b) : ∃ a, readBytes f bytes = .ok a := by
  obtain ⟨type, hf⟩ := hf
  obtain ⟨hv, htrailing⟩ := ofBytes_eq_ok.mp hobject.value
  obtain ⟨ms, stop, hroot, hd⟩ := tree_of_names hobject.names
  have hwell := well_ofBytes bytes
  rw [hroot] at hv hwell
  obtain ⟨a, ha⟩ := exists_record type start hwell hv hd hfree fun e he w n => hset e he w n _
  refine ⟨a, readBytes_eq_ok.mpr ⟨?_, htrailing⟩⟩
  rw [hroot, hf]
  exact ha

/-- **The fields of such a record** are read from the nodes of the members, or have their
defaults. -/
theorem field_of_readBytes {β : Type} {name : String} {inner : NodeShape β} {proj : α → β}
    (hf : RecordOf entries start f) (hr : Reads entries name inner proj)
    (hobject : IsObject bytes v) (h : readBytes f bytes = .ok a) :
    (∀ w, v.get? name = some w → ∃ n depth, n.value depth = .ok w ∧
      inner depth n = .ok (proj a)) ∧ (v.get? name = none → proj a = proj start) := by
  obtain ⟨type, hf⟩ := hf
  obtain ⟨hv, -⟩ := ofBytes_eq_ok.mp hobject.value
  obtain ⟨hrecord, -⟩ := readBytes_eq_ok.mp h
  obtain ⟨ms, stop, hroot, -⟩ := tree_of_names hobject.names
  rw [hroot] at hv hrecord
  rw [hf] at hrecord
  obtain ⟨hread, hdefault⟩ := record_reads_value hr hrecord hv
  refine ⟨fun w hw => ?_, hdefault⟩
  obtain ⟨n, hn, hinner⟩ := hread w hw
  exact ⟨n, _, hn, hinner⟩

end Text

/-! ### Values -/

section Value

variable {fields : List (Member α)} {ms : List (String × Json)}

theorem lookup?_of_mem (hms : Increasing ms) {m : String × Json} (hm : m ∈ ms) :
    lookup? m.1 ms = some m.2 := by
  induction ms with
  | nil => cases hm
  | cons m' ms ih =>
    obtain ⟨hlater, hms⟩ := List.pairwise_cons.mp hms
    rw [lookup?]
    rcases List.mem_cons.mp hm with rfl | hm
    · exact if_pos rfl
    · rw [if_neg (ne_of_lt (hlater m hm))]
      exact ih hms hm

theorem exists_setMembers_value
    (h : ∀ m ∈ ms, ∀ f ∈ fields, f.name = m.1 → ∀ a, ∃ b, f.set m.2 a = .ok b) (a : α) :
    ∃ b, Record.setMembers fields ms a = .ok b := by
  induction ms generalizing a with
  | nil => exact ⟨a, rfl⟩
  | cons m ms ih =>
    obtain ⟨hm, hms⟩ := List.forall_mem_cons.mp h
    rw [Record.setMembers]
    cases hf : fields.find? (·.name = m.1) with
    | none => exact ih hms a
    | some f =>
      have hname : f.name = m.1 := by simpa using List.find?_some hf
      obtain ⟨b, hb⟩ := hm f (List.mem_of_find?_eq_some hf) hname a
      dsimp only
      rw [hb, ok_bind]
      exact ih hms b

/-- **A record can be read from a value with distinct names** if each of its members that is there
can, and those that have to be there are. -/
theorem exists_shape (type : String) (start : α) (hms : Increasing ms)
    (hset : ∀ f ∈ fields, ∀ w, lookup? f.name ms = some w → ∀ a, ∃ b, f.set w a = .ok b)
    (hthere : ∀ f ∈ fields, f.required = true → ∃ w, lookup? f.name ms = some w) :
    ∃ a, Record.shape type start fields (.object ms) = .ok a := by
  obtain ⟨a, ha⟩ := exists_setMembers_value
    (fun m hm f hf hname => hset f hf m.2 (hname ▸ lookup?_of_mem hms hm)) start
  have hmissing : Record.missing? fields ms = none := by
    rw [Record.missing?, Option.map_eq_none_iff, List.find?_eq_none]
    intro f hf
    cases hreq : f.required with
    | false => simp
    | true =>
      rw [any_iff_exists_lookup?.mpr (hthere f hf hreq)]
      simp
  refine ⟨a, ?_⟩
  rw [Record.shape, ha, ok_bind, hmissing]
  rfl

end Value

end TokenGate.Proofs.Json.Records
