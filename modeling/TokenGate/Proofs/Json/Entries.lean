import TokenGate.Json.Entry
import TokenGate.Proofs.Json.Members

/-! # Members of texts

The members of an object in a text are read twice over: into a value, where the last one of a name
counts (`get?_of_value`), and into a record, where a known name may stand once
(`record_reads`). Both are said of the node that stands under a name, `node? name`, so that a value
and a record that are read from one text can be compared name by name. -/

namespace TokenGate.Proofs.Json.Entries

open TokenGate.Json TokenGate.Proofs.Results TokenGate.Proofs.Json.Members

variable {α β : Type}

/-- The node of the last member whose name has the content `name`. -/
def node? (name : String) : List (Literal × Node) → Option Node
  | [] => none
  | (key, n) :: rest =>
    (node? name rest).or (if key.content.toOption = some name then some n else none)

theorem node?_cons {key : Literal} {k : String} (hk : key.content = .ok k) (name : String) (n : Node)
    (ms : List (Literal × Node)) :
    node? name ((key, n) :: ms) = (node? name ms).or (if k = name then some n else none) := by
  rw [node?, hk]
  simp [Except.toOption]

/-! ### Values -/

theorem memberValues_cons {depth : Nat} {key : Literal} {n : Node} {ms : List (Literal × Node)}
    {vs : List (String × Json)} (h : Node.memberValues depth ((key, n) :: ms) = .ok vs) :
    ∃ k v ws, key.content = .ok k ∧ n.value depth = .ok v ∧ Node.memberValues depth ms = .ok ws ∧
      vs = (k, v) :: ws := by
  rw [Node.memberValues] at h
  simp only [bind_eq_ok, pure_eq_ok] at h
  obtain ⟨k, hk, v, hv, ws, hws, rfl⟩ := h
  exact ⟨k, v, ws, hk, hv, hws, rfl⟩

theorem last?_memberValues (name : String) {depth : Nat} {ms : List (Literal × Node)}
    {vs : List (String × Json)} (h : Node.memberValues depth ms = .ok vs) :
    (∀ n, node? name ms = some n → ∃ v, n.value depth = .ok v ∧ last? name vs = some v) ∧
      (node? name ms = none → last? name vs = none) := by
  induction ms generalizing vs with
  | nil =>
    cases h
    exact ⟨fun n hn => (by cases hn), fun _ => rfl⟩
  | cons m ms ih =>
    obtain ⟨key, n⟩ := m
    obtain ⟨k, v, ws, hk, hv, hws, rfl⟩ := memberValues_cons h
    obtain ⟨ih1, ih2⟩ := ih hws
    rw [node?_cons hk, last?]
    -- A later member of the name wins, on both sides.
    cases hn : node? name ms with
    | some n' =>
      obtain ⟨w, hw, hl⟩ := ih1 n' hn
      rw [hl]
      exact ⟨fun _ he => by cases he; exact ⟨w, hw, rfl⟩, fun he => by cases he⟩
    | none =>
      rw [ih2 hn, Option.none_or, Option.none_or]
      by_cases hname : k = name
      · rw [if_pos hname, if_pos hname]
        exact ⟨fun _ he => by cases he; exact ⟨v, hv, rfl⟩, fun he => by cases he⟩
      · rw [if_neg hname, if_neg hname]
        exact ⟨fun _ he => (by cases he), fun _ => rfl⟩

theorem value_object {depth : Nat} {ms : List (Literal × Node)} {stop : Option TextFault} {v : Json}
    (h : (Node.object ms stop).value (depth + 1) = .ok v) :
    stop = none ∧ ∃ vs, Node.memberValues depth ms = .ok vs ∧ v = .object (sorted vs) := by
  rw [Node.value] at h
  simp only [bind_eq_ok] at h
  obtain ⟨vs, hvs, h⟩ := h
  cases stop with
  | some f => cases h
  | none => cases h; exact ⟨rfl, vs, hvs, rfl⟩

/-- The node that a value is read from is of its kind. -/
def ReadFrom (n : Node) : Json → Prop
  | .null => n = .null
  | .bool b => n = .bool b
  | .number x => n = .number (.ok x)
  | .string s => ∃ l, n = .string l ∧ l.content = .ok s
  | .array _ => ∃ items, n = .array items none
  | .object ms => ∃ nodes vs, n = .object nodes none ∧ ms = sorted vs

theorem readFrom_of_value {n : Node} {depth : Nat} {v : Json} (h : n.value depth = .ok v) :
    ReadFrom n v := by
  cases n with
  | null | bool b =>
    cases h
    rfl
  | number y =>
    rw [Node.value] at h
    obtain ⟨x, rfl, rfl⟩ := except_map_eq_ok.mp h
    rfl
  | string l =>
    rw [Node.value] at h
    obtain ⟨s, hs, rfl⟩ := except_map_eq_ok.mp h
    exact ⟨l, rfl, hs⟩
  | array items stop =>
    cases depth with
    | zero => cases h
    | succ depth =>
      rw [Node.value] at h
      obtain ⟨vs, -, h⟩ := bind_eq_ok.mp h
      cases stop <;> cases h
      exact ⟨items, rfl⟩
  | object nodes stop =>
    cases depth with
    | zero => cases h
    | succ depth =>
      obtain ⟨rfl, vs, -, rfl⟩ := value_object h
      exact ⟨nodes, vs, rfl, rfl⟩
  | broken f => cases h

theorem increasing_of_value {n : Node} {depth : Nat} {ms : List (String × Json)}
    (h : n.value depth = .ok (.object ms)) : Increasing ms := by
  obtain ⟨-, vs, -, rfl⟩ := readFrom_of_value h
  exact increasing_sorted vs

/-- **The member of a value is the value of the node of its name.** -/
theorem get?_of_value (name : String) {depth : Nat} {ms : List (Literal × Node)}
    {stop : Option TextFault} {v : Json} (h : (Node.object ms stop).value (depth + 1) = .ok v) :
    (∀ n, node? name ms = some n → ∃ w, n.value depth = .ok w ∧ v.get? name = some w) ∧
      (node? name ms = none → v.get? name = none) := by
  obtain ⟨-, vs, hvs, rfl⟩ := value_object h
  rw [Json.get?, lookup?_sorted]
  exact last?_memberValues name hvs

theorem node?_of_get? {name : String} {depth : Nat} {ms : List (Literal × Node)}
    {stop : Option TextFault} {v w : Json} (h : (Node.object ms stop).value (depth + 1) = .ok v)
    (hw : v.get? name = some w) : ∃ n, node? name ms = some n ∧ n.value depth = .ok w := by
  obtain ⟨hsome, hnone⟩ := get?_of_value name h
  cases hn : node? name ms with
  | none =>
    rw [hnone hn] at hw
    cases hw
  | some n =>
    obtain ⟨w', hw', hget⟩ := hsome n hn
    obtain rfl : w = w' := Option.some.inj (hw.symm.trans hget)
    exact ⟨n, rfl, hw'⟩

/-! ### Records -/

@[simp] theorem name_free (name : String) (inner : NodeShape β) (put : β → α → α) :
    (Entry.free name inner put).name = name := rfl

@[simp] theorem required_free (name : String) (inner : NodeShape β) (put : β → α → α) :
    (Entry.free name inner put).required = false := rfl

@[simp] theorem set_free {name : String} {inner : NodeShape β} {put : β → α → α} {depth : Nat}
    {n : Node} {a a' : α} : (Entry.free name inner put).set depth n a = .ok a' ↔
      ∃ b, inner depth n = .ok b ∧ put b a = a' := map_eq_ok

theorem mismatch_ne_ok {expected : String} {n : Node} {a : α} :
    NodeShape.mismatch expected n ≠ .ok a := by
  unfold NodeShape.mismatch
  intro h
  split at h <;> try cases h
  split at h <;> cases h

/-- The member `name` of a record in a text is read by `inner` into the field `proj`, and no other
member touches that field. -/
structure Reads (entries : List (Entry α)) (name : String) (inner : NodeShape β) (proj : α → β) :
    Prop where
  known : ∃ e ∈ entries, e.name = name
  set : ∀ e ∈ entries, e.name = name →
    ∀ depth n a a', e.set depth n a = .ok a' → inner depth n = .ok (proj a')
  keep : ∀ e ∈ entries, e.name ≠ name →
    ∀ depth n a a', e.set depth n a = .ok a' → proj a' = proj a

variable {entries : List (Entry α)} {name : String} {inner : NodeShape β} {proj : α → β}

/-- **What reading one more member does**: a known name sets its member, once, and any other member
is passed over. -/
theorem setMembers_cons {depth : Nat} {seen : List String} {key : Literal} {n : Node}
    {ms : List (Literal × Node)} {a : α} {r : α × List String}
    (h : Entry.setMembers entries depth seen ((key, n) :: ms) a = .ok r) :
    ∃ k, key.content = .ok k ∧
      ((∃ e ∈ entries, e.name = k ∧ k ∉ seen ∧ ∃ b, e.set depth n a = .ok b ∧
          Entry.setMembers entries depth (k :: seen) ms b = .ok r) ∨
        ((∀ e ∈ entries, e.name ≠ k) ∧ n.passOver = .ok () ∧
          Entry.setMembers entries depth seen ms a = .ok r)) := by
  rw [Entry.setMembers] at h
  obtain ⟨k, hk, h⟩ := bind_eq_ok.mp h
  refine ⟨k, mapError_eq_ok.mp hk, ?_⟩
  split at h
  · rename_i e he
    split_ifs at h with hseen
    obtain ⟨b, hb, h⟩ := bind_eq_ok.mp h
    refine Or.inl ⟨e, List.mem_of_find?_eq_some he, by simpa using List.find?_some he, ?_, b, hb, h⟩
    simpa using hseen
  · rename_i he
    obtain ⟨⟨⟩, hpass, h⟩ := bind_eq_ok.mp h
    exact Or.inr ⟨by simpa using he, mapError_eq_ok.mp hpass, h⟩

theorem setMembers_reads (hr : Reads entries name inner proj) {depth : Nat} {seen : List String}
    {ms : List (Literal × Node)} {a : α} {r : α × List String}
    (h : Entry.setMembers entries depth seen ms a = .ok r) :
    (∀ n, node? name ms = some n → inner depth n = .ok (proj r.1) ∧ name ∉ seen) ∧
      (node? name ms = none → proj r.1 = proj a) := by
  -- The names that were seen go along: one that is set cannot be set again further on.
  induction ms generalizing seen a with
  | nil =>
    cases h
    exact ⟨fun n hn => (by cases hn), fun _ => rfl⟩
  | cons m ms ih =>
    obtain ⟨key, n⟩ := m
    obtain ⟨k, hk, hstep⟩ := setMembers_cons h
    rw [node?_cons hk]
    rcases hstep with ⟨e, he, hek, hseen, b, hb, hrest⟩ | ⟨hnone, -, hrest⟩
    · obtain ⟨ih1, ih2⟩ := ih hrest
      cases hn : node? name ms with
      | some n' =>
        obtain ⟨h1, h2⟩ := ih1 n' hn
        exact ⟨fun _ e => by cases e; exact ⟨h1, fun hm => h2 (List.mem_cons_of_mem _ hm)⟩,
          fun e => by cases e⟩
      | none =>
        rw [Option.none_or]
        by_cases hname : k = name
        · rw [if_pos hname]
          refine ⟨fun _ e' => ?_, fun e' => by cases e'⟩
          cases e'
          rw [ih2 hn]
          exact ⟨hr.set e he (hek.trans hname) depth n a b hb, hname ▸ hseen⟩
        · rw [if_neg hname]
          refine ⟨fun _ e' => (by cases e'), fun _ => ?_⟩
          rw [ih2 hn]
          exact hr.keep e he (fun e' => hname (hek.symm.trans e')) depth n a b hb
    · -- A name that no entry has is not the one in question.
      obtain ⟨e, he, hename⟩ := hr.known
      have hname : k ≠ name := fun e' => hnone e he (hename.trans e'.symm)
      rw [if_neg hname, Option.or_none]
      exact ih hrest

/-- **A record that is read from an object has its fields from the nodes of their names.** -/
theorem record_reads (hr : Reads entries name inner proj) {type : String} {start a : α}
    {depth : Nat} {ms : List (Literal × Node)} {stop : Option TextFault}
    (h : Entry.record type start entries (depth + 1) (.object ms stop) = .ok a) :
    (∀ n, node? name ms = some n → inner depth n = .ok (proj a)) ∧
      (node? name ms = none → proj a = proj start) := by
  rw [Entry.record] at h
  obtain ⟨r, hr', h⟩ := bind_eq_ok.mp h
  obtain ⟨-, -, h⟩ := bind_eq_ok.mp h
  obtain ⟨h1, h2⟩ := setMembers_reads hr hr'
  split at h
  · cases h
  · cases h
    exact ⟨fun n hn => (h1 n hn).1, h2⟩

/-- **A record and a value of one object** have each field and the member of its name from one node,
and a field whose member is missing has its default. -/
theorem record_reads_value (hr : Reads entries name inner proj) {type : String} {start a : α}
    {depth : Nat} {ms : List (Literal × Node)} {stop : Option TextFault} {v : Json}
    (h : Entry.record type start entries (depth + 1) (.object ms stop) = .ok a)
    (hv : (Node.object ms stop).value (depth + 1) = .ok v) :
    (∀ w, v.get? name = some w → ∃ n, n.value depth = .ok w ∧ inner depth n = .ok (proj a)) ∧
      (v.get? name = none → proj a = proj start) := by
  obtain ⟨hread, hdefault⟩ := record_reads hr h
  refine ⟨fun w hw => ?_, fun hnone => ?_⟩
  · obtain ⟨n, hn, hnode⟩ := node?_of_get? hv hw
    exact ⟨n, hnode, hread n hn⟩
  · refine hdefault ?_
    cases hn : node? name ms with
    | none => rfl
    | some n =>
      obtain ⟨w, -, hget⟩ := (get?_of_value name hv).1 n hn
      rw [hnone] at hget
      cases hget

theorem root_of_record {type : String} {start a : α} {depth : Nat} {n : Node}
    (h : Entry.record type start entries depth n = .ok a) :
    (∃ ms stop, n = .object ms stop) ∨ ∃ items stop, n = .array items stop := by
  unfold Entry.record at h
  split at h
  · cases h
  · cases h
  · exact Or.inl ⟨_, _, rfl⟩
  · exact Or.inr ⟨_, _, rfl⟩
  · exact absurd h mismatch_ne_ok

/-- A record is read from an array of at most as many items as it has members, and the members
behind the last item may be left out. -/
theorem setItems_length {expected : String} {depth index : Nat} {items : List Node} {a a' : α}
    (h : Entry.setItems expected depth index entries items a = .ok a') :
    items.length ≤ entries.length ∧ ∀ e ∈ entries.drop items.length, e.required = false := by
  induction entries generalizing items index a with
  | nil =>
    cases items with
    | nil => exact ⟨Nat.le_refl _, fun e he => by cases he⟩
    | cons n items => cases h
  | cons e entries ih =>
    cases items with
    | nil =>
      rw [Entry.setItems] at h
      split_ifs at h with hreq
      refine ⟨Nat.zero_le _, fun e' he' => ?_⟩
      rcases List.mem_cons.mp he' with rfl | he'
      · simpa using hreq
      · exact (ih h).2 e' he'
    | cons n items =>
      rw [Entry.setItems] at h
      obtain ⟨b, -, h⟩ := bind_eq_ok.mp h
      obtain ⟨hle, hreq⟩ := ih h
      exact ⟨Nat.succ_le_succ hle, hreq⟩

theorem set_of_setItems {expected : String} {depth index : Nat} {items : List Node} {a a' : α}
    (h : Entry.setItems expected depth index entries items a = .ok a') :
    ∀ n ∈ items, ∃ e ∈ entries, ∃ b b', e.set depth n b = .ok b' := by
  induction entries generalizing items index a with
  | nil =>
    cases items with
    | nil => simp
    | cons n items => cases h
  | cons e entries ih =>
    cases items with
    | nil => simp
    | cons n items =>
      rw [Entry.setItems] at h
      obtain ⟨b, hb, h⟩ := bind_eq_ok.mp h
      refine List.forall_mem_cons.mpr ⟨⟨e, List.mem_cons_self, a, b, hb⟩, fun m hm => ?_⟩
      obtain ⟨e', he', hset⟩ := ih h m hm
      exact ⟨e', List.mem_cons_of_mem _ he', hset⟩

theorem record_array {type : String} {start a : α} {depth : Nat} {items : List Node}
    {stop : Option TextFault}
    (h : Entry.record type start entries depth (.array items stop) = .ok a) :
    items.length ≤ entries.length ∧ ∀ e ∈ entries.drop items.length, e.required = false := by
  cases depth with
  | zero => cases h
  | succ depth =>
    rw [Entry.record] at h
    obtain ⟨b, hb, -⟩ := bind_eq_ok.mp h
    exact setItems_length hb

/-! ### Whole texts -/

theorem readBytes_eq_ok {f : NodeShape α} {bytes : List UInt8} {a : α} :
    readBytes f bytes = .ok a ↔ f depthLimit (Document.ofBytes bytes).root = .ok a ∧
      (Document.ofBytes bytes).trailing = false := by
  rw [readBytes, Document.read]
  simp only [bind_eq_ok]
  constructor
  · rintro ⟨b, hb, h⟩
    split_ifs at h with ht
    cases h
    exact ⟨hb, by simpa using ht⟩
  · rintro ⟨h, ht⟩
    exact ⟨a, h, by rw [ht]; rfl⟩

theorem ofBytes_eq_ok {bytes : List UInt8} {v : Json} :
    Json.ofBytes bytes = .ok v ↔ (Document.ofBytes bytes).root.value depthLimit = .ok v ∧
      (Document.ofBytes bytes).trailing = false := by
  rw [Json.ofBytes]
  simp only [bind_eq_ok]
  constructor
  · rintro ⟨b, hb, h⟩
    split_ifs at h with ht
    cases h
    exact ⟨hb, by simpa using ht⟩
  · rintro ⟨h, ht⟩
    exact ⟨v, h, by rw [ht]; rfl⟩

end TokenGate.Proofs.Json.Entries
