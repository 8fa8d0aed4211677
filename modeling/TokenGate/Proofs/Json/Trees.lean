import TokenGate.Proofs.Json.Entries

/-! # Trees of texts: what can be read can be passed over

A string is read for its content or passed over, and its scan keeps the results of both. A string
that has a content can be passed over (`readable_of_mem_lex`). Whatever tree the reader makes of the
tokens of a text has no other strings, since each step of it keeps them (`well_step`,
`well_ofBytes`). So a tree of a text that has a value can be passed over as well
(`passOver_of_value`). -/

namespace TokenGate.Proofs.Json.Trees

open TokenGate.Json TokenGate.Json.Node TokenGate.Proofs.Results TokenGate.Proofs.Json.Entries

/-- A string that has a content can be passed over. -/
def Readable (l : Literal) : Prop := ∀ s, l.content = .ok s → l.blocked = none

/-! ### Tokens -/

theorem readable_close (s : Literal.Scan) : Readable s.close := by
  intro t _
  unfold Literal.Scan.close
  split
  · rfl
  · split <;> rfl

theorem readable_block (s : Literal.Scan) (f : TextFault) : Readable (s.block f) := by
  intro t h
  cases h

theorem readable_scan (s : Literal.Scan) (bs : List UInt8) : Readable (Literal.scan s bs).1 := by
  fun_induction Literal.scan s bs with
  | case2 => exact readable_close _
  | case1 | case3 | case5 | case7 | case8 | case10 => exact readable_block _ _
  -- The scan goes on, and ends as the rest of it.
  | case4 | case6 | case9 => assumption

theorem word_ne_string {token : Token} {l : Literal} (h : token ≠ .string l) (cs bs : List UInt8) :
    (Lexer.word token cs bs).1 ≠ .string l := by
  fun_induction Lexer.word token cs bs <;> simp_all

theorem numeral_ne_string (negative : Bool) (bs : List UInt8) (l : Literal) :
    (Lexer.numeral negative bs).1 ≠ .string l := by
  unfold Lexer.numeral
  split <;> simp

theorem readable_next {b : UInt8} {rest : List UInt8} {l : Literal}
    (h : (Lexer.next b rest).1 = .string l) : Readable l := by
  unfold Lexer.next at h
  split at h
  · rename_i token hmark
    unfold Lexer.mark? at hmark
    split_ifs at hmark <;> cases hmark <;> cases h
  · split_ifs at h
    · cases h
      exact readable_scan _ _
    · exact absurd h (word_ne_string (by simp) _ _)
    · exact absurd h (word_ne_string (by simp) _ _)
    · exact absurd h (word_ne_string (by simp) _ _)
    · exact absurd h (numeral_ne_string _ _ _)
    · exact absurd h (numeral_ne_string _ _ _)

/-- **The strings among the tokens of a text can be passed over if they have a content.** -/
theorem readable_of_mem_lex {bytes : List UInt8} {l : Literal}
    (h : .string l ∈ Lexer.lex bytes) : Readable l := by
  fun_induction Lexer.lex bytes with
  | case1 => cases h
  | case2 b rest _ ih => exact ih h
  | case3 b rest _ ih =>
    rcases List.mem_cons.mp h with h | h
    · exact readable_next h.symm
    · exact ih h

/-! ### Trees -/

/-- All strings of a tree can be passed over if they have a content. -/
inductive Well : Node → Prop
  | null : Well .null
  | bool (b : Bool) : Well (.bool b)
  | number (n : Except TextFault Number) : Well (.number n)
  | string {l : Literal} (h : Readable l) : Well (.string l)
  | array {items : List Node} (stop : Option TextFault) (h : ∀ n ∈ items, Well n) :
    Well (.array items stop)
  | object {ms : List (Literal × Node)} (stop : Option TextFault) (hkeys : ∀ m ∈ ms, Readable m.1)
    (h : ∀ m ∈ ms, Well m.2) : Well (.object ms stop)
  | broken (f : TextFault) : Well (.broken f)

/-- The same of the members that an open object holds. -/
def WellMembers (ms : List (Literal × Node)) : Prop := ∀ m ∈ ms, Readable m.1 ∧ Well m.2

/-- The same of an open container. -/
def WellFrame : Frame → Prop
  | .array items => ∀ n ∈ items, Well n
  | .object ms key => WellMembers ms ∧ Readable key

/-- The same of what is read at a place. -/
def WellPlace : Place → Prop
  | .item items | .afterItem items => ∀ n ∈ items, Well n
  | .name ms | .afterMember ms => WellMembers ms
  | .colon ms key => WellMembers ms ∧ Readable key
  | .value | .firstItem | .firstName => True

/-- The same of what a token leads to. -/
def WellStep : Step → Prop
  | .more place frames => WellPlace place ∧ ∀ f ∈ frames, WellFrame f
  | .complete n | .stopped n => Well n

/-- The same of a token. -/
def WellToken : Option Token → Prop
  | some (.string l) => Readable l
  | _ => True

theorem well_reverse_array {items : List Node} (h : ∀ n ∈ items, Well n)
    (stop : Option TextFault) : Well (.array items.reverse stop) :=
  .array stop fun n hn => h n (List.mem_reverse.mp hn)

theorem well_reverse_object {ms : List (Literal × Node)} (h : WellMembers ms)
    (stop : Option TextFault) : Well (.object ms.reverse stop) :=
  .object stop (fun m hm => (h m (List.mem_reverse.mp hm)).1)
    fun m hm => (h m (List.mem_reverse.mp hm)).2

theorem wellMembers_cons {key : Literal} {n : Node} {ms : List (Literal × Node)}
    (hkey : Readable key) (hn : Well n) (h : WellMembers ms) : WellMembers ((key, n) :: ms) :=
  List.forall_mem_cons.mpr ⟨⟨hkey, hn⟩, h⟩

theorem well_abandon {n : Node} {frames : List Frame} (hn : Well n)
    (h : ∀ f ∈ frames, WellFrame f) : Well (abandon n frames) := by
  induction frames generalizing n with
  | nil => exact hn
  | cons f frames ih =>
    obtain ⟨hf, hframes⟩ := List.forall_mem_cons.mp h
    cases f with
    | array items =>
      exact ih (well_reverse_array (List.forall_mem_cons.mpr ⟨hn, hf⟩) none) hframes
    | object ms key =>
      exact ih (well_reverse_object (wellMembers_cons hf.2 hn hf.1) none) hframes

theorem well_deliver {n : Node} {frames : List Frame} (hn : Well n)
    (h : ∀ f ∈ frames, WellFrame f) : WellStep (deliver n frames) := by
  cases frames with
  | nil => exact hn
  | cons f frames =>
    obtain ⟨hf, hframes⟩ := List.forall_mem_cons.mp h
    cases f with
    | array items => exact ⟨List.forall_mem_cons.mpr ⟨hn, hf⟩, hframes⟩
    | object ms key => exact ⟨wellMembers_cons hf.2 hn hf.1, hframes⟩

theorem well_stepValue {frames : List Frame} {token : Option Token} (ht : WellToken token)
    (h : ∀ f ∈ frames, WellFrame f) : WellStep (stepValue frames token) := by
  unfold stepValue
  split
  · exact well_abandon (.broken _) h
  · exact ⟨trivial, h⟩
  · exact ⟨trivial, h⟩
  · exact well_deliver .null h
  · exact well_deliver (.bool _) h
  · exact well_deliver (.number _) h
  · split_ifs
    · exact well_abandon (.string ht) h
    · exact well_deliver (.string ht) h
  · exact well_abandon (.broken _) h
  · exact well_abandon (.broken _) h

theorem well_stepName {ms : List (Literal × Node)} {frames : List Frame} {key : Literal}
    (hms : WellMembers ms) (hkey : Readable key) (h : ∀ f ∈ frames, WellFrame f) :
    WellStep (stepName ms frames key) := by
  unfold stepName
  split
  · exact well_abandon (well_reverse_object (wellMembers_cons hkey (.broken _) hms) none) h
  · exact ⟨⟨hms, hkey⟩, h⟩

/-- **One step keeps the strings of a tree as they are in the tokens.** -/
theorem well_step {token : Option Token} {frames : List Frame} {place : Place}
    (ht : WellToken token) (h : ∀ f ∈ frames, WellFrame f) (hplace : WellPlace place) :
    WellStep (step token frames place) := by
  have hnil : WellMembers [] := fun m hm => by cases hm
  have hempty : ∀ stop, Well (.array [] stop) := fun stop => .array stop fun n hn => by cases hn
  have hempty' : ∀ stop, Well (.object [] stop) := fun stop => well_reverse_object hnil stop
  have hframe : WellFrame (.array []) := fun n hn => by cases hn
  unfold step
  cases place with
  | value => exact well_stepValue ht h
  | firstItem =>
    dsimp only
    split
    · exact well_deliver (hempty _) h
    · exact well_abandon (hempty _) h
    · exact well_stepValue ht (List.forall_mem_cons.mpr ⟨hframe, h⟩)
  | item items =>
    dsimp only
    split
    · exact well_abandon (well_reverse_array hplace _) h
    · exact well_stepValue ht (List.forall_mem_cons.mpr ⟨hplace, h⟩)
  | afterItem items =>
    dsimp only
    split
    · exact ⟨hplace, h⟩
    · exact well_deliver (well_reverse_array hplace _) h
    · exact well_abandon (well_reverse_array hplace _) h
    · exact well_abandon (well_reverse_array hplace _) h
  | firstName =>
    dsimp only
    split
    · exact well_stepName hnil ht h
    · exact well_deliver (hempty' _) h
    · exact well_abandon (hempty' _) h
    · exact well_abandon (hempty' _) h
  | name ms =>
    dsimp only
    split
    · exact well_stepName hplace ht h
    · exact well_abandon (well_reverse_object hplace _) h
    · exact well_abandon (well_reverse_object hplace _) h
    · exact well_abandon (well_reverse_object hplace _) h
  | colon ms key =>
    obtain ⟨hms, hkey⟩ := hplace
    have hbroken : ∀ f, WellMembers ((key, .broken f) :: ms) := fun f =>
      wellMembers_cons hkey (.broken f) hms
    dsimp only
    split
    · exact ⟨trivial, List.forall_mem_cons.mpr ⟨⟨hms, hkey⟩, h⟩⟩
    · exact well_abandon (well_reverse_object (hbroken _) _) h
    · exact well_abandon (well_reverse_object (hbroken _) _) h
  | afterMember ms =>
    dsimp only
    split
    · exact ⟨hplace, h⟩
    · exact well_deliver (well_reverse_object hplace _) h
    · exact well_abandon (well_reverse_object hplace _) h
    · exact well_abandon (well_reverse_object hplace _) h

theorem well_read {tokens : List Token} (ht : ∀ t ∈ tokens, WellToken (some t)) {place : Place}
    {frames : List Frame} (hplace : WellPlace place) (h : ∀ f ∈ frames, WellFrame f) :
    Well (Node.read place frames tokens).1 := by
  induction tokens generalizing place frames with
  | nil =>
    have hstep : WellStep (step none frames place) := well_step trivial h hplace
    rw [Node.read]
    cases hs : step none frames place with
    | more place frames => exact .broken _
    | complete n | stopped n =>
      rw [hs] at hstep
      exact hstep
  | cons t tokens ih =>
    obtain ⟨ht, htokens⟩ := List.forall_mem_cons.mp ht
    have hstep := well_step ht h hplace
    rw [Node.read]
    cases hs : step (some t) frames place with
    | more place frames =>
      rw [hs] at hstep
      exact ih htokens hstep.1 hstep.2
    | complete n | stopped n =>
      rw [hs] at hstep
      exact hstep

/-- **The strings of the tree of a text can be passed over if they have a content.** -/
theorem well_ofBytes (bytes : List UInt8) : Well (Document.ofBytes bytes).root := by
  refine well_read (fun t ht => ?_) trivial fun f hf => by cases hf
  cases t with
  | string l => exact readable_of_mem_lex ht
  | _ => trivial

/-! ### Values -/

theorem passItems_eq_ok {items : List Node} (h : ∀ n ∈ items, n.passOver = .ok ()) :
    passItems items = .ok () := by
  induction items with
  | nil => rfl
  | cons n items ih =>
    obtain ⟨hn, hitems⟩ := List.forall_mem_cons.mp h
    rw [passItems, hn, ih hitems]
    rfl

theorem passMembers_eq_ok {ms : List (Literal × Node)}
    (h : ∀ m ∈ ms, m.1.blocked = none ∧ m.2.passOver = .ok ()) : passMembers ms = .ok () := by
  induction ms with
  | nil => rfl
  | cons m ms ih =>
    obtain ⟨⟨hkey, hn⟩, hms⟩ := List.forall_mem_cons.mp h
    rw [passMembers, passLiteral, hkey, hn, ih hms]
    rfl

theorem value_of_mem_items {depth : Nat} {items : List Node} {vs : List Json}
    (h : values depth items = .ok vs) : ∀ n ∈ items, ∃ v, n.value depth = .ok v := by
  induction items generalizing vs with
  | nil => exact fun n hn => by cases hn
  | cons n items ih =>
    rw [values] at h
    obtain ⟨v, hv, h⟩ := bind_eq_ok.mp h
    obtain ⟨vs', hvs, -⟩ := bind_eq_ok.mp h
    exact List.forall_mem_cons.mpr ⟨⟨v, hv⟩, ih hvs⟩

theorem value_of_mem_members {depth : Nat} {ms : List (Literal × Node)} {vs : List (String × Json)}
    (h : memberValues depth ms = .ok vs) :
    ∀ m ∈ ms, ∃ k v, m.1.content = .ok k ∧ m.2.value depth = .ok v := by
  induction ms generalizing vs with
  | nil => exact fun m hm => by cases hm
  | cons m ms ih =>
    obtain ⟨k, v, vs', hk, hv, hvs, -⟩ := memberValues_cons h
    exact List.forall_mem_cons.mpr ⟨⟨k, v, hk, hv⟩, ih hvs⟩

/-- **A tree of a text that has a value can be passed over.** -/
theorem passOver_of_value {n : Node} (hn : Well n) {depth : Nat} {v : Json}
    (h : n.value depth = .ok v) : n.passOver = .ok () := by
  induction hn generalizing depth v with
  | null | bool b | number x => rfl
  | broken f => cases h
  | @string l hl =>
    rw [value] at h
    obtain ⟨s, hs, -⟩ := except_map_eq_ok.mp h
    rw [passOver, passLiteral, hl s hs]
    rfl
  | @array items stop _ ih =>
    cases depth with
    | zero => cases h
    | succ depth =>
      rw [value] at h
      obtain ⟨vs, hvs, h⟩ := bind_eq_ok.mp h
      cases stop with
      | some f => cases h
      | none =>
        have hitems : passItems items = .ok () := by
          refine passItems_eq_ok fun n hn => ?_
          obtain ⟨w, hw⟩ := value_of_mem_items hvs n hn
          exact ih n hn hw
        rw [passOver, hitems]
        rfl
  | @object ms stop hkeys _ ih =>
    cases depth with
    | zero => cases h
    | succ depth =>
      rw [value] at h
      obtain ⟨vs, hvs, h⟩ := bind_eq_ok.mp h
      cases stop with
      | some f => cases h
      | none =>
        have hmembers : passMembers ms = .ok () := by
          refine passMembers_eq_ok fun m hm => ?_
          obtain ⟨k, w, hk, hw⟩ := value_of_mem_members hvs m hm
          exact ⟨hkeys m hm k hk, ih m hm hw⟩
        rw [passOver, hmembers]
        rfl

end TokenGate.Proofs.Json.Trees
