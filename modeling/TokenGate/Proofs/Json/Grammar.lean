import TokenGate.Proofs.Json.Trees

/-! # The grammar that the reader keeps to

A tree that can be passed over (`Whole`) has lexemes: those of its leaves, in order, with the marks
of its containers between them. From the lexemes of such a tree the reader makes the tree
(`read_lexemes`). Conversely, when the reader has made a whole tree, the tokens that it took are the
lexemes of the tree: each step adds one token to what the open containers account for, or it ends
the tree before its text, and then the tree cannot be passed over (`accounts_step`). So a text is a
document with nothing behind it exactly if its tokens are the lexemes of its tree
(`ofBytes_iff_lex`). -/

namespace TokenGate.Proofs.Json.Grammar

open TokenGate.Json TokenGate.Json.Node TokenGate.Proofs.Results TokenGate.Proofs.Json.Trees

/-! ### Whole trees -/

/-- A tree that can be passed over. -/
inductive Whole : Node → Prop
  | null : Whole .null
  | bool (b : Bool) : Whole (.bool b)
  | number (n : Except TextFault Number) : Whole (.number n)
  | string {l : Literal} (h : l.blocked = none) : Whole (.string l)
  | array {items : List Node} (h : ∀ n ∈ items, Whole n) : Whole (.array items none)
  | object {ms : List (Literal × Node)} (hkeys : ∀ m ∈ ms, m.1.blocked = none)
    (h : ∀ m ∈ ms, Whole m.2) : Whole (.object ms none)

theorem finish_eq_ok {α : Type} {stop : Option TextFault} {a b : α} :
    finish stop a = .ok b ↔ stop = none ∧ a = b := by
  cases stop <;> simp [finish]

theorem passOver_of_whole {n : Node} (h : Whole n) : n.passOver = .ok () := by
  induction h with
  | null | bool | number => rfl
  | string h =>
    rw [passOver, passLiteral, h]
    rfl
  | array h ih =>
    rw [passOver, passItems_eq_ok ih]
    rfl
  | object hkeys h ih =>
    rw [passOver, passMembers_eq_ok fun m hm => ⟨hkeys m hm, ih m hm⟩]
    rfl

mutual

theorem whole_of_passOver : (n : Node) → n.passOver = .ok () → Whole n
  | .null, _ => .null
  | .bool b, _ => .bool b
  | .number n, _ => .number n
  | .string l, h => .string (finish_eq_ok.mp h).1
  | .array items stop, h => by
    rw [passOver] at h
    obtain ⟨_, hitems, h⟩ := bind_eq_ok.mp h
    obtain ⟨rfl, -⟩ := finish_eq_ok.mp h
    exact .array (whole_of_passItems items hitems)
  | .object ms stop, h => by
    rw [passOver] at h
    obtain ⟨_, hms, h⟩ := bind_eq_ok.mp h
    obtain ⟨rfl, -⟩ := finish_eq_ok.mp h
    have hwhole := whole_of_passMembers ms hms
    exact .object (fun m hm => (hwhole m hm).1) fun m hm => (hwhole m hm).2
  | .broken f, h => by cases h

theorem whole_of_passItems : (items : List Node) → passItems items = .ok () → ∀ n ∈ items, Whole n
  | [], _ => by simp
  | n :: items, h => by
    rw [passItems] at h
    obtain ⟨_, hn, h⟩ := bind_eq_ok.mp h
    exact List.forall_mem_cons.mpr ⟨whole_of_passOver n hn, whole_of_passItems items h⟩

theorem whole_of_passMembers : (ms : List (Literal × Node)) → passMembers ms = .ok () →
    ∀ m ∈ ms, m.1.blocked = none ∧ Whole m.2
  | [], _ => by simp
  | (key, n) :: ms, h => by
    rw [passMembers] at h
    obtain ⟨_, hkey, h⟩ := bind_eq_ok.mp h
    obtain ⟨_, hn, h⟩ := bind_eq_ok.mp h
    exact List.forall_mem_cons.mpr
      ⟨⟨(finish_eq_ok.mp hkey).1, whole_of_passOver n hn⟩, whole_of_passMembers ms h⟩

end

/-! ### Lexemes -/

mutual

/-- The lexemes of a tree. -/
def lexemes : Node → List Token
  | .null => [.null]
  | .bool b => [.bool b]
  | .number n => [.number n]
  | .string l => [.string l]
  | .array items _ => .openArray :: itemLexemes items
  | .object ms _ => .openObject :: memberLexemes ms
  | .broken f => [.broken f]

/-- The lexemes of the items of an array, and of its end. -/
def itemLexemes : List Node → List Token
  | [] => [.closeArray]
  | [n] => lexemes n ++ [.closeArray]
  | n :: rest => lexemes n ++ .comma :: itemLexemes rest

/-- The lexemes of the members of an object, and of its end. -/
def memberLexemes : List (Literal × Node) → List Token
  | [] => [.closeObject]
  | [(key, n)] => .string key :: .colon :: (lexemes n ++ [.closeObject])
  | (key, n) :: rest => .string key :: .colon :: (lexemes n ++ .comma :: memberLexemes rest)

end

/-! ### From lexemes to trees -/

/-- What the reader makes of the rest of the tokens after a step. -/
def resume (ts : List Token) : Step → Node × Bool
  | .complete node => (node, !ts.isEmpty)
  | .stopped node => (node, false)
  | .more place frames => read place frames ts

theorem read_cons (place : Place) (frames : List Frame) (t : Token) (ts : List Token) :
    read place frames (t :: ts) = resume ts (step (some t) frames place) := by
  rw [Node.read]
  cases step (some t) frames place <;> rfl

/-- The lexemes of a tree are read as the tree. -/
def IsRead (n : Node) : Prop := ∀ frames ts,
  read .value frames (lexemes n ++ ts) = resume ts (deliver n frames)

theorem exists_itemLexemes (n : Node) (items : List Node) :
    ∃ t ts, itemLexemes (n :: items) = t :: ts ∧ t ≠ .closeArray := by
  cases items <;> cases n <;> exact ⟨_, _, rfl, by simp⟩

/-- An item of an array, the first one and each other, is read as a value inside the array. -/
theorem read_item {place : Place} {done : List Node}
    (h : place = .item done ∨ place = .firstItem ∧ done = []) (n : Node) (items : List Node)
    (frames : List Frame) (ts : List Token) :
    read place frames (itemLexemes (n :: items) ++ ts) =
      read .value (.array done :: frames) (itemLexemes (n :: items) ++ ts) := by
  obtain ⟨t, ts', hn, ht⟩ := exists_itemLexemes n items
  rw [hn, List.cons_append, read_cons, read_cons]
  rcases h with rfl | ⟨rfl, rfl⟩ <;> cases t <;> first | rfl | exact absurd rfl ht

theorem read_itemLexemes {n : Node} {items : List Node} (hn : IsRead n)
    (hitems : ∀ m ∈ items, IsRead m) (done : List Node) (frames : List Frame) (ts : List Token) :
    read .value (.array done :: frames) (itemLexemes (n :: items) ++ ts) =
      resume ts (deliver (.array (done.reverse ++ n :: items) none) frames) := by
  induction items generalizing n done with
  | nil =>
    rw [itemLexemes, List.append_assoc, hn, deliver, resume]
    change read _ _ (.closeArray :: ts) = _
    rw [read_cons]
    simp [step]
  | cons m items ih =>
    obtain ⟨hm, hitems⟩ := List.forall_mem_cons.mp hitems
    rw [itemLexemes, List.append_assoc, hn, deliver, resume]
    · change read _ _ (.comma :: (itemLexemes (m :: items) ++ ts)) = _
      rw [read_cons]
      change read (.item (n :: done)) frames (itemLexemes (m :: items) ++ ts) = _
      rw [read_item (Or.inl rfl), ih hm hitems]
      simp
    · simp

theorem read_firstName (m : Literal × Node) (ms : List (Literal × Node)) (frames : List Frame)
    (ts : List Token) :
    read .firstName frames (memberLexemes (m :: ms) ++ ts) =
      read (.name []) frames (memberLexemes (m :: ms) ++ ts) := by
  obtain ⟨key, n⟩ := m
  cases ms <;> rfl

theorem read_name {key : Literal} (hkey : key.blocked = none) (done : List (Literal × Node))
    (frames : List Frame) (ts : List Token) :
    read (.name done) frames (.string key :: .colon :: ts) =
      read .value (.object done key :: frames) ts := by
  have hstep : step (some (.string key)) frames (.name done) = .more (.colon done key) frames := by
    rw [step, stepName, hkey]
  rw [read_cons, hstep]
  rfl

theorem read_memberLexemes {m : Literal × Node} {ms : List (Literal × Node)}
    (hm : m.1.blocked = none ∧ IsRead m.2) (hms : ∀ m ∈ ms, m.1.blocked = none ∧ IsRead m.2)
    (done : List (Literal × Node)) (frames : List Frame) (ts : List Token) :
    read (.name done) frames (memberLexemes (m :: ms) ++ ts) =
      resume ts (deliver (.object (done.reverse ++ m :: ms) none) frames) := by
  induction ms generalizing m done with
  | nil =>
    obtain ⟨key, n⟩ := m
    rw [memberLexemes, List.cons_append, List.cons_append, List.append_assoc, read_name hm.1, hm.2,
      deliver, resume]
    change read _ _ (.closeObject :: ts) = _
    rw [read_cons]
    simp [step]
  | cons m' ms ih =>
    obtain ⟨key, n⟩ := m
    obtain ⟨hm', hms⟩ := List.forall_mem_cons.mp hms
    rw [memberLexemes, List.cons_append, List.cons_append, List.append_assoc, read_name hm.1, hm.2,
      deliver, resume]
    · change read _ _ (.comma :: (memberLexemes (m' :: ms) ++ ts)) = _
      rw [read_cons]
      change read (.name ((key, n) :: done)) frames (memberLexemes (m' :: ms) ++ ts) = _
      rw [ih hm' hms]
      simp
    · simp

/-- **The reader makes a whole tree of its lexemes.** -/
theorem read_lexemes {n : Node} (h : Whole n) : IsRead n := by
  induction h with
  | null | bool | number => exact fun frames ts => read_cons _ _ _ _
  | @string l h =>
    intro frames ts
    have hstep : step (some (.string l)) frames .value = deliver (.string l) frames := by
      rw [step, stepValue, h]
      rfl
    rw [lexemes, List.singleton_append, read_cons, hstep]
  | @array items h ih =>
    intro frames ts
    rw [lexemes, List.cons_append, read_cons]
    change read .firstItem frames (itemLexemes items ++ ts) = _
    cases items with
    | nil => exact read_cons _ _ _ _
    | cons n items =>
      obtain ⟨hn, hitems⟩ := List.forall_mem_cons.mp ih
      rw [read_item (Or.inr ⟨rfl, rfl⟩), read_itemLexemes hn hitems]
      rfl
  | @object ms hkeys h ih =>
    intro frames ts
    rw [lexemes, List.cons_append, read_cons]
    change read .firstName frames (memberLexemes ms ++ ts) = _
    cases ms with
    | nil => exact read_cons _ _ _ _
    | cons m ms =>
      obtain ⟨hm, hms⟩ := List.forall_mem_cons.mp
        fun m hm => (⟨hkeys m hm, ih m hm⟩ : m.1.blocked = none ∧ IsRead m.2)
      rw [read_firstName, read_memberLexemes hm hms]
      rfl

/-! ### Trees that end too early -/

theorem not_whole_broken (f : TextFault) : ¬ Whole (.broken f) := by
  intro h
  cases h

theorem not_whole_array (items : List Node) (f : TextFault) : ¬ Whole (.array items (some f)) := by
  intro h
  cases h

theorem not_whole_object (ms : List (Literal × Node)) (f : TextFault) :
    ¬ Whole (.object ms (some f)) := by
  intro h
  cases h

theorem not_whole_member {key : Literal} {n : Node} (hn : ¬ Whole n) (ms : List (Literal × Node)) :
    ¬ Whole (.object ((key, n) :: ms).reverse none) := by
  intro h
  cases h with
  | object _ h => exact hn (h (key, n) (by simp))

theorem not_whole_abandon {n : Node} (hn : ¬ Whole n) (frames : List Frame) :
    ¬ Whole (abandon n frames) := by
  induction frames generalizing n with
  | nil => exact hn
  | cons f frames ih =>
    cases f with
    | array items =>
      refine ih fun h => ?_
      cases h with
      | array h => exact hn (h n (by simp))
    | object ms key => exact ih (not_whole_member hn ms)

/-! ### From trees to lexemes -/

/-- The lexemes of items with others behind them; the last item comes first. -/
def itemsBefore (items : List Node) : List Token :=
  items.reverse.flatMap fun n => lexemes n ++ [.comma]

/-- The same of members. -/
def membersBefore (ms : List (Literal × Node)) : List Token :=
  ms.reverse.flatMap fun m => .string m.1 :: .colon :: (lexemes m.2 ++ [.comma])

theorem itemLexemes_append (items : List Node) (n : Node) : itemLexemes (items ++ [n]) =
    (items.flatMap fun n => lexemes n ++ [.comma]) ++ (lexemes n ++ [.closeArray]) := by
  induction items with
  | nil => rfl
  | cons m items ih =>
    rw [List.cons_append, itemLexemes, ih, List.flatMap_cons]
    · simp
    · simp

theorem memberLexemes_append (ms : List (Literal × Node)) (key : Literal) (n : Node) :
    memberLexemes (ms ++ [(key, n)]) =
      (ms.flatMap fun m => .string m.1 :: .colon :: (lexemes m.2 ++ [.comma])) ++
        (.string key :: .colon :: (lexemes n ++ [.closeObject])) := by
  induction ms with
  | nil => rfl
  | cons m ms ih =>
    obtain ⟨key', n'⟩ := m
    rw [List.cons_append, memberLexemes, ih, List.flatMap_cons]
    · simp
    · simp

/-- The tokens that an open container has taken. -/
def frameTaken : Frame → List Token
  | .array items => .openArray :: itemsBefore items
  | .object ms key => .openObject :: (membersBefore ms ++ [.string key, .colon])

/-- The tokens that the innermost container has taken at a place. -/
def placeTaken : Place → List Token
  | .value => []
  | .firstItem | .afterItem [] => [.openArray]
  | .item items => .openArray :: itemsBefore items
  | .afterItem (n :: items) => .openArray :: (itemsBefore items ++ lexemes n)
  | .firstName | .afterMember [] => [.openObject]
  | .name ms => .openObject :: membersBefore ms
  | .colon ms key => .openObject :: (membersBefore ms ++ [.string key])
  | .afterMember ((key, n) :: ms) =>
    .openObject :: (membersBefore ms ++ .string key :: .colon :: lexemes n)

/-- The tokens that all open containers have taken, the innermost of which comes first. -/
def framesTaken (frames : List Frame) : List Token := frames.reverse.flatMap frameTaken

/-- Behind an item stands at least this one. -/
def Started : Place → Prop
  | .afterItem items => items ≠ []
  | .afterMember ms => ms ≠ []
  | _ => True

/-- What a step leads to accounts for these tokens, unless the tree ends before its text does: then
it cannot be passed over. -/
def Accounts (taken : List Token) : Step → Prop
  | .more place frames => Started place ∧ framesTaken frames ++ placeTaken place = taken
  | .complete n => lexemes n = taken
  | .stopped n => ¬ Whole n

theorem framesTaken_cons (f : Frame) (frames : List Frame) :
    framesTaken (f :: frames) = framesTaken frames ++ frameTaken f := by
  simp [framesTaken]

section Steps

variable {taken : List Token} {frames : List Frame}

theorem accounts_deliver {n : Node} (h : framesTaken frames ++ lexemes n = taken) :
    Accounts taken (deliver n frames) := by
  subst h
  cases frames with
  | nil => rfl
  | cons f frames =>
    rw [framesTaken_cons]
    cases f <;> exact ⟨List.cons_ne_nil _ _, by simp [placeTaken, frameTaken]⟩

theorem accounts_stepValue (t : Token) (frames : List Frame) :
    Accounts (framesTaken frames ++ [t]) (stepValue frames (some t)) := by
  unfold stepValue
  cases t with
  | openArray | openObject => exact ⟨trivial, rfl⟩
  | null | bool | number => exact accounts_deliver rfl
  | string l =>
    dsimp only
    split_ifs with hblocked
    · refine not_whole_abandon (fun h => ?_) frames
      cases h with
      | string h => simp [h] at hblocked
    · exact accounts_deliver rfl
  | closeArray | closeObject | comma | colon | broken =>
    exact not_whole_abandon (not_whole_broken _) frames

theorem accounts_stepName {ms : List (Literal × Node)} (key : Literal)
    (h : framesTaken frames ++ .openObject :: membersBefore ms = taken) :
    Accounts (taken ++ [.string key]) (stepName ms frames key) := by
  unfold stepName
  split
  · exact not_whole_abandon (not_whole_member (not_whole_broken _) ms) frames
  · exact ⟨trivial, by simp [placeTaken, ← h]⟩

/-- **One step takes one token**, which the open containers or the tree account for. -/
theorem accounts_step {place : Place} (h : Started place) (t : Token) (frames : List Frame) :
    Accounts (framesTaken frames ++ placeTaken place ++ [t]) (step (some t) frames place) := by
  have hitem : ∀ items, Accounts (framesTaken frames ++ .openArray :: itemsBefore items ++ [t])
      (stepValue (.array items :: frames) (some t)) := by
    intro items
    have hvalue := accounts_stepValue t (.array items :: frames)
    rwa [framesTaken_cons] at hvalue
  have harray : ∀ items f, ¬ Whole (abandon (.array items (some f)) frames) :=
    fun items f => not_whole_abandon (not_whole_array items f) frames
  have hobject : ∀ ms f, ¬ Whole (abandon (.object ms (some f)) frames) :=
    fun ms f => not_whole_abandon (not_whole_object ms f) frames
  cases place with
  | value =>
    rw [placeTaken, List.append_nil]
    exact accounts_stepValue t frames
  | firstItem =>
    cases t with
    | closeArray => exact accounts_deliver (by simp [lexemes, itemLexemes, placeTaken])
    | _ => exact hitem []
  | item items =>
    cases t with
    | closeArray => exact harray _ _
    | _ => exact hitem items
  | afterItem items =>
    obtain ⟨n, items, rfl⟩ := List.exists_cons_of_ne_nil h
    cases t with
    | comma => exact ⟨trivial, by simp [placeTaken, itemsBefore]⟩
    | closeArray =>
      refine accounts_deliver ?_
      rw [lexemes, List.reverse_cons, itemLexemes_append]
      simp [placeTaken, itemsBefore]
    | _ => exact harray _ _
  | firstName =>
    cases t with
    | string key => exact accounts_stepName key rfl
    | closeObject => exact accounts_deliver (by simp [lexemes, memberLexemes, placeTaken])
    | _ => exact hobject _ _
  | name ms =>
    cases t with
    | string key => exact accounts_stepName key rfl
    | _ => exact hobject _ _
  | colon ms key =>
    cases t with
    | colon => exact ⟨trivial, by simp [placeTaken, framesTaken_cons, frameTaken]⟩
    | _ => exact not_whole_abandon (not_whole_member (not_whole_broken _) ms) frames
  | afterMember ms =>
    obtain ⟨⟨key, n⟩, ms, rfl⟩ := List.exists_cons_of_ne_nil h
    cases t with
    | comma => exact ⟨trivial, by simp [placeTaken, membersBefore]⟩
    | closeObject =>
      refine accounts_deliver ?_
      rw [lexemes, List.reverse_cons, memberLexemes_append]
      simp [placeTaken, membersBefore]
    | _ => exact hobject _ _

theorem stopped_of_none (frames : List Frame) (place : Place) :
    ∃ n, step none frames place = .stopped n ∧ ¬ Whole n := by
  cases place with
  | value => exact ⟨_, rfl, not_whole_abandon (not_whole_broken _) _⟩
  | item items => exact ⟨_, rfl, not_whole_abandon (not_whole_broken _) _⟩
  | firstItem | afterItem => exact ⟨_, rfl, not_whole_abandon (not_whole_array _ _) _⟩
  | firstName | name | afterMember => exact ⟨_, rfl, not_whole_abandon (not_whole_object _ _) _⟩
  | colon ms key => exact ⟨_, rfl, not_whole_abandon (not_whole_member (not_whole_broken _) ms) _⟩

end Steps

/-- **The tokens of a whole tree are its lexemes.** -/
theorem lexemes_of_read {ts : List Token} {place : Place} {frames : List Frame} {n : Node}
    (hn : Whole n) (hplace : Started place) (h : read place frames ts = (n, false)) :
    lexemes n = framesTaken frames ++ placeTaken place ++ ts := by
  induction ts generalizing place frames with
  | nil =>
    obtain ⟨n', hstep, hbroken⟩ := stopped_of_none frames place
    rw [Node.read, hstep] at h
    cases h
    exact absurd hn hbroken
  | cons t ts ih =>
    have haccounts := accounts_step hplace t frames
    rw [read_cons] at h
    cases hstep : step (some t) frames place with
    | more place' frames' =>
      rw [hstep] at h haccounts
      obtain ⟨hplace', htaken⟩ := haccounts
      rw [ih hplace' h, htaken, List.append_assoc, List.singleton_append]
    | complete n' =>
      rw [hstep] at h haccounts
      cases ts with
      | nil =>
        cases h
        exact haccounts
      | cons t' ts => cases h
    | stopped n' =>
      rw [hstep] at h haccounts
      cases h
      exact absurd hn haccounts

/-- **A text is a document of a whole tree** exactly if its tokens are the lexemes of the tree. -/
theorem ofBytes_iff_lex {n : Node} (hn : Whole n) {bytes : List UInt8} :
    Document.ofBytes bytes = ⟨n, false⟩ ↔ Lexer.lex bytes = lexemes n := by
  have hread : Document.ofBytes bytes = ⟨n, false⟩ ↔
      read .value [] (Lexer.lex bytes) = (n, false) := by
    rw [Document.ofBytes]
    cases read .value [] (Lexer.lex bytes) with
    | mk root trailing => simp
  rw [hread]
  constructor
  · intro h
    have hstart : Started .value := trivial
    exact (lexemes_of_read hn hstart h).symm
  · intro h
    have hlexemes := read_lexemes hn [] []
    rw [List.append_nil] at hlexemes
    rw [h, hlexemes]
    rfl

end TokenGate.Proofs.Json.Grammar
