import TokenGate.Proofs.Json.Grammar
import TokenGate.Proofs.Json.Literals
import TokenGate.Proofs.Json.PrintedNumbers

/-! # Printed values

A value that was printed is lexed into the lexemes of its tree (`lex_chars`), and so it is read back
(`ofText_render`). -/

/-! ## Tokens of a printed value

A printed value is lexed into the lexemes of its tree (`lex_chars`), whatever follows that ends a
value. The tree has the literal of each string, and each number as its numeral is read (`reading`).
An integer of 64 bits, with a sign or without, is read as itself (`reading_int`); in a value that is
`Exact`, all numbers are. -/

namespace TokenGate.Proofs.Json.PrintedTokens

open TokenGate.Json TokenGate.Text.Utf8 TokenGate.Proofs.Results
open TokenGate.Proofs.Text.Digits TokenGate.Proofs.Text.Utf8
open TokenGate.Proofs.Json.Grammar TokenGate.Proofs.Json.Literals TokenGate.Proofs.Json.Numerals
open TokenGate.Proofs.Json.PrintedNumbers

/-- A value whose text says all of it: its numbers are integers of 64 bits, and no more than a
number of containers stand inside each other. -/
inductive Exact : Nat → Json → Prop
  | null {depth : Nat} : Exact depth .null
  | bool {depth : Nat} (b : Bool) : Exact depth (.bool b)
  | int {depth : Nat} {z : Int} (h : -9223372036854775808 ≤ z ∧ z ≤ 18446744073709551615) :
    Exact depth (.int z)
  | string {depth : Nat} (s : String) : Exact depth (.string s)
  | array {depth : Nat} {items : List Json} (h : ∀ v ∈ items, Exact depth v) :
    Exact (depth + 1) (.array items)
  | object {depth : Nat} {ms : List (String × Json)} (h : ∀ m ∈ ms, Exact depth m.2) :
    Exact (depth + 1) (.object ms)

theorem exact_strings {depth : Nat} (ss : List String) : Exact (depth + 1) (.strings ss) := by
  refine .array fun v hv => ?_
  obtain ⟨s, -, rfl⟩ := List.mem_map.mp hv
  exact .string s

/-! ### Trees of values -/

/-- Induction over values, with one hypothesis for all items of an array or members of an object. -/
theorem json_induction {P : Json → Prop} (null : P .null) (bool : ∀ b, P (.bool b))
    (number : ∀ n, P (.number n)) (string : ∀ s, P (.string s))
    (array : ∀ items, (∀ v ∈ items, P v) → P (.array items))
    (object : ∀ ms, (∀ m ∈ ms, P m.2) → P (.object ms)) (v : Json) : P v :=
  @Json.rec P (fun items => ∀ v ∈ items, P v) (fun ms => ∀ m ∈ ms, P m.2) (fun m => P m.2)
    null bool number string array object
    (by simp) (fun _ _ hv hitems => List.forall_mem_cons.mpr ⟨hv, hitems⟩)
    (by simp) (fun _ _ hm hms => List.forall_mem_cons.mpr ⟨hm, hms⟩)
    (fun _ _ hv => hv) v

/-- The literal of a text. -/
def literal (s : String) : Literal := ⟨.ok s, none⟩

/-- A number as it is read from its numeral. -/
def reading (n : Number) : Except TextFault Number :=
  match Lexer.lex (encodeChars n.render) with
  | [.number r] => r
  | _ => .error .invalidNumber

mutual

/-- The tree of a value. -/
def tree : Json → Node
  | .null => .null
  | .bool b => .bool b
  | .number n => .number (reading n)
  | .string s => .string (literal s)
  | .array items => .array (trees items) none
  | .object ms => .object (memberTrees ms) none

/-- The trees of some values. -/
def trees : List Json → List Node
  | [] => []
  | v :: rest => tree v :: trees rest

/-- The trees of the members of an object. -/
def memberTrees : List (String × Json) → List (Literal × Node)
  | [] => []
  | (n, v) :: rest => (literal n, tree v) :: memberTrees rest

end

theorem trees_eq_map (items : List Json) : trees items = items.map tree := by
  induction items with
  | nil => rfl
  | cons v items ih => rw [trees, ih, List.map_cons]

theorem memberTrees_eq_map (ms : List (String × Json)) :
    memberTrees ms = ms.map fun m => (literal m.1, tree m.2) := by
  induction ms with
  | nil => rfl
  | cons m ms ih => rw [memberTrees, ih, List.map_cons]

theorem whole_tree (v : Json) : Whole (tree v) := by
  induction v using json_induction with
  | null => exact .null
  | bool b => exact .bool b
  | number n => exact .number _
  | string s => exact .string rfl
  | array items ih =>
    refine .array fun n hn => ?_
    rw [trees_eq_map] at hn
    obtain ⟨v, hv, rfl⟩ := List.mem_map.mp hn
    exact ih v hv
  | object ms ih =>
    rw [tree, memberTrees_eq_map]
    refine .object (fun m hm => ?_) fun m hm => ?_
    · obtain ⟨_, -, rfl⟩ := List.mem_map.mp hm
      rfl
    · obtain ⟨m', hm', rfl⟩ := List.mem_map.mp hm
      exact ih m' hm'

/-! ### Lexing -/

theorem lex_cons {b : UInt8} (h : Lexer.isBlank b = false) (rest : List UInt8) :
    Lexer.lex (b :: rest) = (Lexer.next b rest).1 :: Lexer.lex (Lexer.next b rest).2 := by
  rw [Lexer.lex, if_neg (by simp [h])]

theorem lex_mark {b : UInt8} {token : Token} (h : Lexer.mark? b = some token)
    (hb : Lexer.isBlank b = false) (rest : List UInt8) :
    Lexer.lex (b :: rest) = token :: Lexer.lex rest := by
  rw [lex_cons hb, Lexer.next, h]

theorem lex_quoted (s : String) (rest : List UInt8) :
    Lexer.lex (encodeChars (quoted s) ++ rest) = .string (literal s) :: Lexer.lex rest := by
  have hchars : encodeChars (quoted s) ++ rest =
      0x22 :: (encodeChars (s.toList.flatMap escape) ++ 0x22 :: rest) := by
    rw [quoted, List.cons_append, encodeChars_cons, encodeChars_append, List.append_assoc,
      List.append_assoc]
    rfl
  have hnext : Lexer.next 0x22 (encodeChars (s.toList.flatMap escape) ++ 0x22 :: rest) =
      (.string (literal s), rest) := by
    have hmark : Lexer.mark? 0x22 = none := by decide
    rw [Lexer.next, hmark]
    dsimp only
    rw [if_pos rfl, scan_quoted]
    rfl
  rw [hchars, lex_cons rfl, hnext]

theorem next_digit {b : UInt8} (h : Numeral.isDigit b = true) (rest : List UInt8) :
    Lexer.next b rest = Lexer.numeral false (b :: rest) := by
  obtain ⟨hlow, hhigh⟩ := between_iff.mp h
  have hne : ∀ k : UInt8, k.toNat < 48 ∨ 57 < k.toNat → b ≠ k := by
    rintro k hk rfl
    simp at hlow hhigh
    omega
  have hmark : Lexer.mark? b = none := by
    rw [Lexer.mark?, if_neg (hne _ (by decide)), if_neg (hne _ (by decide)),
      if_neg (hne _ (by decide)), if_neg (hne _ (by decide)), if_neg (hne _ (by decide)),
      if_neg (hne _ (by decide))]
  rw [Lexer.next, hmark]
  dsimp only
  rw [if_neg (hne _ (by decide)), if_neg (hne _ (by decide)), if_neg (hne _ (by decide)),
    if_neg (hne _ (by decide)), if_neg (hne _ (by decide)), if_pos h]

/-! ### Numbers -/

theorem isBlank_of_isDigit {b : UInt8} (h : Numeral.isDigit b = true) : Lexer.isBlank b = false := by
  obtain ⟨hlow, hhigh⟩ := between_iff.mp h
  simp [Lexer.isBlank, ← UInt8.toNat_inj]
  simp at hlow hhigh
  omega

theorem lex_unsigned {bs rest : List UInt8} (hbs : IsUnsigned bs) {parts : Numeral.Parts}
    (h : Numeral.scan false (bs ++ rest) = .ok (parts, rest)) :
    Lexer.lex (bs ++ rest) = .number parts.value :: Lexer.lex rest := by
  obtain ⟨b, ds, rfl, hb⟩ := exists_digit_of_isUnsigned hbs
  rw [List.cons_append] at h ⊢
  rw [lex_cons (isBlank_of_isDigit hb), next_digit hb, Lexer.numeral, h]

theorem lex_negative {bs rest : List UInt8} {parts : Numeral.Parts}
    (h : Numeral.scan true (bs ++ rest) = .ok (parts, rest)) :
    Lexer.lex (0x2D :: (bs ++ rest)) = .number parts.value :: Lexer.lex rest := by
  have hnext : Lexer.next 0x2D (bs ++ rest) = Lexer.numeral true (bs ++ rest) := rfl
  rw [lex_cons rfl, hnext, Lexer.numeral, h]

/-- **A numeral is lexed into a number**, whatever follows that ends a value. -/
theorem lex_numeral {bs : List UInt8} (h : IsNumeral bs) : ∃ r, ∀ rest, Ends rest →
    Lexer.lex (bs ++ rest) = .number r :: Lexer.lex rest := by
  cases h with
  | unsigned h =>
    obtain ⟨parts, hscan⟩ := scan_of_isUnsigned false h
    exact ⟨parts.value, fun rest hrest => lex_unsigned h (hscan rest hrest)⟩
  | negative h =>
    obtain ⟨parts, hscan⟩ := scan_of_isUnsigned true h
    exact ⟨parts.value, fun rest hrest => lex_negative (hscan rest hrest)⟩

theorem ends_nil : Ends [] := by
  rintro _ ⟨⟩

theorem lex_number (n : Number) {rest : List UInt8} (hrest : Ends rest) :
    Lexer.lex (encodeChars n.render ++ rest) = .number (reading n) :: Lexer.lex rest := by
  obtain ⟨r, hr⟩ := lex_numeral (isNumeral_render n)
  have hreading : reading n = r := by
    have hnil := hr [] ends_nil
    rw [List.append_nil, Lexer.lex] at hnil
    rw [reading, hnil]
  rw [hr rest hrest, hreading]

/-- **An integer of 64 bits is read as itself.** -/
theorem reading_int {z : Int} (h : -9223372036854775808 ≤ z ∧ z ≤ 18446744073709551615) :
    reading (.int z) = .ok (.int z) := by
  have hlex : Lexer.lex (encodeChars (toString z).toList ++ []) =
      .number (.ok (.int z)) :: Lexer.lex [] := by
    rw [Int.toString_eq_repr, Int.repr_eq_if]
    split_ifs with hz
    · obtain ⟨n, rfl⟩ := Int.eq_ofNat_of_zero_le hz
      rw [Int.toNat_natCast, Nat.toList_repr,
        lex_unsigned (isUnsigned_of_isWhole (isWhole_toDigits n)) (scan_toDigits false n ends_nil),
        value_of_natural (by unfold Numeral.maxNatural; omega)]
    · obtain ⟨n, rfl⟩ : ∃ n : Nat, z = -n := ⟨(-z).toNat, by omega⟩
      have hchars : encodeChars ("-".toList ++ Nat.toDigits 10 n) ++ [] =
          0x2D :: (encodeChars (Nat.toDigits 10 n) ++ []) := rfl
      rw [Int.neg_neg, Int.toNat_natCast, String.toList_append, Nat.toList_repr, hchars,
        lex_negative (scan_toDigits true n ends_nil), value_of_negative (by omega) (by omega)]
  rw [List.append_nil, Lexer.lex] at hlex
  rw [reading, Number.render, hlex]

/-! ### Whole values -/

/-- A value is lexed into the lexemes of its tree. -/
def IsLexed (v : Json) : Prop := ∀ rest, Ends rest →
  Lexer.lex (encodeChars v.chars ++ rest) = lexemes (tree v) ++ Lexer.lex rest

theorem ends_mark {b : UInt8} (h : b = 0x2C ∨ b = 0x5D ∨ b = 0x7D) (rest : List UInt8) :
    Ends (b :: rest) := by
  rintro _ ⟨⟩
  exact h

theorem encodeChars_mark {c : Char} {b : UInt8} (h : encodeChar c = [b]) (cs : List Char)
    (rest : List UInt8) : encodeChars (c :: cs) ++ rest = b :: (encodeChars cs ++ rest) := by
  rw [encodeChars_cons, h]
  rfl

theorem lex_itemChars {items : List Json} (h : ∀ v ∈ items, IsLexed v) (rest : List UInt8) :
    Lexer.lex (encodeChars (itemChars items) ++ rest) =
      itemLexemes (trees items) ++ Lexer.lex rest := by
  induction items with
  | nil => exact lex_mark rfl rfl rest
  | cons v items ih =>
    obtain ⟨hv, hitems⟩ := List.forall_mem_cons.mp h
    cases items with
    | nil =>
      rw [itemChars, trees, trees, itemLexemes, encodeChars_append, List.append_assoc,
        List.append_assoc, encodeChars_mark rfl, hv _ (ends_mark (by decide) _), lex_mark rfl rfl]
      rfl
    | cons w items =>
      rw [itemChars, trees, itemLexemes, encodeChars_append, List.append_assoc, List.append_assoc,
        encodeChars_mark rfl, hv _ (ends_mark (by decide) _), lex_mark rfl rfl, ih hitems]
      · rfl
      · simp [trees]
      · simp

theorem lex_member (n : String) {v : Json} (hv : IsLexed v) {rest : List UInt8} (hrest : Ends rest) :
    Lexer.lex (encodeChars (quoted n ++ ':' :: v.chars) ++ rest) =
      .string (literal n) :: .colon :: (lexemes (tree v) ++ Lexer.lex rest) := by
  rw [encodeChars_append, List.append_assoc, encodeChars_mark rfl, lex_quoted, lex_mark rfl rfl,
    hv _ hrest]

theorem lex_memberChars {ms : List (String × Json)} (h : ∀ m ∈ ms, IsLexed m.2) (rest : List UInt8) :
    Lexer.lex (encodeChars (memberChars ms) ++ rest) =
      memberLexemes (memberTrees ms) ++ Lexer.lex rest := by
  induction ms with
  | nil => exact lex_mark rfl rfl rest
  | cons m ms ih =>
    obtain ⟨n, v⟩ := m
    obtain ⟨hv, hms⟩ := List.forall_mem_cons.mp h
    cases ms with
    | nil =>
      rw [memberChars, memberTrees, memberTrees, memberLexemes, encodeChars_append,
        List.append_assoc, encodeChars_mark rfl, lex_member n hv (ends_mark (by decide) _),
        lex_mark rfl rfl]
      simp [encodeChars]
    | cons m ms =>
      rw [memberChars, memberTrees, memberLexemes, encodeChars_append, List.append_assoc,
        encodeChars_mark rfl, lex_member n hv (ends_mark (by decide) _), lex_mark rfl rfl, ih hms]
      · simp
      · simp [memberTrees]
      · simp

/-- **A printed value is lexed into the lexemes of its tree.** -/
theorem lex_chars (v : Json) : IsLexed v := by
  induction v using json_induction with
  | null =>
    intro rest _
    exact lex_cons rfl _
  | bool b =>
    intro rest _
    cases b <;> exact lex_cons rfl _
  | number n => exact fun rest hrest => lex_number n hrest
  | string s => exact fun rest _ => lex_quoted s rest
  | array items ih =>
    intro rest _
    rw [chars, encodeChars_mark rfl, lex_mark rfl rfl, lex_itemChars ih]
    rfl
  | object ms ih =>
    intro rest _
    rw [chars, encodeChars_mark rfl, lex_mark rfl rfl, lex_memberChars ih]
    rfl

end TokenGate.Proofs.Json.PrintedTokens

/-! ## Values that are read back

The reader makes of a printed value the tree of the value (`ofBytes_render`). The value of the tree
is the value that was printed, if the text says all of it, with the members of its objects in the
order of a reader (`value_tree`). So such a value is read back from its text (`ofText_render`). -/

namespace TokenGate.Proofs.Json.Printed

open TokenGate.Json TokenGate.Json.Node TokenGate.Text.Utf8 TokenGate.Proofs.Results
open TokenGate.Proofs.Json.Entries TokenGate.Proofs.Json.Grammar TokenGate.Proofs.Json.PrintedTokens

/-! ### Values as they are read -/

mutual

/-- A value with the members of its objects as they are read. -/
def canonical : Json → Json
  | .array items => .array (canonicals items)
  | .object ms => .object (sorted (canonicalMembers ms))
  | v => v

/-- The same of some values. -/
def canonicals : List Json → List Json
  | [] => []
  | v :: rest => canonical v :: canonicals rest

/-- The same of the members of an object. -/
def canonicalMembers : List (String × Json) → List (String × Json)
  | [] => []
  | (n, v) :: rest => (n, canonical v) :: canonicalMembers rest

end

theorem canonical_strings (ss : List String) : canonical (.strings ss) = .strings ss := by
  rw [Json.strings, canonical]
  congr 1
  induction ss with
  | nil => rfl
  | cons s ss ih => rw [List.map_cons, canonicals, ih]; rfl

theorem canonicalMembers_append (ms ms' : List (String × Json)) :
    canonicalMembers (ms ++ ms') = canonicalMembers ms ++ canonicalMembers ms' := by
  induction ms with
  | nil => rfl
  | cons m ms ih => rw [List.cons_append, canonicalMembers, canonicalMembers, ih, List.cons_append]

/-! ### Values -/

theorem values_trees {depth : Nat} {items : List Json}
    (h : ∀ v ∈ items, (tree v).value depth = .ok (canonical v)) :
    values depth (trees items) = .ok (canonicals items) := by
  induction items with
  | nil => rfl
  | cons v items ih =>
    obtain ⟨hv, hitems⟩ := List.forall_mem_cons.mp h
    rw [trees, values, hv, ok_bind, ih hitems]
    rfl

theorem memberValues_memberTrees {depth : Nat} {ms : List (String × Json)}
    (h : ∀ m ∈ ms, (tree m.2).value depth = .ok (canonical m.2)) :
    memberValues depth (memberTrees ms) = .ok (canonicalMembers ms) := by
  induction ms with
  | nil => rfl
  | cons m ms ih =>
    obtain ⟨hm, hms⟩ := List.forall_mem_cons.mp h
    rw [memberTrees, memberValues, literal, ok_bind, hm, ok_bind, ih hms]
    rfl

/-- **The value of a value's tree** is the value. -/
theorem value_tree {depth : Nat} {v : Json} (h : Exact depth v) :
    (tree v).value depth = .ok (canonical v) := by
  induction h with
  | null | bool | string => cases ‹Nat› <;> rfl
  | int h =>
    rw [Json.int, tree, Node.value, reading_int h]
    rfl
  | array h ih =>
    rw [tree, Node.value, values_trees ih]
    rfl
  | object h ih =>
    rw [tree, Node.value, memberValues_memberTrees ih]
    rfl

/-! ### Texts -/

/-- **A printed value is a document** with nothing behind it. -/
theorem ofBytes_render (v : Json) : Document.ofBytes (encode v.render) = ⟨tree v, false⟩ := by
  have hlex := lex_chars v [] ends_nil
  rw [List.append_nil, Lexer.lex, List.append_nil] at hlex
  rw [ofBytes_iff_lex (whole_tree v), encode, Json.render, String.toList_ofList, hlex]

/-- **A printed value is read back from its text.** -/
theorem ofText_render {v : Json} (h : Exact depthLimit v) : Json.ofText v.render = .ok (canonical v) := by
  rw [Json.ofText, ofBytes_eq_ok, ofBytes_render v]
  exact ⟨value_tree h, rfl⟩

end TokenGate.Proofs.Json.Printed
