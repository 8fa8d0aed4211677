import TokenGate.Proofs.Json.Grammar
import TokenGate.Proofs.Json.Literals
import TokenGate.Proofs.Json.Numerals

/-! # Lexemes of a text

A text spells some tokens if it consists of their lexemes, in order, with blanks before, between and
behind them (`Spells`). The lexemes are the six marks, the three words, numerals and literals. A
text whose tokens can all be passed over spells its tokens (`spells_lex`). The lexemes of a whole
tree are such tokens, so the text of a whole tree spells the lexemes of the tree
(`spells_of_document`). -/

namespace TokenGate.Proofs.Json.Lexemes

open TokenGate.Json TokenGate.Proofs.Json.Grammar TokenGate.Proofs.Json.Literals
open TokenGate.Proofs.Json.Numerals

/-- How a token is written. -/
inductive IsLexeme : Token → List UInt8 → Prop
  | mark {b : UInt8} {t : Token} (h : Lexer.mark? b = some t) : IsLexeme t [b]
  | null : IsLexeme .null [0x6E, 0x75, 0x6C, 0x6C]
  | true : IsLexeme (.bool true) [0x74, 0x72, 0x75, 0x65]
  | false : IsLexeme (.bool false) [0x66, 0x61, 0x6C, 0x73, 0x65]
  | number (r : Except TextFault Number) {bs : List UInt8} (h : IsNumeral bs) : IsLexeme (.number r) bs
  | string {l : Literal} {bs : List UInt8} (h : IsLiteral l bs) : IsLexeme (.string l) bs

/-- Octets that may stand between lexemes. -/
def AreBlank (bs : List UInt8) : Prop := ∀ b ∈ bs, Lexer.isBlank b = true

/-- A text consists of the lexemes of some tokens and of blanks. -/
inductive Spells : List Token → List UInt8 → Prop
  | nil {blanks : List UInt8} (h : AreBlank blanks) : Spells [] blanks
  | cons {t : Token} {ts : List Token} {blanks front rest : List UInt8} (h : AreBlank blanks)
    (ht : IsLexeme t front) (hts : Spells ts rest) : Spells (t :: ts) (blanks ++ (front ++ rest))

/-- A token that a reader can pass over. -/
def Passable : Token → Prop
  | .broken _ => False
  | .string l => l.blocked = none
  | _ => True

/-! ### One lexeme -/

theorem eq_append_of_word {token : Token} {cs bs : List UInt8}
    (h : Passable (Lexer.word token cs bs).1) :
    (Lexer.word token cs bs).1 = token ∧ bs = cs ++ (Lexer.word token cs bs).2 := by
  fun_induction Lexer.word token cs bs with
  | case1 rest => exact ⟨rfl, rfl⟩
  | case3 cs b rest ih =>
    obtain ⟨htoken, hrest⟩ := ih h
    exact ⟨htoken, congrArg (b :: ·) hrest⟩
  | case2 | case4 => exact h.elim

theorem isLexeme_of_word {token : Token} {b : UInt8} {cs rest : List UInt8}
    (htoken : IsLexeme token (b :: cs)) (h : Passable (Lexer.word token cs rest).1) :
    ∃ front, IsLexeme (Lexer.word token cs rest).1 front ∧
      b :: rest = front ++ (Lexer.word token cs rest).2 := by
  obtain ⟨htoken', hrest⟩ := eq_append_of_word h
  rw [htoken']
  exact ⟨b :: cs, htoken, congrArg (b :: ·) hrest⟩

/-- A number is taken for a numeral, of which a minus sign in front is gone already. -/
theorem isUnsigned_of_numeral {negative : Bool} {bs : List UInt8}
    (h : Passable (Lexer.numeral negative bs).1) :
    ∃ r front, (Lexer.numeral negative bs).1 = .number r ∧ IsUnsigned front ∧
      bs = front ++ (Lexer.numeral negative bs).2 := by
  unfold Lexer.numeral at h ⊢
  split at h
  · rename_i parts rest hscan
    obtain ⟨front, hfront, hbs⟩ := isUnsigned_of_scan hscan
    exact ⟨_, front, rfl, hfront, hbs⟩
  · exact h.elim

/-- **The token that comes next is read from its lexeme**, and from no more. -/
theorem isLexeme_of_next {b : UInt8} {rest : List UInt8} (h : Passable (Lexer.next b rest).1) :
    ∃ front, IsLexeme (Lexer.next b rest).1 front ∧ b :: rest = front ++ (Lexer.next b rest).2 := by
  unfold Lexer.next at h ⊢
  split
  · rename_i token hmark
    exact ⟨[b], .mark hmark, rfl⟩
  · rename_i hmark
    rw [hmark] at h
    dsimp only at h ⊢
    split_ifs at h ⊢ with hquote hn ht hf hminus hdigit
    · subst hquote
      obtain ⟨front, hfront, hrest⟩ := isLiteral_of_scan h
      exact ⟨_, .string hfront, congrArg (0x22 :: ·) hrest⟩
    · subst hn
      exact isLexeme_of_word .null h
    · subst ht
      exact isLexeme_of_word .true h
    · subst hf
      exact isLexeme_of_word .false h
    · subst hminus
      obtain ⟨r, front, hr, hfront, hrest⟩ := isUnsigned_of_numeral h
      rw [hr]
      exact ⟨_, .number r (.negative hfront), congrArg (0x2D :: ·) hrest⟩
    · obtain ⟨r, front, hr, hfront, hrest⟩ := isUnsigned_of_numeral h
      rw [hr]
      exact ⟨_, .number r (.unsigned hfront), hrest⟩
    · exact h.elim

/-! ### Whole texts -/

theorem spells_blank {b : UInt8} (hb : Lexer.isBlank b = true) {ts : List Token} {bs : List UInt8}
    (h : Spells ts bs) : Spells ts (b :: bs) := by
  cases h with
  | nil h => exact .nil (List.forall_mem_cons.mpr ⟨hb, h⟩)
  | cons h ht hts => exact .cons (List.forall_mem_cons.mpr ⟨hb, h⟩) ht hts

/-- **A text spells its tokens** if all of them can be passed over. -/
theorem spells_lex {bytes : List UInt8} (h : ∀ t ∈ Lexer.lex bytes, Passable t) :
    Spells (Lexer.lex bytes) bytes := by
  fun_induction Lexer.lex bytes with
  | case1 => exact .nil (by simp [AreBlank])
  | case2 b rest hb ih => exact spells_blank hb (ih h)
  | case3 b rest hb ih =>
    obtain ⟨hnext, hrest⟩ := List.forall_mem_cons.mp h
    obtain ⟨front, hfront, hbytes⟩ := isLexeme_of_next hnext
    have hnone : AreBlank [] := by simp [AreBlank]
    have hspells := Spells.cons hnone hfront (ih hrest)
    rwa [← hbytes] at hspells

/-! ### Trees -/

theorem passable_itemLexemes {items : List Node} (h : ∀ n ∈ items, ∀ t ∈ lexemes n, Passable t) :
    ∀ t ∈ itemLexemes items, Passable t := by
  induction items with
  | nil => simp [itemLexemes, Passable]
  | cons n items ih =>
    obtain ⟨hn, hitems⟩ := List.forall_mem_cons.mp h
    cases items with
    | nil =>
      rw [itemLexemes]
      exact List.forall_mem_append.mpr ⟨hn, by simp [Passable]⟩
    | cons m items =>
      rw [itemLexemes]
      · exact List.forall_mem_append.mpr ⟨hn, List.forall_mem_cons.mpr ⟨trivial, ih hitems⟩⟩
      · simp

theorem passable_memberLexemes {ms : List (Literal × Node)}
    (h : ∀ m ∈ ms, m.1.blocked = none ∧ ∀ t ∈ lexemes m.2, Passable t) :
    ∀ t ∈ memberLexemes ms, Passable t := by
  induction ms with
  | nil => simp [memberLexemes, Passable]
  | cons m ms ih =>
    obtain ⟨key, n⟩ := m
    obtain ⟨⟨hkey, hn⟩, hms⟩ := List.forall_mem_cons.mp h
    cases ms with
    | nil =>
      rw [memberLexemes]
      exact List.forall_mem_cons.mpr ⟨hkey, List.forall_mem_cons.mpr ⟨trivial,
        List.forall_mem_append.mpr ⟨hn, by simp [Passable]⟩⟩⟩
    | cons m' ms =>
      rw [memberLexemes]
      · exact List.forall_mem_cons.mpr ⟨hkey, List.forall_mem_cons.mpr ⟨trivial,
          List.forall_mem_append.mpr ⟨hn, List.forall_mem_cons.mpr ⟨trivial, ih hms⟩⟩⟩⟩
      · simp

theorem passable_lexemes {n : Node} (h : Whole n) : ∀ t ∈ lexemes n, Passable t := by
  induction h with
  | null | bool | number => simp [lexemes, Passable]
  | string h => simpa [lexemes, Passable] using h
  | array h ih => exact List.forall_mem_cons.mpr ⟨trivial, passable_itemLexemes ih⟩
  | object hkeys h ih =>
    exact List.forall_mem_cons.mpr
      ⟨trivial, passable_memberLexemes fun m hm => ⟨hkeys m hm, ih m hm⟩⟩

/-- **The text of a whole tree spells the lexemes of the tree.** -/
theorem spells_of_document {bytes : List UInt8} {n : Node} (hn : Whole n)
    (h : Document.ofBytes bytes = ⟨n, false⟩) : Spells (lexemes n) bytes := by
  have hlex := (ofBytes_iff_lex hn).mp h
  have hspells := @spells_lex bytes (hlex ▸ passable_lexemes hn)
  rwa [hlex] at hspells

end TokenGate.Proofs.Json.Lexemes
