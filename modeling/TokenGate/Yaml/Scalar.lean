import TokenGate.Text.Basic

/-!
# Scalars of YAML texts

A scalar is read from a place in a text. It is plain, in quotes, or a block of lines, and it may
have white space and line breaks inside, which are folded.
-/

/-!
## Cursors: places in a YAML text

A text is read character by character. A cursor holds what is left of it and where that starts.
Before the reading a byte order mark in front is dropped, and the line breaks that count as one line
feed are written so; of the other breaks the line and paragraph separators remain. A text with a
character that cannot be shown is not read at all.
-/

namespace TokenGate.Yaml

/-- Whether a character may stand in a text. -/
def isAllowed (c : Char) : Bool :=
  let n := c.toNat
  n = 0x09 || n = 0x0A || n = 0x0D || (0x20 ≤ n && n ≤ 0x7E) || n = 0x85
    || (0xA0 ≤ n && n ≤ 0xFFFD && n ≠ 0xFEFF) || 0x10000 ≤ n

/-- Writes line feed for the breaks that count as one. -/
def unifyBreaks : List Char → List Char
  | '\r' :: '\n' :: rest => '\n' :: unifyBreaks rest
  | '\r' :: rest => '\n' :: unifyBreaks rest
  | '\u0085' :: rest => '\n' :: unifyBreaks rest
  | c :: rest => c :: unifyBreaks rest
  | [] => []

/-- A text made ready for reading. -/
def prepare? (cs : List Char) : Option (List Char) :=
  let cs := match cs with
    | '\ufeff' :: rest => rest
    | cs => cs
  if cs.all isAllowed then some (unifyBreaks cs) else none

/-- A character between words. -/
def isBlank (c : Char) : Bool := c = ' ' || c = '\t'

/-- A character between lines. -/
def isBreak (c : Char) : Bool := c = '\n' || c = '\u2028' || c = '\u2029'

/-- Whether a text ends at once: it has no characters, or a blank or a break in front. -/
def isEnd : List Char → Bool
  | [] => true
  | c :: _ => isBlank c || isBreak c

/-- What is left of a text, and where that starts. -/
structure Cursor where
  rest : List Char
  index : Nat
  line : Nat
  column : Nat

namespace Cursor

/-- The start of a text. -/
def start (cs : List Char) : Cursor := ⟨cs, 0, 0, 0⟩

/-- The place behind a character. -/
def past (k : Cursor) (c : Char) (rest : List Char) : Cursor :=
  if isBreak c then ⟨rest, k.index + 1, k.line + 1, 0⟩
  else ⟨rest, k.index + 1, k.line, k.column + 1⟩

theorem rest_past (k : Cursor) (c : Char) (rest : List Char) : (k.past c rest).rest = rest := by
  unfold past
  split <;> rfl

/-- The place so many characters on. -/
def advance (k : Cursor) : Nat → Cursor
  | 0 => k
  | n + 1 =>
    match k.rest with
    | [] => k
    | c :: rest => (k.past c rest).advance n

theorem length_advance (k : Cursor) (n : Nat) :
    (k.advance n).rest.length = k.rest.length - n := by
  induction n generalizing k with
  | zero => rfl
  | succ n ih =>
    unfold advance
    split
    · simp [*]
    · rw [ih, rest_past]
      simp [*]

/-- The place behind the characters in front for which a test holds. -/
def skipWhile (p : Char → Bool) (k : Cursor) : Cursor := k.advance (k.rest.takeWhile p).length

/-- The characters in front for which a test holds. -/
def front (p : Char → Bool) (k : Cursor) : List Char := k.rest.takeWhile p

/-- Whether the mark between documents stands here: three dashes, or three points. -/
def isAtMark (k : Cursor) : Bool :=
  k.column = 0 && (match k.rest with
    | '-' :: '-' :: '-' :: rest => isEnd rest
    | '.' :: '.' :: '.' :: rest => isEnd rest
    | _ => false)

end Cursor

/-!
## Gaps: the white space inside of a scalar

White space inside of a line stands for itself. White space with a line break in it stands for one
space if the break is its only one, and for the further breaks otherwise; blanks at the ends of
lines do not count.
-/

/-- White space that has been read and not yet been counted to a scalar; all parts are reversed. -/
structure Gap where
  /-- The blanks in front of any break. -/
  blanks : List Char
  /-- Whether a line has ended. -/
  isBroken : Bool
  /-- The first break, unless it does not count. -/
  first : List Char
  /-- The further breaks. -/
  more : List Char

namespace Gap

/-- No white space. -/
def none : Gap := ⟨[], false, [], []⟩

/-- White space that starts with a break which does not count. -/
def escaped : Gap := ⟨[], true, [], []⟩

/-- Whether there is white space. -/
def isAny (g : Gap) : Bool := g.isBroken || !g.blanks.isEmpty

/-- One more blank. -/
def blank (g : Gap) (c : Char) : Gap := if g.isBroken then g else { g with blanks := c :: g.blanks }

/-- One more break. -/
def lineEnd (g : Gap) (c : Char) : Gap :=
  if g.isBroken then { g with more := c :: g.more }
  else ⟨[], true, [c], []⟩

/-- A reversed text with the meaning of white space added. -/
def after (g : Gap) (text : List Char) : List Char :=
  if !g.isBroken then g.blanks ++ text
  else if g.first ≠ ['\n'] then g.more ++ g.first ++ text
  else if g.more = [] then ' ' :: text
  else g.more ++ text

end Gap

end TokenGate.Yaml

/-!
## Plain scalars: texts without quotes

A plain scalar ends at a comment, at a colon in front of white space, at a line that is not indented
far enough, and at a mark between documents. Inside of brackets and braces it also ends at those and
at commas, and its lines need no indentation.
-/

namespace TokenGate.Yaml.Plain

/-- A plain scalar that has been read. -/
structure Found where
  text : String
  after : Cursor
  /-- Whether a line has ended behind it. -/
  isBroken : Bool

/-- Whether a character separates the parts of a collection in brackets or braces. -/
def isSeparator (c : Char) : Bool := c = ',' || c = '[' || c = ']' || c = '\x7b' || c = '\x7d'

/-- Whether a scalar ends in front of a character, given what follows that. -/
def isStop (inFlow : Bool) (c : Char) (rest : List Char) : Bool :=
  (c = ':' && isEnd rest) || (inFlow && isSeparator c)

/-- Whether a character cannot be told from the end of a key. -/
def isDoubtful (inFlow : Bool) (c : Char) (rest : List Char) : Bool :=
  inFlow && c = ':' && (match rest with
    | d :: _ => d = '?' || isSeparator d
    | [] => false)

/-- Reads on from a cursor; the text so far is reversed. -/
def read? (inFlow : Bool) (indent : Nat) (text : List Char) (gap : Gap) (k : Cursor) :
    Option Found :=
  let stop : Option Found := some ⟨String.ofList text.reverse, k, gap.isBroken⟩
  match _h : k.rest with
  | [] => stop
  | c :: rest =>
    if isBlank c then
      if gap.isBroken && k.column < indent && c = '\t' then none
      else read? inFlow indent text (gap.blank c) (k.past c rest)
    else if isBreak c then read? inFlow indent text (gap.lineEnd c) (k.past c rest)
    else if gap.isAny && (k.isAtMark || c = '#' || (!inFlow && k.column < indent)) then stop
    else if isDoubtful inFlow c rest then none
    else if isStop inFlow c rest then stop
    else read? inFlow indent (c :: gap.after text) .none (k.past c rest)
termination_by k.rest.length
decreasing_by all_goals simp [Cursor.rest_past, _h]

end TokenGate.Yaml.Plain

/-!
## Quoted scalars: texts between quotes

Between single quotes a quote is written twice and nothing else is special. Between double quotes a
backslash starts an escape, and a line may end in one, so that its break does not count.
-/

namespace TokenGate.Yaml.Quoted

/-- The characters that escapes of one letter stand for. -/
def escapes : List (Char × Char) :=
  [('0', '\x00'), ('a', '\x07'), ('b', '\x08'), ('t', '\t'), ('\t', '\t'), ('n', '\n'),
    ('v', '\x0b'), ('f', '\x0c'), ('r', '\r'), ('e', '\x1b'), (' ', ' '), ('"', '"'), ('/', '/'),
    ('\\', '\\'), ('N', '\u0085'), ('_', '\u00a0'), ('L', '\u2028'), ('P', '\u2029')]

/-- The number of hexadecimal digits behind a letter. -/
def digitCount? : Char → Option Nat
  | 'x' => some 2
  | 'u' => some 4
  | 'U' => some 8
  | _ => none

/-- The character of an escape and its length, from the letter on. -/
def escape? : List Char → Option (Char × Nat)
  | [] => none
  | e :: rest =>
    match escapes.lookup e with
    | some c => some (c, 1)
    | none => do
      let count ← digitCount? e
      let digits := rest.take count
      if digits.length = count then
        (Text.Hexadecimal.character? digits).map fun c => (c, count + 1)
      else none

/-- A quoted scalar that has been read. -/
structure Found where
  text : String
  after : Cursor

/-- Reads on between single quotes; the text so far is reversed. -/
def readSingle? (text : List Char) (gap : Gap) (k : Cursor) : Option Found :=
  match _h : k.rest with
  | [] => none
  | c :: rest =>
    if isBlank c then readSingle? text (gap.blank c) (k.past c rest)
    else if isBreak c then readSingle? text (gap.lineEnd c) (k.past c rest)
    else if k.isAtMark then none
    else
      let text := gap.after text
      if c ≠ '\'' then readSingle? (c :: text) .none (k.past c rest)
      else if rest.head? = some '\'' then readSingle? (c :: text) .none (k.advance 2)
      else some ⟨String.ofList text.reverse, k.advance 1⟩
termination_by k.rest.length
decreasing_by
  all_goals simp only [Cursor.rest_past, Cursor.length_advance, _h, List.length_cons]; omega

/-- Reads on between double quotes; the text so far is reversed. -/
def readDouble? (text : List Char) (gap : Gap) (k : Cursor) : Option Found :=
  match _h : k.rest with
  | [] => none
  | c :: rest =>
    if isBlank c then readDouble? text (gap.blank c) (k.past c rest)
    else if isBreak c then readDouble? text (gap.lineEnd c) (k.past c rest)
    else if k.isAtMark then none
    else
      let text := gap.after text
      if c = '"' then some ⟨String.ofList text.reverse, k.advance 1⟩
      else if c = '\\' then
        if rest.head?.any isBreak then readDouble? text .escaped (k.advance 2)
        else match escape? rest with
          | none => none
          | some (e, length) => readDouble? (e :: text) .none (k.advance (length + 1))
      else readDouble? (c :: text) .none (k.past c rest)
termination_by k.rest.length
decreasing_by
  all_goals simp only [Cursor.rest_past, Cursor.length_advance, _h, List.length_cons]; omega

end TokenGate.Yaml.Quoted

/-!
## Block scalars: texts of indented lines

A block scalar is announced by a bar or an angle. Behind that stand, in either order, what becomes
of the breaks at its end (kept after a plus, dropped after a minus, otherwise the first is kept) and
the number of columns by which its lines are indented further, which is otherwise found from the
first line that is not empty. After a bar the lines stand for themselves; after an angle the break
between two lines that do not start with a blank stands for a space.
-/

namespace TokenGate.Yaml.Block

/-- What becomes of the breaks at the end. -/
inductive Chomping
  | keep
  | clip
  | strip

/-- What is said behind the announcement. -/
structure Header where
  chomping : Chomping
  indentation : Option Nat

/-- What a sign says about the breaks at the end. -/
def chomping? : Char → Option Chomping
  | '+' => some .keep
  | '-' => some .strip
  | _ => none

/-- A number of columns. -/
def columns? (c : Char) : Option Nat :=
  if '1' ≤ c && c ≤ '9' then some (c.toNat - '0'.toNat) else none

/-- What the characters behind the announcement say. -/
def header? : List Char → Option Header
  | [] => some ⟨.clip, none⟩
  | [c] => ((chomping? c).map (⟨·, none⟩)).or ((columns? c).map (⟨.clip, some ·⟩))
  | [c, d] =>
    match chomping? c, columns? d, columns? c, chomping? d with
    | some t, some n, _, _ => some ⟨t, some n⟩
    | _, _, some n, some t => some ⟨t, some n⟩
    | _, _, _, _ => none
  | _ => none

/-- Breaks that have been read. -/
structure Breaks where
  /-- The breaks, reversed. -/
  breaks : List Char
  /-- The greatest column that a line started at. -/
  column : Nat
  after : Cursor

/-- Reads the indentation of lines and the breaks of empty ones; without a limit all spaces belong
to the indentation. -/
def breaks? (limit : Option Nat) (breaks : List Char) (column : Nat) (k : Cursor) : Option Breaks :=
  let isInside := limit.all (k.column < ·)
  match _h : k.rest with
  | [] => some ⟨breaks, max column k.column, k⟩
  | c :: rest =>
    if c = ' ' && isInside then breaks? limit breaks column (k.past c rest)
    else if c = '\t' && isInside then none
    else if isBreak c then breaks? limit (c :: breaks) (max column k.column) (k.past c rest)
    else some ⟨breaks, max column k.column, k⟩
termination_by k.rest.length
decreasing_by all_goals simp [Cursor.rest_past, _h]

/-- A block scalar that has been read. -/
structure Found where
  text : String
  after : Cursor

/-- The lines read so far; all texts are reversed. -/
structure Lines where
  text : List Char
  /-- The break behind the last line. -/
  last : List Char
  /-- The breaks of the empty lines behind that. -/
  more : List Char
  /-- Whether the last line starts with a blank. -/
  startsBlank : Bool

/-- The text in front of a line. -/
def Lines.joined (ls : Lines) (folded startsBlank : Bool) : List Char :=
  if folded && ls.last = ['\n'] && !ls.startsBlank && !startsBlank then
    if ls.more = [] then ' ' :: ls.text else ls.more ++ ls.text
  else ls.more ++ ls.last ++ ls.text

/-- The text at the end. -/
def Lines.finished (ls : Lines) : Chomping → List Char
  | .keep => ls.more ++ ls.last ++ ls.text
  | .clip => ls.last ++ ls.text
  | .strip => ls.text

/-- Reads the lines from a column on. -/
def lines? (folded : Bool) (column : Nat) : Nat → Lines → Cursor → Option (Lines × Cursor)
  | 0, ls, k => some (ls, k)
  | fuel + 1, ls, k =>
    if k.column ≠ column || k.rest = [] then some (ls, k)
    else
      let line := k.front (!isBreak ·)
      let startsBlank := line.head?.any isBlank
      let k := k.advance line.length
      match breaks? (some column) [] 0 (k.advance 1) with
      | none => none
      | some b =>
        let ls : Lines :=
          ⟨line.reverse ++ ls.joined folded startsBlank, k.rest.take 1, b.breaks, startsBlank⟩
        lines? folded column fuel ls b.after

/-- Reads a block scalar from behind its announcement, inside of a collection with this indentation.
-/
def read? (folded : Bool) (indent : Int) (k : Cursor) : Option Found := do
  let marks := k.front fun c => (chomping? c).isSome || (columns? c).isSome || c = '0'
  let header ← header? marks
  let k := (k.advance marks.length).skipWhile isBlank
  let k := if k.rest.head? = some '#' then k.skipWhile (!isBreak ·) else k
  if k.rest.head?.all isBreak then
    let k := k.advance 1
    let limit := header.indentation.map fun n => (max indent 0).toNat + n
    let b ← breaks? limit [] 0 k
    let column := limit.getD (max (max b.column (indent + 1).toNat) 1)
    let (ls, k) ← lines? folded column (k.rest.length + 1) ⟨[], [], b.breaks, false⟩ b.after
    return ⟨String.ofList (ls.finished header.chomping).reverse, k⟩
  else none

end TokenGate.Yaml.Block
