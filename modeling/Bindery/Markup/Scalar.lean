/-
  SCALARS: the four ways to write a text.

  A plain scalar ends where the structure goes on; a quoted one at its quote; a block scalar where
  the indentation ends.  Line breaks inside fold in the first two and in `>` blocks: a single one
  is a space, and of several the first is dropped.  Escapes in double quotes may name code points
  without a character, so a quoted scalar is read as code points.  Every loop takes its bound from
  the length of the text that is left, since each round takes at least one character.
-/
import Bindery.Markup.Cursor
import Bindery.Text.CodePoint

namespace Bindery.Markup

/-- A bound for loops that take a character each round. -/
def Cursor.bound (c : Cursor) : Nat := c.ahead + 1

/-- What a line break stands for when lines are folded: itself unless it is a line feed, which is
dropped in front of empty lines and a space in front of none. -/
def foldBreak (first : Char) (more : List Char) : List Char :=
  (if first != '\n' then [first] else if more.isEmpty then [' '] else []) ++ more

/-! ## Quoted scalars -/

/-- The line breaks of empty lines; a document mark must not stand at the start of a line. -/
def quotedBreaks : Nat → Cursor → Reading (List Char × Cursor)
  | 0, _ => refuse
  | fuel + 1, c =>
    if c.isDocumentMark then refuse
    else
      let c := c.skip isSpace
      match c.lineBreak? with
      | some (b, c) => do
        let (bs, c) ← quotedBreaks fuel c
        return (b :: bs, c)
      | none => .ok ([], c)

/-- Spaces and line breaks inside quotes. -/
def quotedSpace (c : Cursor) : Reading (List Char × Cursor) :=
  let (spaces, c) := c.takeRun isSpace
  match c.peek, c.lineBreak? with
  | none, _ => refuse
  | some _, some (b, c) => do
    let (bs, c) ← quotedBreaks c.bound c
    return (foldBreak b bs, c)
  | some _, none => .ok (spaces, c)

/-- What a letter behind a backslash stands for. -/
def escapes : List (Char × Nat) :=
  [('0', 0x00), ('a', 0x07), ('b', 0x08), ('t', 0x09), ('\t', 0x09), ('n', 0x0A), ('v', 0x0B),
   ('f', 0x0C), ('r', 0x0D), ('e', 0x1B), (' ', 0x20), ('"', 0x22), ('\\', 0x5C), ('/', 0x2F),
   ('N', 0x85), ('_', 0xA0), ('L', 0x2028), ('P', 0x2029)]

/-- How many digits follow a letter behind a backslash. -/
def escapeWidths : List (Char × Nat) := [('x', 2), ('u', 4), ('U', 8)]

/-- The value of a hexadecimal digit. -/
def hexValue? (c : Char) : Option Nat :=
  if c.isDigit then some (c.toNat - 0x30)
  else if 'a' ≤ c && c ≤ 'f' then some (c.toNat - 0x57)
  else if 'A' ≤ c && c ≤ 'F' then some (c.toNat - 0x37)
  else none

/-- The number that hexadecimal digits write. -/
def hexNumber? (ds : List Char) : Option Nat :=
  ds.foldlM (fun n c => (hexValue? c).map (16 * n + ·)) 0

/-- The greatest number that can be asked for as a code point. -/
def maxCodeNumber : Nat := 0x7FFFFFFF

/-- A number of so many hexadecimal digits, and the place behind them. -/
def hexCode (width : Nat) (c : Cursor) : Reading (Nat × Cursor) :=
  let ds := c.rest.take width
  match hexNumber? ds with
  | some n => if ds.length == width then .ok (n, c.advance width) else refuse
  | none => refuse

/-- A code point by its digits; it need not be one of a character. -/
def codePoint (width : Nat) (c : Cursor) : Reading (Nat × Cursor) := do
  let (n, c) ← hexCode width c
  if n ≤ 0x10FFFF then return (n, c)
  else if n ≤ maxCodeNumber then .error .badNumber
  else .error .tooLarge

/-- What stands behind a backslash, as code points. -/
def escape (c : Cursor) : Reading (List Nat × Cursor) :=
  match c.peek with
  | none => refuse
  | some ch =>
    match escapes.lookup ch, escapeWidths.lookup ch, c.lineBreak? with
    | some n, _, _ => .ok ([n], c.step)
    | none, some width, _ => do
      let (n, c) ← codePoint width c.step
      return ([n], c)
    | none, none, some (_, c) => do
      let (breaks, c) ← quotedBreaks c.bound c
      return (Text.pointsOf breaks, c)
    | none, none, none => refuse

/-- The rest of a scalar behind its opening quote, as code points. -/
def quotedRest (double : Bool) : Nat → Cursor → Reading (List Nat × Cursor)
  | 0, _ => refuse
  | fuel + 1, c =>
    let next (piece : List Nat) (c : Cursor) : Reading (List Nat × Cursor) := do
      let (more, c) ← quotedRest double fuel c
      return (piece ++ more, c)
    match c.peek with
    | none => refuse
    | some ch =>
      if isSpace ch || isBreak ch then do
        let (piece, c) ← quotedSpace c
        next (Text.pointsOf piece) c
      else if double && ch == '"' then .ok ([], c.step)
      else if double && ch == '\\' then do
        let (piece, c) ← escape c.step
        next piece c
      else if !double && ch == '\'' then
        if c.peekAt 1 == some '\'' then next ['\''.toNat] (c.advance 2) else .ok ([], c.step)
      else next [ch.toNat] c.step

/-- A quoted scalar from its opening quote on. -/
def quotedScalar (double : Bool) (c : Cursor) : Reading (List Nat × Cursor) :=
  quotedRest double c.bound c.step

/-! ## Plain scalars -/

/-- The characters that structure a flow collection. -/
def isFlowMark (c : Char) : Bool := c == ',' || c == '[' || c == ']' || c == '\x7b' || c == '\x7d'

/-- How many characters of a plain scalar come before a space or the structure. -/
def plainLength (flow : Bool) : List Char → Nat
  | [] => 0
  | ch :: s =>
    let ends := isSpace ch || isBreak ch ||
      (ch == ':' && (endsWord s.head? || (flow && s.head?.any isFlowMark))) ||
      (flow && (isFlowMark ch || ch == '?'))
    if ends then 0 else plainLength flow s + 1

/-- What follows a piece of a plain scalar. -/
structure PlainSpace where
  /-- The text of the space, if the scalar can go on behind it. -/
  text : List Char
  /-- Whether a line ended. -/
  broken : Bool
  behind : Cursor

/-- Line breaks and spaces in front of the next line; none where a document mark stands. -/
def plainBreaks : Nat → Cursor → Option (List Char × Cursor)
  | 0, _ => none
  | fuel + 1, c =>
    let c := c.skip (· == ' ')
    match c.lineBreak? with
    | none => some ([], c)
    | some (b, c) =>
      if c.isDocumentMark then none
      else (plainBreaks fuel c).map fun x => (b :: x.1, x.2)

/-- The space behind a piece of a plain scalar. -/
def plainSpace (c : Cursor) : PlainSpace :=
  let (spaces, c) := c.takeRun (· == ' ')
  match c.lineBreak? with
  | none => ⟨spaces, false, c⟩
  | some (b, c) =>
    if c.isDocumentMark then ⟨[], true, c⟩
    else
      match plainBreaks c.bound c with
      | none => ⟨[], true, c⟩
      | some (bs, c) => ⟨foldBreak b bs, true, c⟩

/-- A plain scalar and the place behind it, with whether a line ended there; `indent` is the first
column of a line that goes on with it. -/
def plainScalar (flow : Bool) (indent : Int) :
    Nat → List Char → Bool → Cursor → List Char × Bool × Cursor
  | 0, _, broken, c => ([], broken, c)
  | fuel + 1, space, broken, c =>
    let n := plainLength flow c.rest
    if c.isAt '#' || n == 0 then ([], broken, c)
    else
      let piece := space ++ c.rest.take n
      let s := plainSpace (c.advance n)
      if s.text.isEmpty || s.behind.isAt '#' || (!flow && (s.behind.column : Int) < indent) then
        (piece, s.broken, s.behind)
      else
        let (more, broken, c) := plainScalar flow indent fuel s.text s.broken s.behind
        (piece ++ more, broken, c)

/-! ## Block scalars -/

/-- What happens to the line breaks at the end of a block. -/
inductive Chomp where
  | strip
  | clip
  | keep
  deriving DecidableEq, Repr

/-- What stands behind the mark of a block, up to the end of its line. -/
structure BlockHead where
  chomp : Chomp
  /-- The indentation, where it is given. -/
  indent : Option Nat
  behind : Cursor

/-- The chomping that a sign asks for. -/
def chompOf? (c : Option Char) : Option Chomp :=
  if c == some '+' then some .keep else if c == some '-' then some .strip else none

/-- The indentation that a digit gives. -/
def indentOf? (c : Option Char) : Option Nat :=
  match c with
  | some d => if d.isDigit then some (d.toNat - 0x30) else none
  | none => none

/-- Behind spaces, a comment and the end of the line. -/
def restOfLine (c : Cursor) : Reading Cursor :=
  let c := c.skip (· == ' ')
  let c := if c.isAt '#' then c.skip (!isBreak ·) else c
  if endsLine c.peek then .ok c.skipBreak else refuse

/-- The head of a block: a sign and a digit in either order, then nothing but a comment. -/
def blockHead (c : Cursor) : Reading BlockHead := do
  let head : BlockHead := match chompOf? c.peek, indentOf? c.peek with
    | some chomp, _ =>
      match indentOf? c.step.peek with
      | some n => ⟨chomp, some n, c.advance 2⟩
      | none => ⟨chomp, none, c.step⟩
    | none, some n =>
      match chompOf? c.step.peek with
      | some chomp => ⟨chomp, some n, c.advance 2⟩
      | none => ⟨.clip, some n, c.step⟩
    | none, none => ⟨.clip, none, c⟩
  require (head.indent != some 0 && endsField head.behind.peek)
  let c ← restOfLine head.behind
  return { head with behind := c }

/-- Leading spaces up to a column. -/
def skipIndent (column : Nat) (c : Cursor) : Cursor :=
  c.advance ((c.rest.take (column - c.column)).takeWhile (· == ' ')).length

/-- The line breaks of empty lines in a block that is indented to a column. -/
def blockBreaks (column : Nat) : Nat → Cursor → List Char × Cursor
  | 0, c => ([], c)
  | fuel + 1, c =>
    let c := skipIndent column c
    match c.lineBreak? with
    | none => ([], c)
    | some (b, c) =>
      let (bs, c) := blockBreaks column fuel c
      (b :: bs, c)

/-- The empty lines at the start of a block, and the greatest column that their spaces or those
of the first other line reach. -/
def leadingBreaks : Nat → Nat → Cursor → List Char × Nat × Cursor
  | 0, column, c => ([], column, c)
  | fuel + 1, column, c =>
    let c := c.skip (· == ' ')
    let column := max column c.column
    match c.lineBreak? with
    | none => ([], column, c)
    | some (b, c) =>
      let (bs, column, c) := leadingBreaks fuel column c
      (b :: bs, column, c)

/-- The lines of a block that is indented to a column; `before` are the breaks in front. -/
def blockLines (folded : Bool) (chomp : Chomp) (column : Nat) :
    Nat → List Char → Cursor → List Char × Cursor
  | 0, _, c => ([], c)
  | fuel + 1, before, c =>
    let (text, d) := c.takeRun (!isBreak ·)
    let (last, d) := match d.lineBreak? with
      | some (b, d) => ([b], d)
      | none => ([], d)
    let (breaks, d) := blockBreaks column d.bound d
    if d.column == column && d.peek.isSome then
      let spaced (c : Cursor) : Bool := c.peek.any isSpace
      let joint :=
        if folded && last == ['\n'] && !spaced c && !spaced d then
          if breaks.isEmpty then [' '] else []
        else last
      let (more, d) := blockLines folded chomp column fuel breaks d
      (before ++ text ++ joint ++ more, d)
    else
      let tail := match chomp with
        | .strip => []
        | .clip => last
        | .keep => last ++ breaks
      (before ++ text ++ tail, d)

/-- A block scalar from behind its mark on, inside a collection indented to `indent`. -/
def blockScalar (folded : Bool) (indent : Int) (c : Cursor) : Reading (List Char × Cursor) := do
  let head ← blockHead c
  let least := (max (indent + 1) 1).toNat
  let c := head.behind
  let (breaks, column, c) := match head.indent with
    | some n =>
      let column := least + n - 1
      let (breaks, c) := blockBreaks column c.bound c
      (breaks, column, c)
    | none =>
      let (breaks, widest, c) := leadingBreaks c.bound 0 c
      (breaks, max least widest, c)
  if c.column == column && c.peek.isSome then
    return blockLines folded head.chomp column c.bound breaks c
  else
    return (if head.chomp = .keep then breaks else [], c)

end Bindery.Markup
