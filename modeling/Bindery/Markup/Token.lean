/-
  TOKENS of the markup: a text cut into marks and scalars.

  Indentation becomes tokens of its own, so what reads the tokens never looks at columns.  The one
  thing that is not known at once is whether a scalar or collection is a key: that shows at the
  colon behind it.  So every place where a key may start is remembered, and the key token is put
  there when its colon comes; a place is given up when its line ends or after 1024 characters.

  A fault in the text is a token, too, and the last one.  Whoever reads the tokens finds a fault of
  its own first if that stands in front; and a token at a place where a key may still start is not
  known before what follows, so a fault that follows hides it.
-/
import Bindery.Decimal.Notation
import Bindery.Markup.Scalar

namespace Bindery.Markup

/-- What a text is made of. -/
inductive Token where
  | sequenceStart
  | mappingStart
  | blockEnd
  | flowSequenceStart
  | flowSequenceEnd
  | flowMappingStart
  | flowMappingEnd
  | blockEntry
  | flowEntry
  | key
  | value
  | alias (name : List Char)
  | anchor (name : List Char)
  | tag (handle : Option (List Char)) (suffix : List Char)
  /-- A text, by its code points; `plain` tells that it stood without quotes. -/
  | scalar (text : List Nat) (plain : Bool)
  /-- The version of the format that a text asks for. -/
  | version (major : Nat)
  /-- What a handle of tags stands for. -/
  | handle (name target : List Char)
  /-- A directive that says nothing to this reader. -/
  | otherDirective
  | documentStart
  | documentEnd
  | streamEnd
  /-- A fault; nothing is known of the text behind it. -/
  | fault (cause : Fault)
  deriving DecidableEq, Repr

/-- A place where a key may start. -/
structure KeyPlace where
  /-- How many tokens are in front. -/
  number : Nat
  /-- Whether a key has to start here, because a block mapping goes on. -/
  required : Bool
  index : Nat
  line : Nat
  column : Nat

/-- The state of the lexer. -/
structure Lexer where
  cursor : Cursor
  /-- The tokens, the last one first. -/
  tokens : List Token
  /-- How many tokens there are. -/
  count : Nat
  /-- The column of the open block; -1 outside. -/
  indent : Int
  /-- The columns of the blocks around. -/
  indents : List Int
  /-- Whether a key may start at the cursor. -/
  allowKey : Bool
  /-- The place of a possible key at the current flow level. -/
  keyPlace : Option KeyPlace
  /-- Those of the flow levels around. -/
  outerPlaces : List (Option KeyPlace)

namespace Lexer

/-- The start of a text; a byte-order mark in front is no part of it. -/
def start (s : List Char) : Lexer :=
  let c := Cursor.start s
  let c := if c.peek.any (·.toNat == 0xFEFF) then c.step else c
  ⟨c, [], 0, -1, [], true, none, []⟩

/-- Whether a flow collection is open. -/
def inFlow (l : Lexer) : Bool := !l.outerPlaces.isEmpty

/-- Adds a token. -/
def emit (l : Lexer) (t : Token) : Lexer :=
  { l with tokens := t :: l.tokens, count := l.count + 1 }

/-- Adds a token of so many characters. -/
def mark (l : Lexer) (t : Token) (width : Nat) : Lexer :=
  { l.emit t with cursor := l.cursor.advance width }

/-- Puts a token behind the first `number` ones. -/
def emitAt (l : Lexer) (number : Nat) (t : Token) : Lexer :=
  let behind := l.count - number
  { l with tokens := l.tokens.take behind ++ t :: l.tokens.drop behind, count := l.count + 1 }

/-! ## Indentation -/

/-- The columns of the blocks that are not deeper than a column, and how many others there are;
`indent` is the deepest block. -/
def closeBlocks (column : Int) (indent : Int) : List Int → Int × List Int × Nat
  | [] => if column < indent then (-1, [], 1) else (indent, [], 0)
  | outer :: indents =>
    if column < indent then
      let (indent, indents, closed) := closeBlocks column outer indents
      (indent, indents, closed + 1)
    else (indent, outer :: indents, 0)

/-- Closes the blocks that end at a column. -/
def unwind (l : Lexer) (column : Int) : Lexer :=
  if l.inFlow then l
  else
    let (indent, indents, closed) := closeBlocks column l.indent l.indents
    { l with
      indent, indents
      tokens := List.replicate closed .blockEnd ++ l.tokens, count := l.count + closed }

/-- Opens a block at a column, unless one is open there. -/
def openBlock (l : Lexer) (column : Nat) (number : Nat) (t : Token) : Lexer :=
  if l.indent < column then
    { l.emitAt number t with indent := column, indents := l.indent :: l.indents }
  else l

/-! ## Possible keys -/

/-- Whether a possible key is too far back. -/
def isStale (l : Lexer) (k : KeyPlace) : Bool :=
  k.line != l.cursor.line || l.cursor.index - k.index > 1024

/-- Gives up a place that is too far back. -/
def dropStale (l : Lexer) (place : Option KeyPlace) : Reading (Option KeyPlace) :=
  match place with
  | none => .ok none
  | some k =>
    if !l.isStale k then .ok (some k) else if k.required then refuse else .ok none

/-- Gives up all places that are too far back. -/
def dropStalePlaces (l : Lexer) : Reading Lexer := do
  let keyPlace ← l.dropStale l.keyPlace
  let outerPlaces ← l.outerPlaces.mapM l.dropStale
  return { l with keyPlace, outerPlaces }

/-- Gives up the place at this level; a required key that does not come is a fault. -/
def dropPlace (l : Lexer) : Reading Lexer :=
  if l.keyPlace.any (·.required) then refuse else .ok { l with keyPlace := none }

/-- Remembers that a key may start here. -/
def savePlace (l : Lexer) : Reading Lexer :=
  if l.allowKey then do
    let required := !l.inFlow && l.indent == l.cursor.column
    let l ← l.dropPlace
    let c := l.cursor
    return { l with
      keyPlace := some ⟨l.count, required, c.index, c.line, c.column⟩ }
  else .ok l

/-! ## Between tokens -/

/-- Skips spaces, comments and line breaks; behind a line break a key may start again. -/
def skipSpace : Nat → Lexer → Lexer
  | 0, l => l
  | fuel + 1, l =>
    let c := l.cursor.skip (· == ' ')
    let c := if c.isAt '#' then c.skip (!isBreak ·) else c
    match c.lineBreak? with
    | some (_, c) =>
      skipSpace fuel { l with cursor := c, allowKey := l.allowKey || !l.inFlow }
    | none => { l with cursor := c }

/-! ## Names and tags -/

/-- The characters of names. -/
def isNameChar (c : Char) : Bool := c.isAlphanum || c == '-' || c == '_'

/-- The characters of a tag, beside names and escapes. -/
def tagMarks : List Char :=
  ['-', ';', '/', '?', ':', '@', '&', '=', '+', '$', ',', '_', '.', '!', '~', '*', '\'', '(', ')',
   '[', ']']

/-- The name of an anchor or alias, behind its mark. -/
def anchorName (c : Cursor) : Reading (List Char × Cursor) := do
  let (name, c) := c.step.takeRun isNameChar
  require (!name.isEmpty)
  require (endsWord c.peek ||
    c.peek.any ['?', ':', ',', ']', '\x7d', '%', '@', Char.ofNat 0x60].contains)
  return (name, c)

/-- The bytes that a run of escapes stands for. -/
def escapedBytes : Nat → Cursor → Reading (List UInt8 × Cursor)
  | 0, c => .ok ([], c)
  | fuel + 1, c =>
    if c.isAt '%' then do
      let (n, c) ← hexCode 2 c.step
      let (more, c) ← escapedBytes fuel c
      return (n.toUInt8 :: more, c)
    else .ok ([], c)

/-- The characters of a tag. -/
def tagChars : Nat → Cursor → Reading (List Char × Cursor)
  | 0, c => .ok ([], c)
  | fuel + 1, c =>
    match c.peek with
    | none => .ok ([], c)
    | some ch =>
      if ch == '%' then do
        let (bytes, c) ← escapedBytes c.bound c
        match String.fromUTF8? ⟨bytes.toArray⟩ with
        | none => refuse
        | some s =>
          let (more, c) ← tagChars fuel c
          return (s.toList ++ more, c)
      else if isNameChar ch || tagMarks.contains ch then do
        let (more, c) ← tagChars fuel c.step
        return (ch :: more, c)
      else .ok ([], c)

/-- The characters of a tag; there has to be one. -/
def tagText (c : Cursor) : Reading (List Char × Cursor) := do
  let (t, c) ← tagChars c.bound c
  require (!t.isEmpty)
  return (t, c)

/-- A handle: an exclamation mark, or a name between two; `alone` tells that the second one has
to be there where a name is. -/
def tagHandle (c : Cursor) : Reading (List Char × Cursor) := do
  require (c.isAt '!')
  let d := c.step
  if d.isAt ' ' then return (['!'], d)
  else
    let (name, d) := d.takeRun isNameChar
    require (d.isAt '!')
    return ('!' :: name ++ ['!'], d.step)

/-- A tag. -/
def tagToken (c : Cursor) : Reading (Token × Cursor) := do
  let (t, c) ←
    if c.peekAt 1 == some '<' then do
      let (suffix, c) ← tagText (c.advance 2)
      require (c.isAt '>')
      pure (Token.tag none suffix, c.step)
    else if endsWord (c.peekAt 1) then pure (Token.tag none ['!'], c.step)
    else do
      let word := (c.step.takeRun fun ch => !(ch == ' ' || isBreak ch)).1
      let (handle, c) ← if word.contains '!' then tagHandle c else pure (['!'], c.step)
      let (suffix, c) ← tagText c
      pure (Token.tag (some handle) suffix, c)
  require (endsField c.peek)
  return (t, c)

/-! ## Directives -/

/-- A number of decimal digits, not too many of them. -/
def number (c : Cursor) : Reading (Nat × Cursor) := do
  let (ds, c) := c.takeRun Char.isDigit
  require (!ds.isEmpty)
  if ds.length > Decimal.maxDigits then .error .badNumber
  return (ds.foldl (fun n d => 10 * n + (d.toNat - 0x30)) 0, c)

/-- The version of the format. -/
def versionDirective (c : Cursor) : Reading (Token × Cursor) := do
  let (major, c) ← number (c.skip (· == ' '))
  require (c.isAt '.')
  let (_, c) ← number c.step
  require (endsField c.peek)
  return (.version major, c)

/-- A handle of tags. -/
def handleDirective (c : Cursor) : Reading (Token × Cursor) := do
  let (name, c) ← tagHandle (c.skip (· == ' '))
  require (c.isAt ' ')
  let (target, c) ← tagText (c.skip (· == ' '))
  require (endsField c.peek)
  return (.handle name target, c)

/-- A directive, with the rest of its line. -/
def directive (c : Cursor) : Reading (Token × Cursor) := do
  let (name, c) := c.step.takeRun isNameChar
  require (!name.isEmpty && endsField c.peek)
  let (t, c) ←
    if name == ['Y', 'A', 'M', 'L'] then versionDirective c
    else if name == ['T', 'A', 'G'] then handleDirective c
    else pure (.otherDirective, c.skip (!isBreak ·))
  return (t, ← restOfLine c)

/-! ## Single tokens -/

/-- Adds a token that may be a key. -/
def node (l : Lexer) (read : Cursor → Reading (Token × Cursor)) : Reading Lexer := do
  let l ← l.savePlace
  let (t, cursor) ← read l.cursor
  return { l.emit t with allowKey := false, cursor }

/-- A mark at the start of a line that ends all blocks. -/
def atDocumentLevel (l : Lexer) : Reading Lexer := do
  let l ← (l.unwind (-1)).dropPlace
  return { l with allowKey := false }

/-- Opens a flow collection. -/
def openFlow (l : Lexer) (t : Token) : Reading Lexer := do
  let l ← l.savePlace
  return { l.mark t 1 with
    allowKey := true, keyPlace := none, outerPlaces := l.keyPlace :: l.outerPlaces }

/-- Closes a flow collection. -/
def closeFlow (l : Lexer) (t : Token) : Reading Lexer := do
  let l ← l.dropPlace
  match l.outerPlaces with
  | [] => refuse
  | keyPlace :: outerPlaces =>
    return { l.mark t 1 with allowKey := false, keyPlace, outerPlaces }

/-- A mark in front of an item of a block; it opens the block where none is open. -/
def blockMark (l : Lexer) (t opening : Token) : Reading Lexer :=
  if l.inFlow then .ok { l with allowKey := t == .blockEntry }
  else if l.allowKey then
    .ok { l.openBlock l.cursor.column l.count opening with allowKey := true }
  else refuse

/-- A mark in front of an item, with its token. -/
def itemMark (l : Lexer) (t opening : Token) : Reading Lexer := do
  let l ← (← l.blockMark t opening).dropPlace
  return l.mark t 1

/-- The colon behind a key. -/
def valueMark (l : Lexer) : Reading Lexer :=
  match l.keyPlace with
  | some k =>
    let l := { l with keyPlace := none }.emitAt k.number .key
    let l := if l.inFlow then l else l.openBlock k.column k.number .mappingStart
    .ok ({ l with allowKey := false }.mark .value 1)
  | none => l.itemMark .value .mappingStart

/-- A plain scalar. -/
def plain (l : Lexer) : Reading Lexer := do
  let l ← l.savePlace
  let c := l.cursor
  let (text, broken, cursor) := plainScalar l.inFlow (l.indent + 1) c.bound [] false c
  return { l.emit (.scalar (Text.pointsOf text) true) with allowKey := broken, cursor }

/-- A block scalar. -/
def block (l : Lexer) (folded : Bool) : Reading Lexer := do
  let l ← l.dropPlace
  let (text, cursor) ← blockScalar folded l.indent l.cursor.step
  return { l.emit (.scalar (Text.pointsOf text) false) with allowKey := true, cursor }

/-- Whether a plain scalar may start with the characters at hand. -/
def startsPlain (l : Lexer) (ch : Char) : Bool :=
  let marks := ['-', '?', ':', ',', '[', ']', '\x7b', '\x7d', '#', '&', '*', '!', '|', '>', '\'',
    '"', '%', '@', Char.ofNat 0x60]
  !(isSpace ch || isBreak ch || marks.contains ch) ||
    (!endsWord (l.cursor.peekAt 1) && (ch == '-' || (!l.inFlow && (ch == '?' || ch == ':'))))

/-- The token that starts with the given character. -/
def next (l : Lexer) (ch : Char) : Reading Lexer :=
  let c := l.cursor
  let spaced := endsWord (c.peekAt 1)
  if c.column == 0 && ch == '%' then do
    let l ← l.atDocumentLevel
    let (t, cursor) ← directive l.cursor
    return { l.emit t with cursor }
  else if c.column == 0 && c.isTriple '-' then do
    return (← l.atDocumentLevel).mark .documentStart 3
  else if c.column == 0 && c.isTriple '.' then do
    return (← l.atDocumentLevel).mark .documentEnd 3
  else if ch == '[' then l.openFlow .flowSequenceStart
  else if ch == '\x7b' then l.openFlow .flowMappingStart
  else if ch == ']' then l.closeFlow .flowSequenceEnd
  else if ch == '\x7d' then l.closeFlow .flowMappingEnd
  else if ch == ',' then do
    let l ← l.dropPlace
    return { l with allowKey := true }.mark .flowEntry 1
  else if ch == '-' && spaced then l.itemMark .blockEntry .sequenceStart
  else if ch == '?' && (l.inFlow || spaced) then l.itemMark .key .mappingStart
  else if ch == ':' && (l.inFlow || spaced) then l.valueMark
  else if ch == '*' then l.node fun c => do
    let (name, c) ← anchorName c
    return (.alias name, c)
  else if ch == '&' then l.node fun c => do
    let (name, c) ← anchorName c
    return (.anchor name, c)
  else if ch == '!' then l.node tagToken
  else if ch == '|' && !l.inFlow then l.block false
  else if ch == '>' && !l.inFlow then l.block true
  else if ch == '\'' || ch == '"' then l.node fun c => do
    let (text, c) ← quotedScalar (ch == '"') c
    return (.scalar text false, c)
  else if l.startsPlain ch then l.plain
  else refuse

/-- Goes on to the next token and adds it; at the end of the text that is the end. -/
def fetch (l : Lexer) : Reading Lexer := do
  let l ← (skipSpace l.cursor.bound l).dropStalePlaces
  let l := l.unwind l.cursor.column
  match l.cursor.peek with
  | none => return (← l.atDocumentLevel).emit .streamEnd
  | some ch => l.next ch

/-- How many tokens are known for certain: those in front of all places where a key may start. -/
def certain (l : Lexer) : Nat :=
  (l.keyPlace :: l.outerPlaces).foldl (fun n place => min n ((place.map (·.number)).getD n))
    l.count

/-- The tokens that are known for certain, and a fault. -/
def stop (l : Lexer) (e : Fault) : List Token := l.tokens.reverse.take l.certain ++ [.fault e]

/-- The tokens of the rest of a text; every one of them takes a character. -/
def run : Nat → Lexer → List Token
  | 0, l => l.stop .malformed
  | fuel + 1, l =>
    match l.dropStalePlaces with
    | .error e => l.stop e
    | .ok l =>
      match l.fetch with
      | .error e => l.stop e
      | .ok next =>
        if next.tokens.head? = some .streamEnd then next.tokens.reverse else run fuel next

end Lexer

/-- The tokens of a text. -/
def Token.scan (s : List Char) : List Token :=
  if s.all isAllowed then Lexer.run (s.length + 2) (Lexer.start s) else [.fault .malformed]

end Bindery.Markup
