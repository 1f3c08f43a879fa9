/-
  THE COMMAND LINE: from words to what is asked for.

  Words are sorted first, each on its own: a word that starts with a dash is an option if it is
  spelled like one, where long options may be cut short as long as one option only is meant.
  Behind the divider `--` all words are plain.  Then the words are taken in their order.  A fault
  in the sorting comes before everything else; the help is given as soon as it is reached.

  The divider is no value: where it is joined to an option, the value is lost.  Most options are
  then as if they had not been given; without an output directory or a target there is no command,
  but that shows only when all words are taken.
-/
import Bindery.Event
import Bindery.Target
import Bindery.Text.Digit

namespace Bindery

/-- How much is said while a command runs. -/
inductive Verbosity where
  | normal
  | verbose
  | quiet
  deriving DecidableEq, Repr

/-- Whether an event is said at all. -/
def Verbosity.admits : Verbosity → Level → Bool
  | verbose, _ => true
  | normal, level => level ≠ .detail
  | quiet, level => level = .fault

/-- What is asked for. -/
structure Command where
  description : String
  output : String
  /-- The targets; none stands for all. -/
  targets : List Target
  libraryName : String
  javaPackage : String
  jniLibrary : String
  /-- Whether the description is only to be looked at. -/
  checkOnly : Bool
  verbosity : Verbosity
  deriving DecidableEq, Repr

/-- Why there is no command. -/
inductive CommandFault where
  /-- The help is asked for. -/
  | help
  /-- Words that are no command. -/
  | usage
  /-- The divider as the value of an option that cannot do without one. -/
  | lostValue
  deriving DecidableEq, Repr

namespace CommandLine

/-! ## Options -/

/-- The options. -/
inductive Key where
  | help
  | output
  | target
  | library
  | package
  | jni
  | check
  | verbose
  | quiet
  deriving DecidableEq, Repr

/-- The spellings of the options. -/
def spellings : List (String × Key) :=
  [("-h", .help), ("--help", .help), ("--output-dir", .output), ("-o", .output),
   ("--target", .target), ("-t", .target), ("--library-name", .library),
   ("--java-package", .package), ("--jni-library", .jni), ("--check", .check),
   ("--verbose", .verbose), ("-v", .verbose), ("--quiet", .quiet), ("-q", .quiet)]

/-- The option that is spelled so. -/
def keyOf? (s : List Char) : Option Key := spellings.lookup (String.ofList s)

/-- Whether an option takes a value. -/
def Key.takesValue : Key → Bool
  | output | target | library | package | jni => true
  | help | check | verbose | quiet => false

/-! ## Sorting words -/

/-- A word of the command line. -/
inductive Word where
  | plain (text : String)
  | divider
  /-- An option with a long spelling, and a value that is joined to it. -/
  | long (key : Key) (value : Option (List Char))
  /-- An option with a short spelling, and what is joined to it: a value or further options. -/
  | short (key : Key) (joined : Option (List Char))
  /-- A word that looks like an option but is none. -/
  | unknown
  deriving DecidableEq, Repr

/-- The word that an option is, by its spelling. -/
def optionWord (spelling : List Char) (key : Key) (joined : Option (List Char)) : Word :=
  match spelling with
  | '-' :: '-' :: _ => .long key joined
  | _ => .short key joined

/-- What stands before and behind the first equals sign, if there is one. -/
def cutAtEquals (s : List Char) : Option (List Char × List Char) :=
  match s.dropWhile (· != '=') with
  | [] => none
  | _ :: value => some (s.takeWhile (· != '='), value)

/-- The long options that start so. -/
def startingWith (s : List Char) : List Key :=
  (spellings.filter fun x => s.isPrefixOf x.1.toList).map (·.2)

/-- Whether a text is digits only, and at least one. -/
def areDigits (s : List Char) : Bool := !s.isEmpty && s.all fun c => (Text.digitValue? c).isSome

/-- Whether a text is a number: digits, or a point with digits behind it and perhaps before.  A
line feed at the end is passed over. -/
def isNumber (s : List Char) : Bool :=
  let s := if s.getLast? = some '\n' then s.dropLast else s
  areDigits s ||
    match s.dropWhile (· != '.') with
    | [] => false
    | _ :: places =>
      let whole := s.takeWhile (· != '.')
      (whole.isEmpty || areDigits whole) && areDigits places

/-- The word that a text is if it is not spelled like an option: a negative number and a text
with a space are plain. -/
def otherwise (s : List Char) : Word :=
  if isNumber (s.drop 1) || s.contains ' ' then .plain (String.ofList s) else .unknown

/-- Sorts a word that starts with two dashes and is not an option as it stands. -/
def sortLong (s : List Char) : Except CommandFault Word :=
  let (start, value) := match cutAtEquals s with
    | some (start, value) => (start, some value)
    | none => (s, none)
  match startingWith start with
  | [] => .ok (otherwise s)
  | [key] => .ok (.long key value)
  | _ => .error .usage

/-- Sorts a word that starts with one dash and is not an option as it stands. -/
def sortShort (s : List Char) : Word :=
  match keyOf? (s.take 2) with
  | some key => .short key (some (s.drop 2))
  | none => otherwise s

/-- Sorts a word on its own. -/
def sortWord (text : String) : Except CommandFault Word :=
  match text.toList with
  | '-' :: c :: s =>
    let word := '-' :: c :: s
    match keyOf? word, cutAtEquals word with
    | some key, _ => .ok (optionWord word key none)
    | none, some (start, value) =>
      match keyOf? start with
      | some key => .ok (optionWord start key (some value))
      | none => if c == '-' then sortLong word else .ok (sortShort word)
    | none, none => if c == '-' then sortLong word else .ok (sortShort word)
  | _ => .ok (.plain text)

/-- Sorts the words; behind the first divider all are plain. -/
def sortWords : List String → Except CommandFault (List Word)
  | [] => .ok []
  | text :: texts =>
    if text = "--" then .ok (.divider :: texts.map .plain)
    else do
      let w ← sortWord text
      return w :: (← sortWords texts)

/-! ## Taking words -/

/-- What has been asked for so far. -/
structure Draft where
  description : Option String
  command : Command
  /-- Whether there was a word that nothing takes. -/
  hasExtra : Bool
  /-- Whether the last output directory was lost. -/
  lostOutput : Bool
  /-- Whether a target was lost. -/
  lostTarget : Bool

/-- Nothing has been asked for. -/
def Draft.start : Draft :=
  ⟨none, ⟨"", "generated", [], "", "", "", false, .normal⟩, false, false, false⟩

namespace Draft

/-- Asks for more or less to be said; not for both. -/
def say (d : Draft) (v : Verbosity) : Except CommandFault Draft :=
  if d.command.verbosity = .normal ∨ d.command.verbosity = v then
    .ok { d with command := { d.command with verbosity := v } }
  else .error .usage

/-- Takes an option without a value. -/
def takeFlag (d : Draft) : Key → Except CommandFault Draft
  | .help => .error .help
  | .check => .ok { d with command := { d.command with checkOnly := true } }
  | .verbose => d.say .verbose
  | .quiet => d.say .quiet
  | _ => .error .usage

/-- Takes an option with a value; a later value replaces an earlier one, but targets add up. -/
def takeValue (d : Draft) (key : Key) (value : String) : Except CommandFault Draft :=
  let c := d.command
  match key with
  | .output => .ok { d with command := { c with output := value }, lostOutput := false }
  | .target =>
    match Target.ofName? value with
    | some t => .ok { d with command := { c with targets := c.targets ++ [t] } }
    | none => .error .usage
  | .library => .ok { d with command := { c with libraryName := value } }
  | .package => .ok { d with command := { c with javaPackage := value } }
  | .jni => .ok { d with command := { c with jniLibrary := value } }
  | _ => .error .usage

/-- Takes the options of a word of short ones, one after the other. -/
def takeFlags (d : Draft) : List Key → Except CommandFault Draft
  | [] => .ok d
  | key :: keys => do (← d.takeFlag key).takeFlags keys

/-- Takes an option whose value is lost. -/
def takeLost (d : Draft) (key : Key) : Except CommandFault Draft :=
  match key with
  | .output => .ok { d with lostOutput := true }
  | .target => .ok { d with lostTarget := true }
  | key => d.takeValue key ""

/-- Takes an option with a value that is joined to it. -/
def takeJoined (d : Draft) (key : Key) (value : List Char) : Except CommandFault Draft :=
  if value = ['-', '-'] then d.takeLost key else d.takeValue key (String.ofList value)

end Draft

/-- A word of short options, taken apart: the options without a value, and one that takes one,
with the value where it is joined. -/
structure Cluster where
  flags : List Key
  last : Option (Key × Option (List Char))

/-- Takes a word of short options apart. -/
def cluster (key : Key) : Option (List Char) → Except CommandFault Cluster
  | none => .ok (if key.takesValue then ⟨[], some (key, none)⟩ else ⟨[key], none⟩)
  | some [] => if key.takesValue then .ok ⟨[], some (key, some [])⟩ else .error .usage
  | some (c :: s) =>
    if key.takesValue then .ok ⟨[], some (key, some (c :: s))⟩
    else
      match keyOf? ['-', c] with
      | none => .error .usage
      | some next => do
        let rest ← match s with
          | [] => cluster next none
          | s => cluster next (some s)
        return { rest with flags := key :: rest.flags }
termination_by joined => (joined.map List.length).getD 0
decreasing_by all_goals simp

/-- Drops the dividers in front. -/
def dropDividers (ws : List Word) : List Word := ws.dropWhile (· == .divider)

theorem length_dropDividers (ws : List Word) : (dropDividers ws).length ≤ ws.length :=
  (List.dropWhile_suffix _).length_le

/-- Takes word after word. -/
def takeWords (d : Draft) : List Word → Except CommandFault Draft
  | [] => .ok d
  | .unknown :: ws => takeWords { d with hasExtra := true } ws
  | .long key value :: ws =>
    match key.takesValue, value, ws with
    | true, some value, ws => do takeWords (← d.takeJoined key value) ws
    | true, none, .plain value :: ws => do takeWords (← d.takeValue key value) ws
    | true, none, _ => .error .usage
    | false, some _, _ => .error .usage
    | false, none, ws => do takeWords (← d.takeFlag key) ws
  | .short key joined :: ws => do
    let c ← cluster key joined
    match c.last, ws with
    | none, ws => do takeWords (← d.takeFlags c.flags) ws
    | some (key, some value), ws => do
      takeWords (← (← d.takeFlags c.flags).takeJoined key value) ws
    | some (key, none), .plain value :: ws => do
      takeWords (← (← d.takeFlags c.flags).takeValue key value) ws
    | some (_, none), _ => .error .usage
  | .divider :: .plain text :: ws =>
    if d.description.isSome then takeWords { d with hasExtra := true } ws
    else takeWords { d with description := some text } ws
  | .divider :: ws => takeWords { d with hasExtra := true } ws
  | .plain text :: ws =>
    if d.description.isSome then takeWords { d with hasExtra := true } ws
    else takeWords { d with description := some text } (dropDividers ws)
termination_by ws => ws.length
decreasing_by all_goals grind [length_dropDividers]

/-- The command that words ask for. -/
def parse (words : List String) : Except CommandFault Command := do
  let d ← takeWords .start (← sortWords words)
  match d.description with
  | some description =>
    if d.hasExtra then .error .usage
    else if d.lostOutput || d.lostTarget then .error .lostValue
    else .ok { d.command with description }
  | none => .error .usage

end CommandLine

end Bindery
