/-
  BODIES: what stands between the braces of an enumeration or a module.

  A body is cut at its separators first and every piece is read on its own, so a fault names the
  piece it is in.  A function declaration is at the line of its first character; pieces that hold
  only blanks declare nothing.
-/
import Bindery.Idl.Statement

namespace Bindery.Idl

open Text

/-! ## Enumerations -/

/-- The pieces of an enumeration; a comma may close the list. -/
def variantPieces (body : List Char) : List (List Char) :=
  let pieces := (splitOn ',' body).map trim
  if pieces.getLast? == some [] then pieces.dropLast else pieces

/-- Whether a text is one word. -/
def isOneWord (s : List Char) : Bool := !s.isEmpty && s.all isWord

/-- The variants of an enumeration. -/
def variants (body : List Char) : Except Fault (List String) :=
  (variantPieces body).mapM fun v =>
    if isOneWord v then .ok (String.ofList v) else .error (.badVariant (String.ofList v))

/-! ## Parameters -/

/-- The words of a text, with one space between two of them. -/
def joinWords (ws : List (List Char)) : String := String.ofList ([' '].intercalate ws)

/-- The direction that a word asks for. -/
def directionOf? (w : List Char) : Option Direction :=
  if w == ['i', 'n'] then some .input else if w == ['o', 'u', 't'] then some .output else none

/-- A parameter: type and name, perhaps behind a direction. -/
def parameter (piece : List Char) : Except Fault ParameterDecl :=
  let fault := .error (.badParameter (joinWords (words piece)))
  match words piece with
  | [type, name] =>
    if isOneWord type && isOneWord name then
      .ok ⟨String.ofList name, String.ofList type, .input⟩
    else fault
  | [direction, type, name] =>
    match directionOf? direction with
    | some d =>
      if isOneWord type && isOneWord name then .ok ⟨String.ofList name, String.ofList type, d⟩
      else fault
    | none => fault
  | _ => fault

/-- A parameter list. -/
def parameters (list : List Char) : Except Fault (List ParameterDecl) :=
  if list.all isBlank then .ok [] else (splitOn ',' list).mapM parameter

/-! ## Functions -/

open Reader in
/-- The word that marks a function whose failures are reported; it is a function's own name where
no other word follows it. -/
def fallibleMark : Reader Unit := do
  exactly ['f', 'a', 'l', 'l', 'i', 'b', 'l', 'e']
  gap

open Reader in
/-- The form of a declaration behind its mark: name, text of the parameter list, result. -/
def signature : Reader (String × List Char × Option String) := do
  let name ← word
  punctuation '('
  let list ← through ')'
  let returns ← opt do
    punctuation '-'
    char '>'
    blanks
    word
  blanks
  atEnd
  pure (name, list, returns)

/-- A function declaration, without the blanks around it. -/
def function (decl : List Char) : Except Fault FunctionDecl :=
  let marked := (do fallibleMark; signature : Reader _).run decl
  let form := match marked with
    | some (form, _) => some (form, true)
    | none => (signature.run decl).map fun x => (x.1, false)
  match form with
  | some ((name, list, returns), fallible) => do
    return { name, parameters := ← parameters list, returns, fallible }
  | none => .error (.badFunction (String.ofList decl))

/-- The declarations of a module; `line` is where the first of the pieces starts. -/
def declarations (line : Nat) : List (List Char) → Except (Nat × Fault) (List FunctionDecl)
  | [] => .ok []
  | piece :: pieces => do
    let next := line + newlines piece
    let decl := trim piece
    if decl.isEmpty then declarations next pieces
    else
      let start := line + newlines (piece.takeWhile isBlank)
      let f ← (function decl).mapError fun fault => (start, fault)
      return f :: (← declarations next pieces)

/-- The functions of a module whose body starts on the given line. -/
def functions (line : Nat) (body : List Char) : Except (Nat × Fault) (List FunctionDecl) :=
  declarations line (splitOn ';' body)

end Bindery.Idl
