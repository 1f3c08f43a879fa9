/-
  THE NATIVE BOUNDARY: how a call crosses it.

  Every function crosses as one ordered list of arguments, the declared parameters and then the
  result.  Byte buffers and everything that is filled travel as a pointer and a length; numbers
  and enumerations that are only read travel by value.  Each layer of the bindings renders these
  rules and none of them decides anything on its own.
-/
import Bindery.Naming.Symbol

namespace Bindery

/-! ## Arguments -/

/-- How an argument travels. -/
inductive Passing where
  /-- Bytes that are read. -/
  | inBuffer
  /-- A number of the given width, by value. -/
  | inValue (width : Width)
  /-- Bytes that are filled. -/
  | outBuffer
  deriving DecidableEq, Repr

/-- The width in which a type travels by value; byte buffers do not. -/
def Shape.valueWidth? : Shape → Option Width
  | .buffer _ => none
  | .scalar w => some w
  | .enum _ => some .one

/-- One logical argument of a call. -/
structure Argument where
  name : String
  type : TypeDef
  passing : Passing
  /-- Whether it receives the result of the function. -/
  isResult : Bool
  deriving DecidableEq, Repr

/-- How a parameter travels. -/
def Parameter.passing (p : Parameter) : Passing :=
  match p.direction, p.type.shape.valueWidth? with
  | .output, _ => .outBuffer
  | .input, none => .inBuffer
  | .input, some w => .inValue w

/-- A declared parameter as an argument. -/
def Parameter.argument (p : Parameter) : Argument := ⟨p.name, p.type, p.passing, false⟩

/-- The arguments of a function: its parameters, then its result. -/
def Function.arguments (f : Function) : List Argument :=
  f.parameters.map (·.argument) ++
    (f.returns.map fun t => (⟨Naming.resultSlot, t, .outBuffer, true⟩ : Argument)).toList

namespace Argument

/-- Whether the argument is filled by the call. -/
def isFilled (a : Argument) : Bool := a.passing == .outBuffer

end Argument

/-! ## Slots -/

/-- What one position of the native argument list holds. -/
inductive SlotKind where
  | inPointer
  | outPointer
  | length
  | value (width : Width)
  deriving DecidableEq, Repr

/-- One position of the native argument list. -/
structure Slot where
  name : String
  kind : SlotKind
  /-- The argument that the slot belongs to. -/
  argument : Argument
  deriving DecidableEq, Repr

/-- The positions of one argument. -/
def Argument.slots (a : Argument) : List Slot :=
  match a.passing with
  | .inValue w => [⟨a.name, .value w, a⟩]
  | .inBuffer => [⟨a.name, .inPointer, a⟩, ⟨Naming.lengthSlot a.name, .length, a⟩]
  | .outBuffer => [⟨a.name, .outPointer, a⟩, ⟨Naming.lengthSlot a.name, .length, a⟩]

/-- The native argument list of a function. -/
def Function.slots (f : Function) : List Slot := f.arguments.flatMap (·.slots)

/-! ## Spellings of the boundary types -/

namespace Width

/-- The unsigned number type of Rust. -/
def rust : Width → String
  | one => "u8"
  | two => "u16"
  | four => "u32"
  | eight => "u64"

/-- The unsigned number type of C. -/
def c : Width → String
  | one => "uint8_t"
  | two => "uint16_t"
  | four => "uint32_t"
  | eight => "uint64_t"

/-- The Java type that carries the width. -/
def java : Width → String
  | eight => "long"
  | _ => "int"

/-- The native spelling of the Java type that carries the width. -/
def jni : Width → String
  | eight => "jlong"
  | _ => "jint"

/-- The unsigned number type of Swift. -/
def swift : Width → String
  | one => "UInt8"
  | two => "UInt16"
  | four => "UInt32"
  | eight => "UInt64"

end Width

namespace SlotKind

/-- The Rust type of a slot. -/
def rust : SlotKind → String
  | inPointer => "*const u8"
  | outPointer => "*mut u8"
  | length => "u32"
  | value w => w.rust

/-- The C type of a slot. -/
def c : SlotKind → String
  | inPointer => "const uint8_t *"
  | outPointer => "uint8_t *"
  | length => "uint32_t"
  | value w => w.c

/-- A C declaration of a slot: the star of a pointer stands at the name. -/
def declareC (k : SlotKind) (name : String) : String :=
  match k with
  | inPointer => k.c ++ name
  | outPointer => k.c ++ name
  | _ => k.c ++ " " ++ name

end SlotKind

namespace Passing

/-- The Java type of an argument of a native method. -/
def java : Passing → String
  | inValue w => w.java
  | _ => "byte[]"

/-- The native spelling of the Java type of an argument. -/
def jni : Passing → String
  | inValue w => w.jni
  | _ => "jbyteArray"

end Passing

namespace TypeDef

/-- The Java type of a value, outside the boundary. -/
def javaValue (t : TypeDef) : String :=
  match t.shape with
  | .scalar w => w.java
  | _ => t.name

/-- The Swift type of a value, outside the boundary. -/
def swiftValue (t : TypeDef) : String :=
  match t.shape with
  | .scalar w => w.swift
  | _ => t.name

end TypeDef

end Bindery
