/-
  THE ERROR TABLE: the numeric codes that every layer of the bindings shares.

  The numbers are part of the native interface: an entry keeps its number forever, and new entries
  are only appended.  A table is in the order of its numbers; names, numbers and the error
  variants of the wrapped library are distinct, and number zero is there and means success.
-/

namespace Bindery

/-- One numbered outcome of a call. -/
structure ErrorCode where
  name : String
  value : Int
  description : String
  /-- The error variants of the wrapped library that are reported by this number. -/
  libraryVariants : List String
  /-- The Java exception that is thrown for it. -/
  javaException : Option String
  /-- The case of the Swift error type. -/
  swiftCase : Option String
  deriving DecidableEq, Repr, Inhabited

namespace ErrorCode

/-- The constant for the number in Rust, C and Java. -/
def constant (c : ErrorCode) : String := "FFI_RETURN_" ++ c.name

/-- Whether the number means success. -/
def isOk (c : ErrorCode) : Bool := c.value == 0

/-- The text for a name that is not given. -/
def absentName : String := "None"

/-- The Java exception as text. -/
def exceptionName (c : ErrorCode) : String := c.javaException.getD absentName

/-- The Swift case as text. -/
def caseName (c : ErrorCode) : String := c.swiftCase.getD absentName

/-! ## The order of numbers -/

/-- Puts a code in front of the first one with a greater number. -/
def insert (c : ErrorCode) : List ErrorCode → List ErrorCode
  | [] => [c]
  | d :: ds => if c.value ≤ d.value then c :: d :: ds else d :: insert c ds

/-- Codes in the order of their numbers. -/
def sort : List ErrorCode → List ErrorCode
  | [] => []
  | c :: cs => insert c (sort cs)

theorem insert_perm (c : ErrorCode) (cs : List ErrorCode) : (insert c cs).Perm (c :: cs) := by
  induction cs with
  | nil => exact .refl _
  | cons d ds ih =>
    unfold insert
    split
    · exact .refl _
    · exact (ih.cons d).trans (.swap c d ds)

theorem sort_perm (cs : List ErrorCode) : (sort cs).Perm cs := by
  induction cs with
  | nil => exact .refl _
  | cons c cs ih => exact (insert_perm c (sort cs)).trans (ih.cons c)

theorem insert_pairwise (c : ErrorCode) {cs : List ErrorCode}
    (h : cs.Pairwise fun a b => a.value < b.value) (hc : ∀ d ∈ cs, c.value ≠ d.value) :
    (insert c cs).Pairwise fun a b => a.value < b.value := by
  induction cs with
  | nil => simp [insert]
  | cons d ds ih =>
    obtain ⟨hd, hds⟩ := List.pairwise_cons.1 h
    have hcd : c.value ≠ d.value := hc d (by simp)
    unfold insert
    split
    · rename_i hle
      refine List.pairwise_cons.2 ⟨fun e he => ?_, h⟩
      rcases List.mem_cons.1 he with rfl | he
      · omega
      · have := hd e he
        omega
    · rename_i hle
      refine List.pairwise_cons.2 ⟨fun e he => ?_, ih hds fun e he => hc e (by simp [he])⟩
      rcases List.mem_cons.1 ((insert_perm c ds).mem_iff.1 he) with rfl | he
      · omega
      · exact hd e he

theorem sort_pairwise {cs : List ErrorCode} (h : (cs.map (·.value)).Nodup) :
    (sort cs).Pairwise fun a b => a.value < b.value := by
  induction cs with
  | nil => exact .nil
  | cons c cs ih =>
    obtain ⟨hc, hcs⟩ := List.nodup_cons.1 h
    refine insert_pairwise c (ih hcs) fun d hd => ?_
    intro he
    exact hc (List.mem_map.2 ⟨d, (sort_perm cs).mem_iff.1 hd, he.symm⟩)

end ErrorCode

/-- A table of error codes. -/
structure ErrorTable where
  codes : List ErrorCode
  /-- Numbers ascend, so they are distinct. -/
  ascending : codes.Pairwise fun a b => a.value < b.value
  /-- Names are distinct. -/
  names : (codes.map (·.name)).Nodup
  /-- No library variant has two numbers. -/
  variants : (codes.flatMap (·.libraryVariants)).Nodup
  /-- Success has a number. -/
  zero : (codes.find? (·.isOk)).isSome

/-- Why codes do not make a table. -/
inductive TableFault where
  | repeatedCode
  | noZero
  | repeatedVariant
  deriving DecidableEq, Repr

/-- The message for a fault. -/
def TableFault.message : TableFault → String
  | repeatedCode => "error codes must have unique names and values"
  | noZero => "error code table needs an OK entry with value 0"
  | repeatedVariant => "a library error variant maps to more than one code"

namespace ErrorTable

/-- The table of the given codes. -/
def ofList (cs : List ErrorCode) : Except TableFault ErrorTable :=
  if h : (cs.map (·.value)).Nodup ∧ (cs.map (·.name)).Nodup then
    if hz : (cs.find? (·.isOk)).isSome then
      if hv : (cs.flatMap (·.libraryVariants)).Nodup then
        .ok {
          codes := ErrorCode.sort cs
          ascending := ErrorCode.sort_pairwise h.1
          names := ((ErrorCode.sort_perm cs).map _).nodup_iff.2 h.2
          variants := ((ErrorCode.sort_perm cs).flatMap_right _).nodup_iff.2 hv
          zero := by
            rw [List.find?_isSome] at hz ⊢
            obtain ⟨c, hc, hok⟩ := hz
            exact ⟨c, (ErrorCode.sort_perm cs).mem_iff.2 hc, hok⟩ }
      else .error .repeatedVariant
    else .error .noZero
  else .error .repeatedCode

/-- The entry with the given name. -/
def find? (t : ErrorTable) (name : String) : Option ErrorCode := t.codes.find? (·.name == name)

/-- The entry for success. -/
def ok (t : ErrorTable) : ErrorCode := (t.codes.find? (·.isOk)).get t.zero

/-- Every entry but the one for success. -/
def failures (t : ErrorTable) : List ErrorCode := t.codes.filter (!·.isOk)

/-- The names of the Java exceptions, each once, in the order of the table. -/
def javaExceptions (t : ErrorTable) : List String :=
  t.failures.foldl (fun names c =>
    match c.javaException with
    | some e => if e.isEmpty || names.contains e then names else names ++ [e]
    | none => names) []

/-! ## Entries that the bindings rely on -/

/-- The name of the entry for arguments that are refused. -/
def invalidInputName : String := "INVALID_INPUT"

/-- The name of the entry for failures inside the library. -/
def internalErrorName : String := "INTERNAL_ERROR"

/-- The entry for arguments that are refused. -/
def invalidInput? (t : ErrorTable) : Option ErrorCode := t.find? invalidInputName

/-- The entry for failures inside the library. -/
def internalError? (t : ErrorTable) : Option ErrorCode := t.find? internalErrorName

/-! ## The table in use -/

/-- The codes that the bindings use unless told otherwise. -/
def standardCodes : List ErrorCode := [
  ⟨"OK", 0, "Success", [], none, none⟩,
  ⟨"INTERNAL_ERROR", 1, "Unexpected failure inside the native library", [],
    some "ZkGroupException", some "internalError"⟩,
  ⟨"INVALID_INPUT", 2, "Argument of the wrong length, null pointer or bad enum value",
    ["BadArgs"], some "InvalidInputException", some "invalidInput"⟩,
  ⟨"DECRYPTION_FAILED", 3, "Ciphertext did not decrypt",
    ["DecryptionFailure"], some "VerificationFailedException", some "decryptionFailed"⟩,
  ⟨"MAC_VERIFICATION_FAILED", 4, "Credential MAC did not verify",
    ["MacVerificationFailure"], some "VerificationFailedException",
    some "macVerificationFailed"⟩,
  ⟨"PROOF_VERIFICATION_FAILED", 5, "Zero-knowledge proof did not verify",
    ["ProofVerificationFailure"], some "VerificationFailedException",
    some "proofVerificationFailed"⟩,
  ⟨"SIGNATURE_VERIFICATION_FAILED", 6, "Signature did not verify",
    ["SignatureVerificationFailure"], some "VerificationFailedException",
    some "signatureVerificationFailed"⟩,
  ⟨"POINT_DECODE_FAILED", 7, "Bytes do not encode a valid group element",
    ["PointDecodeFailure"], some "InvalidInputException", some "pointDecodeFailed"⟩]

/-- The table that the bindings use unless told otherwise. -/
def standard : ErrorTable where
  codes := standardCodes
  ascending := by decide
  names := by decide
  variants := by decide
  zero := by decide

end ErrorTable

end Bindery
