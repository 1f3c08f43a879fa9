/-
  STRINGS OF JAVA: what a literal in the text of a file stands for.

  Java reads a line twice.  First it puts a code unit for every `\u` with four hexadecimal digits, wherever
  that stands (`unescape`); then it reads a literal from the quote that opens it to the one that closes it,
  with escapes of its own (`readString`).  Texts are code units of UTF-16 for it.

  Neither reading makes a text longer, and to be as long as before it must not have met a backslash
  (`eq_of_unescape`, `eq_of_readString`).  So a text that is put between quotes comes out of the literal as it
  was, with all that stands behind, exactly if it has no quote, no backslash and no line break
  (`argument?_eq_iff`).
-/
namespace Bindery.Java

/-! ## Code units -/

/-- The code units of a character. -/
def units (c : Char) : List Nat :=
  if c.toNat < 0x10000 then [c.toNat]
  else [0xD800 + (c.toNat - 0x10000) / 0x400, 0xDC00 + (c.toNat - 0x10000) % 0x400]

/-- The code units of a text. -/
def unitsOf (text : String) : List Nat := text.toList.flatMap units

/-- The unit that opens and closes a literal. -/
def quote : Nat := 0x22

/-- The unit that escapes begin with. -/
def backslash : Nat := 0x5C

/-- The unit that ends a line. -/
def lineFeed : Nat := 0x0A

/-- The other unit that ends a line. -/
def carriageReturn : Nat := 0x0D

/-- The characters that no literal has as themselves. -/
def stops : List Char := ['"', '\\', '\n', '\r']

/-- `StandsForItself u` — a literal may have the unit as it is. -/
def StandsForItself (u : Nat) : Prop :=
  u ≠ quote ∧ u ≠ backslash ∧ u ≠ lineFeed ∧ u ≠ carriageReturn

theorem unitsOf_append (a b : String) : unitsOf (a ++ b) = unitsOf a ++ unitsOf b := by
  unfold unitsOf
  rw [String.toList_append, List.flatMap_append]

/-- No unit of a pair is one of a character by itself. -/
theorem mem_units {c : Char} {u : Nat} (hu : u < 0xD800) : u ∈ units c ↔ c.toNat = u := by
  unfold units
  split
  · rw [List.mem_singleton]
    exact eq_comm
  · simp only [List.mem_cons, List.not_mem_nil, or_false]
    omega

theorem standsForItself_units {c : Char} : (∀ u ∈ units c, StandsForItself u) ↔ c ∉ stops := by
  have hchar : ∀ d : Char, c = d ↔ c.toNat = d.toNat := fun d =>
    ⟨congrArg Char.toNat, fun h => Char.toNat_inj.1 h⟩
  have hstops : c ∈ stops ↔ c.toNat = quote ∨ c.toNat = backslash ∨ c.toNat = lineFeed ∨
      c.toNat = carriageReturn := by
    simp only [stops, List.mem_cons, List.not_mem_nil, or_false, hchar]
    rfl
  rw [hstops]
  constructor
  · intro h hstop
    rcases hstop with hc | hc | hc | hc
    · exact (h _ ((mem_units (by decide)).2 hc)).1 rfl
    · exact (h _ ((mem_units (by decide)).2 hc)).2.1 rfl
    · exact (h _ ((mem_units (by decide)).2 hc)).2.2.1 rfl
    · exact (h _ ((mem_units (by decide)).2 hc)).2.2.2 rfl
  · intro h u hu
    simp only [not_or] at h
    obtain ⟨hquote, hbackslash, hfeed, hreturn⟩ := h
    refine ⟨?_, ?_, ?_, ?_⟩
    · rintro rfl
      exact hquote ((mem_units (by decide)).1 hu)
    · rintro rfl
      exact hbackslash ((mem_units (by decide)).1 hu)
    · rintro rfl
      exact hfeed ((mem_units (by decide)).1 hu)
    · rintro rfl
      exact hreturn ((mem_units (by decide)).1 hu)

theorem standsForItself_unitsOf {text : String} :
    (∀ u ∈ unitsOf text, StandsForItself u) ↔ ∀ c ∈ stops, c ∉ text.toList := by
  have hall : (∀ u ∈ unitsOf text, StandsForItself u) ↔ ∀ c ∈ text.toList, c ∉ stops := by
    unfold unitsOf
    rw [List.forall_mem_flatMap]
    exact forall₂_congr fun c _ => standsForItself_units
  rw [hall]
  exact ⟨fun h c hc hmem => h c hmem hc, fun h c hmem hc => h c hc hmem⟩

/-! ## Units by their digits -/

/-- Where the first reading stands. -/
inductive Escape where
  | outside
  /-- Behind a backslash that may begin an escape. -/
  | begun
  /-- Behind a backslash and its letters. -/
  | marked
  /-- Behind digits with this value; so many are to come behind the next. -/
  | digits (value left : Nat)

/-- The value of a hexadecimal digit. -/
def hexDigit? (u : Nat) : Option Nat :=
  if 0x30 ≤ u ∧ u ≤ 0x39 then some (u - 0x30)
  else if 0x41 ≤ u ∧ u ≤ 0x46 then some (u - 0x41 + 10)
  else if 0x61 ≤ u ∧ u ≤ 0x66 then some (u - 0x61 + 10)
  else none

/-- What is known of the text before the next unit is read. -/
def Escape.held : Escape → List Nat
  | begun => [backslash]
  | _ => []

/-- A unit outside of escapes. -/
def outsideStep (u : Nat) : List Nat × Escape :=
  if u = backslash then ([], .begun) else ([u], .outside)

/-- A unit behind a backslash; another backslash begins no escape. -/
def begunStep (u : Nat) : List Nat × Escape :=
  if u = 0x75 then ([], .marked) else ([backslash, u], .outside)

/-- A unit behind the letters of an escape. -/
def markedStep? (u : Nat) : Option (List Nat × Escape) :=
  if u = 0x75 then some ([], .marked) else (hexDigit? u).map fun d => ([], .digits d 2)

/-- A digit behind digits; the last one makes a unit of them. -/
def digitStep (value left d : Nat) : List Nat × Escape :=
  match left with
  | 0 => ([16 * value + d], .outside)
  | left + 1 => ([], .digits (16 * value + d) left)

/-- What becomes of a unit where the reading stands. -/
def Escape.step : Escape → Nat → Option (List Nat × Escape)
  | outside, u => some (outsideStep u)
  | begun, u => some (begunStep u)
  | marked, u => markedStep? u
  | digits value left, u => (hexDigit? u).map (digitStep value left)

/-- The first reading; an escape that does not end is refused. -/
def unescape : Escape → List Nat → Option (List Nat)
  | .outside, [] => some []
  | .begun, [] => some [backslash]
  | _, [] => none
  | e, u :: us => (e.step u).bind fun x => (unescape x.2 us).map (x.1 ++ ·)

section

variable {e next : Escape} {u : Nat} {us vs out : List Nat}

theorem unescape_cons (e : Escape) (u : Nat) (us : List Nat) :
    unescape e (u :: us) = (e.step u).bind fun x => (unescape x.2 us).map (x.1 ++ ·) := by
  cases e <;> rfl

/-- A step adds no more than one unit for the one that was read. -/
theorem length_step (h : e.step u = some (out, next)) :
    out.length + next.held.length ≤ e.held.length + 1 := by
  cases e with
  | outside =>
    have hstep : outsideStep u = (out, next) := Option.some.inj h
    unfold outsideStep at hstep
    split at hstep <;> cases hstep
    · exact Nat.le_refl 1
    · exact Nat.le_refl 1
  | begun =>
    have hstep : begunStep u = (out, next) := Option.some.inj h
    unfold begunStep at hstep
    split at hstep <;> cases hstep
    · exact Nat.zero_le 2
    · exact Nat.le_refl 2
  | marked =>
    have hstep : markedStep? u = some (out, next) := h
    unfold markedStep? at hstep
    split at hstep
    · cases hstep
      exact Nat.zero_le 1
    · obtain ⟨d, _, heq⟩ := Option.map_eq_some_iff.1 hstep
      cases heq
      exact Nat.zero_le 1
  | digits value left =>
    obtain ⟨d, _, hstep⟩ := Option.map_eq_some_iff.1 h
    unfold digitStep at hstep
    split at hstep <;> cases hstep
    · exact Nat.le_refl 1
    · exact Nat.zero_le 1

/-- Outside of escapes a step keeps what was read, or it begins an escape and loses some. -/
theorem step_keeps (he : e = .outside ∨ e = .begun) (h : e.step u = some (out, next)) :
    (out ++ next.held = e.held ++ [u] ∧ (next = .outside ∨ next = .begun)) ∨
      out.length + next.held.length ≤ e.held.length := by
  rcases he with rfl | rfl
  · have hstep : outsideStep u = (out, next) := Option.some.inj h
    unfold outsideStep at hstep
    split at hstep <;> cases hstep
    · rename_i hu
      exact Or.inl ⟨congrArg (fun u => [u]) hu.symm, Or.inr rfl⟩
    · exact Or.inl ⟨rfl, Or.inl rfl⟩
  · have hstep : begunStep u = (out, next) := Option.some.inj h
    unfold begunStep at hstep
    split at hstep <;> cases hstep
    · exact Or.inr (Nat.zero_le 1)
    · exact Or.inl ⟨rfl, Or.inl rfl⟩

/-- The first reading makes no text longer. -/
theorem length_unescape (h : unescape e us = some vs) : vs.length ≤ e.held.length + us.length := by
  induction us generalizing e vs with
  | nil =>
    cases e with
    | outside => cases h; decide
    | begun => cases h; decide
    | _ => nomatch h
  | cons u us ih =>
    rw [unescape_cons] at h
    obtain ⟨⟨out, next⟩, hstep, h⟩ := Option.bind_eq_some_iff.1 h
    dsimp only at h
    obtain ⟨ws, hws, rfl⟩ := Option.map_eq_some_iff.1 h
    have hout := length_step hstep
    have hrest := ih hws
    rw [List.length_append, List.length_cons]
    omega

/-- A text that stays as long has no such escape. -/
theorem eq_of_unescape (he : e = .outside ∨ e = .begun) (h : unescape e us = some vs)
    (hlength : vs.length = e.held.length + us.length) : vs = e.held ++ us := by
  induction us generalizing e vs with
  | nil =>
    rcases he with rfl | rfl
    · cases h
      rfl
    · cases h
      rfl
  | cons u us ih =>
    rw [unescape_cons] at h
    obtain ⟨⟨out, next⟩, hstep, h⟩ := Option.bind_eq_some_iff.1 h
    dsimp only at h
    obtain ⟨ws, hws, rfl⟩ := Option.map_eq_some_iff.1 h
    have hrest := length_unescape hws
    rw [List.length_append, List.length_cons] at hlength
    rcases step_keeps he hstep with ⟨hkept, hnext⟩ | hlost
    · have hcount := congrArg List.length hkept
      rw [List.length_append, List.length_append, List.length_singleton] at hcount
      have hsame := ih hnext hws (by omega)
      calc out ++ ws = out ++ (next.held ++ us) := by rw [hsame]
        _ = (out ++ next.held) ++ us := (List.append_assoc ..).symm
        _ = (e.held ++ [u]) ++ us := by rw [hkept]
        _ = e.held ++ u :: us := List.append_assoc ..
    · omega

/-- A text without a backslash is read as it is. -/
theorem unescape_plain (h : backslash ∉ us) : unescape .outside us = some us := by
  induction us with
  | nil => rfl
  | cons u us ih =>
    rw [List.mem_cons, not_or] at h
    have hstep : Escape.outside.step u = some ([u], .outside) := congrArg some (if_neg (Ne.symm h.1))
    rw [unescape_cons, hstep, Option.bind_some, ih h.2]
    rfl

end

/-! ## Literals -/

/-- Where the second reading stands. -/
inductive Reading where
  | plain
  /-- Behind a backslash. -/
  | escaped
  /-- Behind octal digits with this value, of which so many may follow. -/
  | octal (value left : Nat)

/-- What becomes of a unit. -/
inductive Step where
  | refused
  /-- The literal ends; what is added to its value. -/
  | closed (out : List Nat)
  | goesOn (out : List Nat) (next : Reading)

/-- The letters that stand for a unit behind a backslash: `b`, `s`, `t`, `n`, `f`, `r`, the two quotes and the
backslash. -/
def letters : List (Nat × Nat) :=
  [(0x62, 0x08), (0x73, 0x20), (0x74, 0x09), (0x6E, 0x0A), (0x66, 0x0C), (0x72, 0x0D), (0x22, 0x22),
    (0x27, 0x27), (0x5C, 0x5C)]

/-- The value of an octal digit. -/
def octalDigit? (u : Nat) : Option Nat := if 0x30 ≤ u ∧ u ≤ 0x37 then some (u - 0x30) else none

/-- A unit outside of escapes. -/
def plainStep (u : Nat) : Step :=
  if u = quote then .closed []
  else if u = lineFeed ∨ u = carriageReturn then .refused
  else if u = backslash then .goesOn [] .escaped
  else .goesOn [u] .plain

/-- The step, with a unit of the value in front. -/
def Step.behind (v : Nat) : Step → Step
  | refused => .refused
  | closed out => .closed (v :: out)
  | goesOn out next => .goesOn (v :: out) next

/-- A unit behind a backslash.  Octal escapes have three digits at most, and only two where the first is
above three. -/
def escapedStep (u : Nat) : Step :=
  match octalDigit? u with
  | some d => .goesOn [] (.octal d (if d ≤ 3 then 2 else 1))
  | none => ((letters.lookup u).map fun v => Step.goesOn [v] .plain).getD .refused

/-- A unit behind octal digits. -/
def octalStep (value left u : Nat) : Step :=
  match octalDigit? u, left with
  | some d, left + 1 => .goesOn [] (.octal (8 * value + d) left)
  | _, _ => (plainStep u).behind value

/-- What becomes of a unit where the reading stands. -/
def Reading.step : Reading → Nat → Step
  | plain => plainStep
  | escaped => escapedStep
  | octal value left => octalStep value left

/-- The second reading, behind the quote that opens the literal: its value, and what stands behind the
quote that closes it. -/
def readString : Reading → List Nat → Option (List Nat × List Nat)
  | _, [] => none
  | r, u :: us =>
    match r.step u with
    | .refused => none
    | .closed out => some (out, us)
    | .goesOn out next => (readString next us).map fun x => (out ++ x.1, x.2)

/-- So many units of the value are still to be added. -/
def Reading.owed : Reading → Nat
  | octal _ _ => 1
  | _ => 0

/-- `r.Bounded step` — the step adds no more than one unit for the one that was read, besides those that
were still to be added. -/
def Reading.Bounded (r : Reading) : Step → Prop
  | .refused => True
  | .closed out => out.length ≤ r.owed
  | .goesOn out next => out.length + next.owed ≤ r.owed + 1

theorem bounded_plainStep (u : Nat) : Reading.plain.Bounded (plainStep u) := by
  unfold plainStep
  split
  · exact Nat.le_refl _
  · split
    · trivial
    · split
      · exact Nat.zero_le _
      · exact Nat.le_refl _

theorem bounded_escapedStep (u : Nat) : Reading.escaped.Bounded (escapedStep u) := by
  unfold escapedStep
  split
  · exact Nat.le_refl _
  · cases letters.lookup u with
    | none => trivial
    | some v => exact Nat.le_refl _

theorem Reading.Bounded.behind {step : Step} (h : Reading.plain.Bounded step) (value left : Nat) :
    (Reading.octal value left).Bounded (step.behind value) := by
  cases step with
  | refused => trivial
  | closed out =>
    exact Nat.succ_le_succ h
  | goesOn out next =>
    simp only [Reading.Bounded, Step.behind, Reading.owed, List.length_cons] at h ⊢
    omega

theorem bounded_step (r : Reading) (u : Nat) : r.Bounded (r.step u) := by
  cases r with
  | plain => exact bounded_plainStep u
  | escaped => exact bounded_escapedStep u
  | octal value left =>
    show (Reading.octal value left).Bounded (octalStep value left u)
    unfold octalStep
    split
    · exact Nat.le_succ _
    · exact (bounded_plainStep u).behind value _

/-- The second reading makes no text longer. -/
theorem length_readString {r : Reading} {us value rest : List Nat}
    (h : readString r us = some (value, rest)) :
    value.length + 1 + rest.length ≤ r.owed + us.length := by
  induction us generalizing r value with
  | nil =>
    unfold readString at h
    nomatch h
  | cons u us ih =>
    have hbounded := bounded_step r u
    unfold readString at h
    cases hstep : r.step u with
    | refused =>
      rw [hstep] at h
      nomatch h
    | closed out =>
      rw [hstep] at h hbounded
      cases h
      simp only [Reading.Bounded, List.length_cons] at hbounded ⊢
      omega
    | goesOn out next =>
      rw [hstep] at h hbounded
      obtain ⟨⟨more, behind⟩, hmore, heq⟩ := Option.map_eq_some_iff.1 h
      cases heq
      have hrest : more.length + 1 + behind.length ≤ next.owed + us.length := ih hmore
      have hout : out.length + next.owed ≤ r.owed + 1 := hbounded
      rw [List.length_append, List.length_cons]
      dsimp only
      omega

/-- A literal that is as long as its value has no escapes. -/
theorem eq_of_readString {us value rest : List Nat} (h : readString .plain us = some (value, rest))
    (hlength : value.length + 1 + rest.length = us.length) :
    us = value ++ quote :: rest ∧ ∀ u ∈ value, StandsForItself u := by
  induction us generalizing value with
  | nil =>
    unfold readString at h
    nomatch h
  | cons u us ih =>
    have hstep : Reading.plain.step u = plainStep u := rfl
    unfold readString at h
    rw [hstep, plainStep] at h
    by_cases hquote : u = quote
    · rw [if_pos hquote] at h
      cases h
      exact ⟨congrArg (· :: rest) hquote, fun _ h => (nomatch h)⟩
    rw [if_neg hquote] at h
    by_cases hend : u = lineFeed ∨ u = carriageReturn
    · rw [if_pos hend] at h
      nomatch h
    rw [if_neg hend] at h
    by_cases hbackslash : u = backslash
    · rw [if_pos hbackslash] at h
      obtain ⟨⟨more, behind⟩, hmore, heq⟩ := Option.map_eq_some_iff.1 h
      dsimp only at heq
      obtain ⟨rfl, rfl⟩ := Prod.mk.inj heq
      -- The backslash itself leaves nothing behind.
      have hshorter : more.length + 1 + behind.length ≤ 0 + us.length := length_readString hmore
      rw [List.nil_append, List.length_cons] at hlength
      omega
    · rw [if_neg hbackslash] at h
      obtain ⟨⟨more, behind⟩, hmore, heq⟩ := Option.map_eq_some_iff.1 h
      dsimp only at heq
      obtain ⟨rfl, rfl⟩ := Prod.mk.inj heq
      rw [List.singleton_append, List.length_cons, List.length_cons] at hlength
      obtain ⟨rfl, hitself⟩ := ih hmore (by omega)
      exact ⟨rfl, List.forall_mem_cons.2 ⟨⟨hquote, hbackslash, not_or.1 hend⟩, hitself⟩⟩

/-- What stands for itself is read as it is. -/
theorem readString_append {value : List Nat} (h : ∀ u ∈ value, StandsForItself u) (rest : List Nat) :
    readString .plain (value ++ quote :: rest) = some (value, rest) := by
  induction value with
  | nil => rfl
  | cons u value ih =>
    obtain ⟨⟨hquote, hbackslash, hfeed, hreturn⟩, hvalue⟩ := List.forall_mem_cons.1 h
    have hstep : Reading.plain.step u = .goesOn [u] .plain := by
      show plainStep u = _
      rw [plainStep, if_neg hquote, if_neg (not_or.2 ⟨hfeed, hreturn⟩), if_neg hbackslash]
    rw [List.cons_append, readString, hstep]
    dsimp only
    rw [ih hvalue]
    rfl

/-! ## Arguments -/

/-- The string that a line has first: its value, and what stands behind it. -/
def argument? (text : String) : Option (List Nat × List Nat) :=
  (unescape .outside ((unitsOf text).takeWhile (· != lineFeed))).bind fun
    | [] => none
    | u :: us => if u = quote then readString .plain us else none

/-- The units of a line that is left with a text between quotes. -/
def quotedLine (value : List Nat) : List Nat := quote :: (value ++ quote :: unitsOf ");")

theorem unitsOf_quotedLine (text back : String) : unitsOf ("\"" ++ text ++ "\");\n" ++ back) =
    quotedLine (unitsOf text) ++ lineFeed :: unitsOf back := by
  simp only [unitsOf_append, quotedLine]
  show [quote] ++ unitsOf text ++ (quote :: unitsOf ");" ++ [lineFeed]) ++ unitsOf back = _
  simp only [List.cons_append, List.nil_append, List.append_assoc]

theorem notMem_quotedLine {value : List Nat} {u : Nat} (h : u ∉ value) (hu : u ∉ quote :: unitsOf ");") :
    u ∉ quotedLine value := by
  rw [quotedLine, List.mem_cons, List.mem_append, not_or, not_or]
  exact ⟨List.ne_of_not_mem_cons hu, h, hu⟩

/-- The line ends where it is left, or before. -/
theorem takeWhile_quotedLine (value after : List Nat) :
    (quotedLine value ++ lineFeed :: after).takeWhile (· != lineFeed) <+: quotedLine value := by
  rw [List.takeWhile_append]
  split
  · exact ⟨[], by simp⟩
  · exact List.takeWhile_prefix _

/-- The string that the line has first, with all that is behind it. -/
theorem argument_of_standsForItself {value : List Nat} (h : ∀ u ∈ value, StandsForItself u)
    (after : List Nat) :
    ((quotedLine value ++ lineFeed :: after).takeWhile (· != lineFeed) = quotedLine value) ∧
      unescape .outside (quotedLine value) = some (quotedLine value) ∧
      readString .plain (value ++ quote :: unitsOf ");") = some (value, unitsOf ");") := by
  have hline : ∀ u ∈ quotedLine value, (u != lineFeed) = true := fun u hu =>
    bne_iff_ne.2 fun heq => notMem_quotedLine (fun hv => (h _ hv).2.2.1 rfl) (by decide) (heq ▸ hu)
  refine ⟨?_, unescape_plain (notMem_quotedLine (fun hv => (h _ hv).2.1 rfl) (by decide)),
    readString_append h _⟩
  rw [List.takeWhile_append_of_pos hline, List.takeWhile_cons_of_neg (by decide), List.append_nil]

/-- What comes out whole has lost nothing on the way, so it stands for itself. -/
theorem standsForItself_of_read {value line us : List Nat} (hline : line <+: quotedLine value)
    (hus : unescape .outside line = some (quote :: us))
    (h : readString .plain us = some (value, unitsOf ");")) : ∀ u ∈ value, StandsForItself u := by
  have hread := length_readString h
  have hshort := length_unescape hus
  have hlength : (quotedLine value).length = value.length + (unitsOf ");").length + 2 := by
    simp only [quotedLine, List.length_cons, List.length_append, Nat.add_assoc]
  simp only [Escape.held, Reading.owed, List.length_cons, List.length_nil] at hread hshort
  obtain rfl := hline.eq_of_length_le (by omega)
  have hsame := eq_of_unescape (Or.inl rfl) hus (by
    simp only [Escape.held, List.length_cons, List.length_nil]
    omega)
  obtain rfl : us = value ++ quote :: unitsOf ");" := (List.cons.inj hsame).2
  exact (eq_of_readString h (by simp only [List.length_append, List.length_cons]; omega)).2

/-- **A text between quotes** is an argument by itself, with its own value, exactly if it has no quote, no
backslash and no line break. -/
theorem argument?_eq_iff (text back : String) :
    argument? ("\"" ++ text ++ "\");\n" ++ back) = some (unitsOf text, unitsOf ");") ↔
      ∀ c ∈ stops, c ∉ text.toList := by
  rw [← standsForItself_unitsOf, argument?, unitsOf_quotedLine]
  constructor
  · intro h
    obtain ⟨us, hus, h⟩ := Option.bind_eq_some_iff.1 h
    cases us with
    | nil => nomatch h
    | cons u us =>
      dsimp only at h
      split at h
      · rename_i hquote
        subst hquote
        exact standsForItself_of_read (takeWhile_quotedLine _ _) hus h
      · nomatch h
  · intro h
    obtain ⟨hline, hplain, hread⟩ := argument_of_standsForItself h (unitsOf back)
    rw [hline, hplain]
    exact hread

end Bindery.Java
