/-
  SYMBOLS ARE DISTINCT, and the ones that are looked for.

  Each symbol puts declared names one after the other, and the names can be told apart again: no
  module has an underscore or a capital in its name, and every function starts with a small letter
  that becomes a capital (`coreSymbol_parts`, `nativeMethod_parts`).

  The native symbol is what the virtual machine makes of class and method, character by character
  (`jniName`).  A dot and an underscore both become something with an underscore in front, and what
  keeps them apart is that a dot is never followed by a digit (`DotBeforeName`); so packages and
  functions can be read off the symbol, too (`nativeSymbol_parts`).
-/
import Mathlib.Data.List.Chain
import Bindery.Proofs.Target.Emission
import Bindery.Proofs.Text.Cutting

namespace Bindery

open Naming Source

/-! ## Names that are put together -/

theorem Naming.not_isUpper_of_isModuleName {name : String} (h : isModuleName name = true) :
    ∀ c ∈ name.toList, c.isUpper = false := by
  have hlower : ∀ {c : Char}, c.isLower = true → c.isUpper = false := fun hc => by
    rw [Bool.eq_false_iff]
    exact Char.not_isUpper_of_isLower hc
  have hdigit : ∀ {c : Char}, c.isDigit = true → c.isUpper = false := by
    intro c hc
    rw [Bool.eq_false_iff]
    intro hu
    simp only [Char.isDigit, Char.isUpper, Bool.and_eq_true, decide_eq_true_eq, ge_iff_le,
      UInt32.le_iff_toNat_le] at hc hu
    exact absurd (hu.1.trans hc.2) (by decide)
  unfold isModuleName spelled at h
  cases hn : name.toList with
  | nil => exact fun c hc => nomatch hc
  | cons c s =>
    rw [hn, spelledChars, Bool.and_eq_true, List.all_eq_true] at h
    refine List.forall_mem_cons.2 ⟨hlower h.1, fun d hd => ?_⟩
    rcases (Bool.or_eq_true _ _).mp (h.2 d hd) with hd | hd
    · exact hlower hd
    · exact hdigit hd

/-- A member with its first letter as a capital. -/
theorem Naming.capitalize_of_isMemberName {name : String} (h : isMemberName name = true) :
    ∃ c s, name.toList = c :: s ∧ c.isLower = true ∧ (capitalize name).toList = c.toUpper :: s := by
  have hplain := plain_of_isMemberName h
  unfold isMemberName spelled at h
  cases hn : name.toList with
  | nil =>
    rw [hn] at h
    nomatch h
  | cons c s =>
    rw [hn] at h hplain
    rw [spelledChars, Bool.and_eq_true] at h
    have hascii := toNat_lt_of_isAlphanum (hplain c List.mem_cons_self)
    exact ⟨c, s, rfl, h.1, capitalize_toList hn hascii⟩

/-! ## Functions and their names -/

/-- Names that a function of an API has, each of its kind. -/
structure Function.Spelled (f : Function) : Prop where
  module : ModuleSpelled f.module
  name : MemberNamed f.name

namespace Function

variable {f g : Function}

theorem Spelled.named (h : f.Spelled) : f.Named :=
  ⟨plain_of_isModuleName h.module.1, plain_of_isMemberName h.name.1⟩

theorem safeSymbol_toList (f : Function) :
    f.safeSymbol.toList = f.module.toList ++ '_' :: f.name.toList := by
  unfold safeSymbol
  rw [String.toList_append, String.toList_append, List.append_assoc]
  rfl

theorem coreSymbol_eq (f : Function) : f.coreSymbol = "ffi_" ++ f.safeSymbol := by
  unfold coreSymbol safeSymbol
  simp only [String.append_assoc]

/-- The names before and behind the underscore of a symbol of the safe layer. -/
theorem safeSymbol_parts (hf : f.Spelled) {module name : String}
    (h : f.safeSymbol = module ++ "_" ++ name) : f.module = module ∧ f.name = name := by
  have hlist : f.module.toList ++ '_' :: f.name.toList = module.toList ++ '_' :: name.toList := by
    rw [← safeSymbol_toList, h, String.toList_append, String.toList_append, List.append_assoc]
    rfl
  have hbar : ∀ {s : List Char}, Plain s → '_' ∉ s := fun hs hmem => hs.ne_bar _ hmem rfl
  obtain ⟨hmodule, _, hname⟩ := (List.append_cons_inj_of_notMem (hbar hf.named.module)
    (hbar hf.named.name)).1 hlist
  exact ⟨String.toList_inj.1 hmodule, String.toList_inj.1 hname⟩

theorem coreSymbol_parts (hf : f.Spelled) (h : f.coreSymbol = g.coreSymbol) :
    f.module = g.module ∧ f.name = g.name := by
  rw [coreSymbol_eq, coreSymbol_eq] at h
  exact safeSymbol_parts hf (append_left_cancel h)

/-- A function is told by its native method. -/
theorem nativeMethod_parts (hf : f.Spelled) (hg : g.Spelled)
    (h : f.nativeMethod = g.nativeMethod) : f.module = g.module ∧ f.name = g.name := by
  obtain ⟨c, s, hfname, hc, hfcap⟩ := capitalize_of_isMemberName hf.name.1
  obtain ⟨d, t, hgname, hd, hgcap⟩ := capitalize_of_isMemberName hg.name.1
  have hcut : f.module ++ capitalize f.name = g.module ++ capitalize g.name :=
    append_right_cancel h
  have hlist := congrArg String.toList hcut
  rw [String.toList_append, String.toList_append, hfcap, hgcap] at hlist
  have hupper : ∀ {c : Char}, c.isLower = true → c.toUpper.isUpper = true := by
    intro c hc
    rw [Char.isUpper_toUpper_eq_isAlpha, Char.isAlpha, hc, Bool.or_true]
  obtain ⟨hmodule, hhead, htail⟩ := Text.append_cons_inj_of_first (not_isUpper_of_isModuleName hf.module.1)
    (not_isUpper_of_isModuleName hg.module.1) (hupper hc) (hupper hd) hlist
  refine ⟨String.toList_inj.1 hmodule, String.toList_inj.1 ?_⟩
  rw [hfname, hgname, htail, toUpper_injective hc hd hhead]

end Function

namespace Model.WellFormed

variable {m : Model}

theorem spelledFunction (h : m.WellFormed) {f : Function} (hf : f ∈ m.functions) : f.Spelled := by
  obtain ⟨module, hmodule, hf⟩ := Model.mem_functions.1 hf
  obtain ⟨hw, hname⟩ := (h.modules module hmodule).functions f hf
  exact ⟨hname ▸ h.spelled _ (List.mem_map.2 ⟨module, hmodule, rfl⟩), hw.named⟩

/-- No two functions of an API have module and name in common. -/
theorem nodup_functions (h : m.WellFormed) :
    (m.functions.map fun f => (f.module, f.name)).Nodup := by
  unfold Model.functions
  rw [List.map_flatMap]
  refine List.nodup_flatMap.2 ⟨fun module hmodule => ?_, ?_⟩
  · refine List.Nodup.of_map Prod.snd ?_
    rw [List.map_map]
    exact List.pairwise_map.2 (h.modules module hmodule).distinct
  · refine (List.pairwise_map.1 h.distinct).imp_of_mem fun {a b} ha hb hne => ?_
    rintro key hkey hkey'
    obtain ⟨f, hf, rfl⟩ := List.mem_map.1 hkey
    obtain ⟨g, hg, heq⟩ := List.mem_map.1 hkey'
    refine hne ?_
    rw [← ((h.modules a ha).functions f hf).2, ← ((h.modules b hb).functions g hg).2]
    exact (Prod.mk.inj heq).1.symm

theorem function_eq (h : m.WellFormed) {f g : Function} (hf : f ∈ m.functions)
    (hg : g ∈ m.functions) (hparts : f.module = g.module ∧ f.name = g.name) : f = g :=
  List.inj_on_of_nodup_map h.nodup_functions hf hg (Prod.ext hparts.1 hparts.2)

end Model.WellFormed

/-! ## Names inside native symbols -/

/-- A character of a class or method name inside a native symbol. -/
def jniEscape (c : Char) : List Char :=
  if c = '.' then ['_'] else if c = '_' then ['_', '1'] else [c]

/-- The symbol under which a virtual machine looks for a native method of a class. -/
def jniName (className method : String) : String :=
  "Java_" ++ String.ofList (className.toList.flatMap jniEscape) ++ "_" ++
    String.ofList (method.toList.flatMap jniEscape)

theorem mangle_eq {s : List Char} (h : '.' ∉ s) : mangle s = s.flatMap jniEscape := by
  refine List.flatMap_congr fun c hc => ?_
  have hdot : c ≠ '.' := fun heq => h (heq ▸ hc)
  rw [jniEscape, if_neg hdot]
  by_cases hbar : c = '_'
  · rw [if_pos hbar, if_pos (beq_iff_eq.2 hbar)]
  · rw [if_neg hbar, if_neg (by simpa using hbar)]

theorem manglePath_eq (s : List Char) : manglePath s = s.flatMap jniEscape := by
  unfold manglePath Text.splitOn
  induction s with
  | nil => rfl
  | cons c s ih =>
    obtain ⟨w, ws, hpieces⟩ := List.exists_cons_of_ne_nil (Text.splitWhere_ne_nil (· == '.') s)
    unfold Text.splitWhere
    rw [hpieces] at ih ⊢
    rw [List.flatMap_cons, ← ih]
    by_cases hdot : c = '.'
    · subst hdot
      rfl
    · rw [if_neg (by simpa using hdot)]
      have hc : (if c == '_' then ['_', '1'] else [c]) = jniEscape c := by
        rw [jniEscape, if_neg hdot]
        by_cases hbar : c = '_'
        · rw [if_pos hbar, if_pos (beq_iff_eq.2 hbar)]
        · rw [if_neg hbar, if_neg (by simpa using hbar)]
      have hw : mangle (c :: w) = jniEscape c ++ mangle w := by
        rw [← hc]
        rfl
      cases ws with
      | nil => simp [List.intercalate, hw]
      | cons v ws =>
        show ['_'].intercalate (mangle (c :: w) :: mangle v :: ws.map mangle) = _
        rw [hw, List.intercalate_cons_cons]
        show _ = jniEscape c ++ ['_'].intercalate (mangle w :: mangle v :: ws.map mangle)
        rw [List.intercalate_cons_cons]
        simp only [List.append_assoc]

theorem Function.Named.notMem_nativeMethod {f : Function} (hf : f.Named) :
    '.' ∉ f.nativeMethod.toList := by
  unfold Function.nativeMethod
  rw [String.toList_append, String.toList_append]
  exact (((wordy_of_plain hf.module).append (wordy_of_plain (plain_capitalize hf.name))).append
    (by decide)).notMem (by decide)

/-- The native symbol is the one that is looked for. -/
theorem nativeSymbol_eq {f : Function} (hf : f.Named) (package : String) :
    f.nativeSymbol package = jniName (package ++ ".internal.Native") f.nativeMethod := by
  apply String.toList_inj.1
  unfold Function.nativeSymbol jniName mangled
  rw [mangle_eq hf.notMem_nativeMethod, manglePath_eq]
  simp only [String.toList_append, String.toList_ofList, List.flatMap_append, List.append_assoc]
  rfl

/-! ## Reading a native symbol back -/

/-- `DotBeforeName s` — no dot is followed by the digit that marks an underscore. -/
def DotBeforeName : List Char → Prop := List.IsChain fun c d => c = '.' → d ≠ '1'

theorem jniEscape_cases (c : Char) :
    (c = '.' ∧ jniEscape c = ['_']) ∨ (c = '_' ∧ jniEscape c = ['_', '1']) ∨
      (c ≠ '.' ∧ c ≠ '_' ∧ jniEscape c = [c]) := by
  unfold jniEscape
  by_cases hdot : c = '.'
  · exact Or.inl ⟨hdot, if_pos hdot⟩
  · rw [if_neg hdot]
    by_cases hbar : c = '_'
    · exact Or.inr (Or.inl ⟨hbar, if_pos hbar⟩)
    · exact Or.inr (Or.inr ⟨hdot, hbar, if_neg hbar⟩)

/-- What is behind a dot does not start like what is behind an underscore. -/
theorem jniEscape_behind_dot {s t : List Char} (h : DotBeforeName ('.' :: s)) :
    s.flatMap jniEscape ≠ '1' :: t := by
  intro heq
  cases s with
  | nil => nomatch heq
  | cons d s =>
    have hd : d ≠ '1' := (List.isChain_cons_cons.1 h).1 rfl
    rw [List.flatMap_cons] at heq
    rcases jniEscape_cases d with ⟨_, hesc⟩ | ⟨_, hesc⟩ | ⟨_, _, hesc⟩ <;> rw [hesc] at heq
    · exact absurd (List.cons.inj heq).1 (by decide)
    · exact absurd (List.cons.inj heq).1 (by decide)
    · exact hd (List.cons.inj heq).1

theorem jniEscape_injective {s t : List Char} (hs : DotBeforeName s) (ht : DotBeforeName t)
    (h : s.flatMap jniEscape = t.flatMap jniEscape) : s = t := by
  have hne : ∀ c, jniEscape c ≠ [] := by
    intro c
    rcases jniEscape_cases c with ⟨_, hesc⟩ | ⟨_, hesc⟩ | ⟨_, _, hesc⟩ <;> rw [hesc] <;>
      exact List.cons_ne_nil _ _
  induction s generalizing t with
  | nil =>
    cases t with
    | nil => rfl
    | cons d t => exact absurd (List.append_eq_nil_iff.1 h.symm).1 (hne d)
  | cons c s ih =>
    cases t with
    | nil => exact absurd (List.append_eq_nil_iff.1 h).1 (hne c)
    | cons d t =>
      rw [List.flatMap_cons, List.flatMap_cons] at h
      by_cases hcd : c = d
      · subst hcd
        rw [ih (List.isChain_cons.1 hs).2 (List.isChain_cons.1 ht).2 (List.append_cancel_left h)]
      · exfalso
        rcases jniEscape_cases c with ⟨rfl, hc⟩ | ⟨rfl, hc⟩ | ⟨_, hc_bar, hc⟩ <;>
          rcases jniEscape_cases d with ⟨rfl, hd⟩ | ⟨rfl, hd⟩ | ⟨_, hd_bar, hd⟩ <;>
          simp only [hc, hd, List.cons_append, List.nil_append] at h
        · exact hcd rfl
        · exact jniEscape_behind_dot hs (List.cons.inj h).2
        · exact hd_bar (List.cons.inj h).1.symm
        · exact jniEscape_behind_dot ht (List.cons.inj h).2.symm
        · exact hcd rfl
        · exact hd_bar (List.cons.inj h).1.symm
        · exact hc_bar (List.cons.inj h).1
        · exact hc_bar (List.cons.inj h).1
        · exact hcd (List.cons.inj h).1

/-- The segments of a package name start with letters. -/
theorem dotBeforeName_package {package : String} (h : isPackageName package = true) :
    DotBeforeName package.toList := by
  have hpieces : ∀ (s : List Char), (∀ w ∈ (Text.splitOn '.' s).tail,
      spelledChars Char.isLower (fun c => c.isLower || c.isDigit || c == '_') w = true) →
      DotBeforeName s := by
    intro s
    induction s with
    | nil => exact fun _ => List.isChain_nil
    | cons c s ih =>
      intro hw
      obtain ⟨w, ws, hsplit⟩ := List.exists_cons_of_ne_nil (Text.splitWhere_ne_nil (· == '.') s)
      unfold Text.splitOn at ih hw
      rw [Text.splitWhere, hsplit] at hw
      rw [hsplit] at ih
      by_cases hdot : c = '.'
      · subst hdot
        -- The piece behind the dot starts with a small letter.
        have hfirst := hw w List.mem_cons_self
        have hrest := ih fun v hv => hw v (List.mem_cons_of_mem _ hv)
        refine List.isChain_cons.2 ⟨fun d hd _ => ?_, hrest⟩
        rintro rfl
        cases s with
        | nil => cases hd
        | cons e s =>
          cases Option.some.inj hd
          unfold Text.splitWhere at hsplit
          rw [if_neg (by decide)] at hsplit
          split at hsplit
          · cases hsplit
            exact absurd hfirst (by decide)
          · cases hsplit
            rw [spelledChars, Bool.and_eq_true] at hfirst
            exact absurd hfirst.1 (by decide)
      · rw [if_neg (by simpa using hdot)] at hw
        exact List.isChain_cons.2 ⟨fun _ _ hc => absurd hc hdot, ih fun v hv => hw v hv⟩
  unfold isPackageName at h
  rw [List.all_eq_true] at h
  exact hpieces _ fun w hw => h w (List.mem_of_mem_tail hw)

/-- The class of the native methods, and the method behind it, have no digit behind a dot. -/
theorem dotBeforeName_native {f : Function} (hf : f.Spelled) {package : String}
    (hp : isPackageName package = true) :
    DotBeforeName (package.toList ++ (".internal.Native.".toList ++ f.nativeMethod.toList)) := by
  obtain ⟨first, rest, hmodule, hfirst⟩ : ∃ c s, f.module.toList = c :: s ∧ c.isLower = true := by
    have h := hf.module.1
    unfold isModuleName spelled at h
    cases hn : f.module.toList with
    | nil =>
      rw [hn] at h
      nomatch h
    | cons c s =>
      rw [hn, spelledChars, Bool.and_eq_true] at h
      exact ⟨c, s, rfl, h.1⟩
  have hmethod : DotBeforeName f.nativeMethod.toList := by
    have hplain := hf.named.notMem_nativeMethod
    generalize f.nativeMethod.toList = s at hplain
    induction s with
    | nil => exact List.isChain_nil
    | cons c s ih =>
      obtain ⟨hc, hs⟩ := not_or.1 fun hmem => hplain (List.mem_cons.2 hmem)
      exact List.isChain_cons.2 ⟨fun _ _ heq => absurd heq.symm hc, ih hs⟩
  have hhead : f.nativeMethod.toList.head? = some first := by
    unfold Function.nativeMethod
    rw [String.toList_append, String.toList_append, hmodule]
    rfl
  refine List.isChain_append.2 ⟨dotBeforeName_package hp, List.isChain_append.2
    ⟨by decide, hmethod, fun _ _ d hd _ => ?_⟩, fun _ _ d hd _ => ?_⟩
  · rw [hhead] at hd
    cases hd
    rintro rfl
    exact absurd hfirst (by decide)
  · cases hd
    decide

/-- Package, module and function are told by the native symbol. -/
theorem nativeSymbol_parts {f g : Function} (hf : f.Spelled) (hg : g.Spelled) {p q : String}
    (hp : isPackageName p = true) (hq : isPackageName q = true)
    (h : f.nativeSymbol p = g.nativeSymbol q) :
    p = q ∧ f.module = g.module ∧ f.name = g.name := by
  have hread : ∀ {f : Function} {p : String}, f.Named →
      (f.nativeSymbol p).toList = "Java_".toList ++
        (p.toList ++ (".internal.Native.".toList ++ f.nativeMethod.toList)).flatMap jniEscape := by
    intro f p hf
    rw [nativeSymbol_eq hf]
    unfold jniName
    simp only [String.toList_append, String.toList_ofList, List.flatMap_append, List.append_assoc]
    rfl
  have hlist := congrArg String.toList h
  rw [hread hf.named, hread hg.named] at hlist
  have hsame := jniEscape_injective (dotBeforeName_native hf hp) (dotBeforeName_native hg hq)
    (List.append_cancel_left hlist)
  -- The method has no dot, so it starts behind the last one.
  have hcut : ∀ {f : Function} {p : String},
      (p.toList ++ (".internal.Native.".toList ++ f.nativeMethod.toList)).reverse =
        f.nativeMethod.toList.reverse ++ '.' :: (p.toList ++ ".internal.Native".toList).reverse := by
    intro f p
    have hdot : ".internal.Native.".toList = ".internal.Native".toList ++ ['.'] := by decide
    rw [hdot]
    simp only [List.reverse_append, List.append_assoc, List.reverse_cons,
      List.nil_append, List.cons_append]
  have hreverse := congrArg List.reverse hsame
  rw [hcut, hcut] at hreverse
  have hplain : ∀ {f : Function}, f.Named → ∀ c ∈ f.nativeMethod.toList.reverse, (c == '.') = false :=
    fun hf c hc => beq_false_of_ne fun heq =>
      hf.notMem_nativeMethod (heq ▸ List.mem_reverse.1 hc)
  obtain ⟨hmethod, _, hpackage⟩ := Text.append_cons_inj_of_first (hplain hf.named) (hplain hg.named)
    (by decide) (by decide) hreverse
  refine ⟨?_, Function.nativeMethod_parts hf hg (String.toList_inj.1 (List.reverse_inj.1 hmethod))⟩
  exact String.toList_inj.1 (List.append_cancel_right (List.reverse_inj.1 hpackage))

end Bindery
