import Mathlib.Data.List.Infix
import ServiceMap.Proofs.Declaration.KeptCSharp
import ServiceMap.Proofs.Declaration.KeptJava
import ServiceMap.Proofs.Endpoint.Origins
import ServiceMap.Proofs.Facts.Readable

/-!
# What strings hold

A source declares the same whatever its string literals hold, as long as they stand in no head, hold
no marks and name no kind of type.
-/

namespace ServiceMap

open Text Source Declaration

/-! ## Other strings -/

/-- Contents of a string literal without marks, in which no kind of type is named. -/
structure IsQuiet (u : List Char) : Prop where
  plain : ∀ c ∈ u, isPlain c = true
  names : ∀ kind ∈ typeKinds, ¬kind.toList <:+: u

instance (u : List Char) : Decidable (IsQuiet u) :=
  decidable_of_iff (u.all isPlain = true ∧ ∀ kind ∈ typeKinds, ¬kind.toList <:+: u)
    ⟨fun h => ⟨List.all_eq_true.mp h.1, h.2⟩, fun h => ⟨List.all_eq_true.mpr h.plain, h.names⟩⟩

/-- The second text is the first one with other contents in some of its string literals. Comments,
literals in single quotes and the code around stay. -/
inductive Relettered : List Char → List Char → Prop where
  | nil : Relettered [] []
  | code {c : Char} {s t : List Char} (left : lead none (c :: s) = .code)
      (right : lead none (c :: t) = .code) (rest : Relettered s t) : Relettered (c :: s) (c :: t)
  | comment {c : Char} {w s t : List Char}
      (left : lead none (c :: (w ++ s)) = .comment (w.length + 1))
      (right : lead none (c :: (w ++ t)) = .comment (w.length + 1)) (rest : Relettered s t) :
      Relettered (c :: (w ++ s)) (c :: (w ++ t))
  | literal {c : Char} {w s t : List Char}
      (left : lead none (c :: (w ++ s)) = .literal (w.length + 1))
      (right : lead none (c :: (w ++ t)) = .literal (w.length + 1)) (rest : Relettered s t) :
      Relettered (c :: (w ++ s)) (c :: (w ++ t))
  | other {u v s t : List Char} (length : u.length = v.length) (left : IsQuiet u)
      (right : IsQuiet v) (rest : Relettered s t) :
      Relettered ('"' :: (u ++ '"' :: s)) ('"' :: (v ++ '"' :: t))

/-! ## Masked texts -/

section Masking

variable {c : Char} {w s : List Char}

theorem maskComments_code (h : lead none (c :: s) = .code) :
    maskComments none (c :: s) = c :: maskComments none s := by
  rw [maskComments, h]

theorem maskComments_comment (h : lead none (c :: (w ++ s)) = .comment (w.length + 1)) :
    maskComments none (c :: (w ++ s)) = (c :: w).map blank ++ maskComments none s := by
  rw [maskComments, h]
  dsimp only
  rw [Nat.add_sub_cancel, List.take_left, List.drop_left]
  rfl

theorem maskComments_literal (h : lead none (c :: (w ++ s)) = .literal (w.length + 1)) :
    maskComments none (c :: (w ++ s)) = (c :: w) ++ maskComments none s := by
  rw [maskComments, h]
  dsimp only
  rw [Nat.add_sub_cancel, List.take_left, List.drop_left]

/-- Contents without marks end at the next double quote. -/
theorem literalRest_of_plain {u : List Char} (hu : ∀ c ∈ u, isPlain c = true) :
    literalRest '"' true (u ++ '"' :: s) = u.length + 1 := by
  induction u with
  | nil =>
      rw [List.nil_append, literalRest.eq_def]
      rfl
  | cons c u ih =>
      have hc := hu c List.mem_cons_self
      have hslash : c ≠ '\\' := ne_of_isPlain hc (by decide)
      have hquote : c ≠ '"' := ne_of_isPlain hc (by decide)
      have hnewline : c ≠ '\n' := ne_of_isPlain hc (by decide)
      rw [List.cons_append, literalRest.eq_def]
      dsimp only
      rw [if_neg (by simpa using hslash), if_neg (by simpa using hquote),
        if_neg (by simp [hnewline]), ih fun d hd => hu d (List.mem_cons_of_mem c hd)]
      rfl

theorem lead_quote {u : List Char} (hu : IsQuiet u) :
    lead none ('"' :: ((u ++ ['"']) ++ s)) = .literal ((u ++ ['"']).length + 1) := by
  rw [lead_of_no_comment (by rintro ⟨h, -⟩; exact absurd h (by decide))
    (by rintro ⟨h, -⟩; exact absurd h (by decide)), if_pos (Or.inl (by decide)),
    List.append_assoc, List.singleton_append]
  show Lead.literal (literalRest '"' true _ + 1) = _
  rw [literalRest_of_plain hu.plain, List.length_append, List.length_singleton]

theorem maskComments_quiet {u : List Char} (hu : IsQuiet u) :
    maskComments none ('"' :: (u ++ '"' :: s)) = '"' :: (u ++ '"' :: maskComments none s) := by
  have h := maskComments_literal (lead_quote (s := s) hu)
  rwa [List.append_assoc, List.singleton_append, List.cons_append, List.append_assoc,
    List.singleton_append] at h

/-- Outside of comments and literals texts are the same, one character after the other. -/
theorem Relettered.code_append {w s t : List Char}
    (hw : w.all (fun c => c != '/' && !isQuote c) = true) (h : Relettered s t) :
    Relettered (w ++ s) (w ++ t) := by
  induction w with
  | nil => exact h
  | cons c w ih =>
      obtain ⟨hc, hrest⟩ := Bool.and_eq_true_iff.mp hw
      obtain ⟨hslash, hquote⟩ : c ≠ '/' ∧ isQuote c = false := by simpa using hc
      have hlead : ∀ r, lead none (c :: r) = .code := by
        intro r
        rw [lead_of_no_comment (fun h => hslash h.1) (fun h => hslash h.1), if_neg]
        simp [hquote]
      exact .code (hlead _) (hlead _) (ih hrest)

end Masking

/-! ## Texts with other strings differ within literals -/

theorem IsQuiet.tail {c : Char} {u : List Char} (h : IsQuiet (c :: u)) : IsQuiet u where
  plain := fun d hd => h.plain d (List.mem_cons_of_mem c hd)
  names := fun kind hkind hword => h.names kind hkind (hword.trans (List.suffix_cons c u).isInfix)

/-- A word that starts in a literal ends there, since words hold no double quote. -/
theorem prefix_of_prefix_append {kind u s : List Char} (hkind : '"' ∉ kind)
    (h : kind <+: u ++ '"' :: s) : kind <+: u := by
  by_cases hlength : kind.length ≤ u.length
  · exact List.prefix_of_prefix_length_le h (List.prefix_append u _) hlength
  · have hquote : u ++ ['"'] <+: u ++ '"' :: s := ⟨s, by simp⟩
    have hlonger : u ++ ['"'] <+: kind :=
      List.prefix_of_prefix_length_le hquote h (by simp; omega)
    exact absurd (hlonger.subset (by simp)) hkind

theorem IsQuiet.namesNoKind {u : List Char} (h : IsQuiet u) (s : List Char) :
    NamesNoKind (u ++ '"' :: s) := by
  intro kind hkind hprefix
  have hword : typeKinds.all (!·.toList.contains '"') = true := by decide
  have hquote : '"' ∉ kind.toList := by
    simpa using List.all_eq_true.mp hword kind hkind
  exact h.names kind hkind (prefix_of_prefix_append hquote hprefix).isInfix

theorem veiled_quiet {u v s t : List Char} (hlength : u.length = v.length) (hu : IsQuiet u)
    (hv : IsQuiet v) (h : Veiled false s t) : Veiled true (u ++ '"' :: s) (v ++ '"' :: t) := by
  induction u generalizing v with
  | nil =>
      obtain rfl := List.eq_nil_of_length_eq_zero hlength.symm
      exact .closing h
  | cons c u ih =>
      cases v with
      | nil => exact nomatch hlength
      | cons d v =>
          exact .within (hu.plain c List.mem_cons_self) (hv.plain d List.mem_cons_self)
            (hu.namesNoKind s) (hv.namesNoKind t) (ih (Nat.succ.inj hlength) hu.tail hv.tail)

theorem commentsOf_append {s t m n : List Char} (h : s.length = m.length) :
    commentsOf (s ++ t) (m ++ n) = commentsOf s m ++ commentsOf t n := by
  rw [commentsOf, commentsOf, commentsOf, List.zip_append h, List.map_append]

/-- A string literal is no comment. -/
theorem commentsOf_plain {u : List Char} (hu : ∀ c ∈ u, c ≠ '\n') :
    commentsOf u u = List.replicate u.length ' ' := by
  induction u with
  | nil => rfl
  | cons c u ih =>
      have hc : c ≠ '\n' := hu c List.mem_cons_self
      rw [List.length_cons, List.replicate_succ, ← ih fun d hd => hu d (List.mem_cons_of_mem c hd)]
      simp [commentsOf, hc]

theorem commentsOf_quiet {u s m : List Char} (hu : IsQuiet u) :
    commentsOf ('"' :: (u ++ '"' :: s)) ('"' :: (u ++ '"' :: m))
      = List.replicate (u.length + 2) ' ' ++ commentsOf s m := by
  have happend : ∀ r : List Char, '"' :: (u ++ '"' :: r) = ('"' :: (u ++ ['"'])) ++ r := by
    intro r
    simp
  rw [happend s, happend m, commentsOf_append rfl, commentsOf_plain]
  · simp
  · intro c hc
    simp only [List.mem_cons, List.mem_append, List.not_mem_nil, or_false] at hc
    rcases hc with rfl | hc | rfl
    · decide
    · exact ne_of_isPlain (hu.plain c hc) (by decide)
    · decide

namespace Relettered

variable {s t : List Char}

theorem masked (h : Relettered s t) :
    Veiled false (maskComments none s) (maskComments none t) := by
  induction h with
  | nil =>
      rw [maskComments]
      exact .nil
  | @code c s t left right _ ih =>
      rw [maskComments_code left, maskComments_code right]
      exact .same c ih
  | comment left right _ ih =>
      rw [maskComments_comment left, maskComments_comment right]
      exact ih.same_append _
  | literal left right _ ih =>
      rw [maskComments_literal left, maskComments_literal right]
      exact ih.same_append _
  | other hlength left right _ ih =>
      rw [maskComments_quiet left, maskComments_quiet right]
      exact .opening (veiled_quiet hlength left right ih)

theorem comments (h : Relettered s t) :
    commentsOf s (maskComments none s) = commentsOf t (maskComments none t) := by
  induction h with
  | nil => rfl
  | @code c s t left right _ ih =>
      rw [maskComments_code left, maskComments_code right]
      exact congrArg (List.cons _) ih
  | @comment c w s t left right _ ih =>
      rw [maskComments_comment left, maskComments_comment right, ← List.cons_append,
        ← List.cons_append, commentsOf_append (by simp), commentsOf_append (by simp), ih]
  | @literal c w s t left right _ ih =>
      rw [maskComments_literal left, maskComments_literal right, ← List.cons_append,
        ← List.cons_append, commentsOf_append rfl, commentsOf_append rfl, ih]
  | other hlength left right _ ih =>
      rw [maskComments_quiet left, maskComments_quiet right, commentsOf_quiet left,
        commentsOf_quiet right, hlength, ih]

theorem veiled (h : Relettered s t) :
    (SourceText.ofText none s).Veiled (SourceText.ofText none t) :=
  ⟨h.masked, h.comments⟩

/-- The texts begin with stretches of the same length, and each is masked by itself. -/
theorem getElem?_append_congr {a b x y s t s' t' : List Char} (hab : a.length = b.length)
    (hx : x.length = a.length) (hy : y.length = a.length)
    (hfront : ∀ i : Nat, a[i]? = b[i]? → x[i]? = y[i]?)
    (hrest : ∀ i : Nat, s[i]? = t[i]? → s'[i]? = t'[i]?) (i : Nat)
    (h : (a ++ s)[i]? = (b ++ t)[i]?) : (x ++ s')[i]? = (y ++ t')[i]? := by
  by_cases hlt : i < a.length
  · rw [List.getElem?_append_left (hx ▸ hlt), List.getElem?_append_left (hy ▸ hlt)]
    rw [List.getElem?_append_left hlt, List.getElem?_append_left (hab ▸ hlt)] at h
    exact hfront i h
  · rw [Nat.not_lt] at hlt
    rw [List.getElem?_append_right (hx ▸ hlt), List.getElem?_append_right (hy ▸ hlt), hx, hy]
    rw [List.getElem?_append_right hlt, List.getElem?_append_right (hab ▸ hlt), ← hab] at h
    exact hrest _ h

/-- Where the texts are the same, so are the masked texts. -/
theorem getElem?_masked (h : Relettered s t) :
    ∀ i : Nat, s[i]? = t[i]? → (maskComments none s)[i]? = (maskComments none t)[i]? := by
  induction h with
  | nil => exact fun _ _ => rfl
  | @code c s t left right _ ih =>
      rw [maskComments_code left, maskComments_code right]
      exact getElem?_append_congr (a := [c]) (b := [c]) (x := [c]) (y := [c]) rfl rfl rfl
        (fun _ h => h) ih
  | @comment c w s t left right _ ih =>
      rw [maskComments_comment left, maskComments_comment right]
      exact getElem?_append_congr (a := c :: w) (b := c :: w) rfl (by simp) (by simp)
        (fun _ _ => rfl) ih
  | @literal c w s t left right _ ih =>
      rw [maskComments_literal left, maskComments_literal right]
      exact getElem?_append_congr (a := c :: w) (b := c :: w) rfl rfl rfl (fun _ h => h) ih
  | @other u v s t hlength left right _ ih =>
      rw [maskComments_quiet left, maskComments_quiet right]
      have happend : ∀ w r : List Char, '"' :: (w ++ '"' :: r) = ('"' :: (w ++ ['"'])) ++ r := by
        intro w r
        simp
      rw [happend u s, happend v t, happend u (maskComments none s), happend v (maskComments none t)]
      exact getElem?_append_congr (by simp [hlength]) rfl (by simp [hlength]) (fun _ h => h) ih

/-- A stretch in which the texts are the same is the same in the masked texts. -/
theorem keptIn_masked (h : Relettered s t) {stretch : Nat × Nat} (hkept : KeptIn s t stretch) :
    KeptIn (maskComments none s) (maskComments none t) stretch := by
  refine List.ext_getElem? fun i => ?_
  have hi := congrArg (fun r : List Char => r[i]?) (show slice s _ _ = slice t _ _ from hkept)
  simp only [slice, List.getElem?_drop, List.getElem?_take] at hi ⊢
  split at hi
  · rename_i hlt
    rw [if_pos hlt, if_pos hlt]
    exact h.getElem?_masked _ hi
  · rename_i hlt
    rw [if_neg hlt, if_neg hlt]

end Relettered

/-! ## Facts -/

/-- What is read of the heads of declarations, but for their names: the stretches before them, with
annotations and comments, the types of members, and parameter lists. -/
def heads : Language → SourceText → List (Nat × Nat)
  | .go, _ => []
  | .java, source => javaHeads source
  | .csharp, source => csharpHeads source

section Reading

variable {s t : SourceText} {path : String} {facts facts' : SourceFile}

theorem readJava_kept (h : s.Veiled t)
    (hkept : ∀ stretch ∈ javaHeads s, KeptIn s.masked t.masked stretch)
    (hs : SourceFile.readJava path s = .ok facts) (ht : SourceFile.readJava path t = .ok facts') :
    facts.types = facts'.types ∧ facts.functions = facts'.functions := by
  obtain ⟨types, methods, hs⟩ := SourceFile.isReadJava_of_readJava hs
  obtain ⟨types', methods', ht⟩ := SourceFile.isReadJava_of_readJava ht
  obtain rfl : types = types' :=
    Except.ok.inj (hs.typesRead.symm.trans ((javaTypes_kept h hkept).trans ht.typesRead))
  have hagree := javaMethods_kept h hs.typesRead hkept
  rw [hs.methodsRead, ht.methodsRead] at hagree
  have hbodiless : methods.map bodilessEntry = methods'.map bodilessEntry := Except.ok.inj hagree
  rw [hs.types, ht.types, hs.functions, ht.functions]
  exact ⟨withMethods_of_bodiless hbodiless types, infos_of_bodiless hbodiless⟩

theorem readCSharp_kept (h : s.Veiled t)
    (hkept : ∀ stretch ∈ csharpHeads s, KeptIn s.masked t.masked stretch)
    (hs : SourceFile.readCSharp path s = .ok facts)
    (ht : SourceFile.readCSharp path t = .ok facts') :
    facts.types = facts'.types ∧ facts.functions = facts'.functions := by
  obtain ⟨types, methods, actions, mapped, hs⟩ := SourceFile.isReadCSharp_of_readCSharp hs
  obtain ⟨types', methods', actions', mapped', ht⟩ := SourceFile.isReadCSharp_of_readCSharp ht
  obtain rfl : types = types' :=
    Except.ok.inj (hs.typesRead.symm.trans ((csharpTypes_kept h hkept).trans ht.typesRead))
  have hagree := csharpMethods_kept h hs.typesRead hkept
  rw [hs.methodsRead, ht.methodsRead] at hagree
  have hbodiless := ownedMethods_kept h.masked.sameMarks types (Except.ok.inj hagree)
  rw [hs.types, ht.types, hs.functions, ht.functions]
  exact ⟨withMethods_of_bodiless hbodiless types, infos_of_bodiless hbodiless⟩

end Reading

/-- **Strings declare nothing.** Two Java texts, or two C# texts, that differ only in the contents of
string literals, none of them in the head of a declaration, have the same types, with all that is
known of their methods and properties, and the same functions. The contents hold no marks and name no
kind of type. -/
theorem strings_declare_nothing {language : Language} (hlanguage : language ≠ .go)
    {s t : List Char} (h : Relettered s t)
    (hheads : ∀ stretch ∈ heads language (SourceText.ofText none s), KeptIn s t stretch)
    (path : String) :
    ∃ facts facts', SourceFile.read language path s = .ok facts
      ∧ SourceFile.read language path t = .ok facts'
      ∧ facts.types = facts'.types ∧ facts.functions = facts'.functions := by
  have hread : ∀ text, ∃ facts, SourceFile.read language path text = .ok facts :=
    fun text => SourceFile.read_isOk (fun hgo => absurd hgo hlanguage) path
  obtain ⟨facts, hs⟩ := hread s
  obtain ⟨facts', ht⟩ := hread t
  have hkept : ∀ stretch ∈ heads language (SourceText.ofText none s),
      KeptIn (maskComments none s) (maskComments none t) stretch :=
    fun stretch hstretch => h.keptIn_masked (hheads stretch hstretch)
  refine ⟨facts, facts', hs, ht, ?_⟩
  cases language with
  | go => exact absurd rfl hlanguage
  | java => exact readJava_kept h.veiled hkept hs ht
  | csharp => exact readCSharp_kept h.veiled hkept hs ht

/-- A class with two methods and one string. -/
def twoMethods (contents : List Char) : List Char :=
  "class A \x7b\n    void a() \x7b\n        String s = ".toList
    ++ '"' :: (contents ++ '"' :: ";\n    \x7d\n\n    void b() \x7b\n    \x7d\n\x7d\n".toList)

/-- A string in the body of a method is no part of a head, in either language. -/
theorem string_in_a_body_declares_nothing :
    Relettered (twoMethods "up".toList) (twoMethods "on".toList)
      ∧ (∀ language ∈ [Language.java, .csharp],
          ∀ stretch ∈ heads language (SourceText.ofText none (twoMethods "up".toList)),
            KeptIn (twoMethods "up".toList) (twoMethods "on".toList) stretch)
      ∧ ∀ language ∈ [Language.java, .csharp], ∀ path, ∃ facts facts',
          SourceFile.read language path (twoMethods "up".toList) = .ok facts
            ∧ SourceFile.read language path (twoMethods "on".toList) = .ok facts'
            ∧ facts.types = facts'.types ∧ facts.functions = facts'.functions := by
  have hrest : Relettered ";\n    \x7d\n\n    void b() \x7b\n    \x7d\n\x7d\n".toList
      ";\n    \x7d\n\n    void b() \x7b\n    \x7d\n\x7d\n".toList := by
    rw [← List.append_nil ";\n    \x7d\n\n    void b() \x7b\n    \x7d\n\x7d\n".toList]
    exact .code_append (by decide) .nil
  have h : Relettered (twoMethods "up".toList) (twoMethods "on".toList) :=
    .code_append (by decide) (.other rfl (by decide) (by decide) hrest)
  have hheads : ∀ language ∈ [Language.java, .csharp],
      ∀ stretch ∈ heads language (SourceText.ofText none (twoMethods "up".toList)),
        KeptIn (twoMethods "up".toList) (twoMethods "on".toList) stretch := by
    decide +kernel
  refine ⟨h, hheads, fun language hlanguage path => ?_⟩
  exact strings_declare_nothing (by rintro rfl; exact absurd hlanguage (by decide)) h
    (hheads language hlanguage) path

/-- The names of the functions that a text declares. -/
def functionNames (language : Language) (text : List Char) : Except Fault (List String) :=
  (SourceFile.read language "A" text).map fun facts => facts.functions.map Function.name

/-- Marks in a string are read as marks: after an opening brace the next method lies in a block. -/
theorem brace_in_a_string_hides_a_method :
    functionNames .java (twoMethods ['\x7b']) = .ok ["a"]
      ∧ functionNames .java (twoMethods ['x']) = .ok ["a", "b"]
      ∧ functionNames .csharp (twoMethods ['\x7b']) = .ok ["a"]
      ∧ functionNames .csharp (twoMethods ['x']) = .ok ["a", "b"] := by
  decide +kernel

end ServiceMap
