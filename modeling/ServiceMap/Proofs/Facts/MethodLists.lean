import ServiceMap.Proofs.Endpoint.Owner
import ServiceMap.Proofs.Pattern.Order

/-!
# Methods and functions

The methods of the types of a file and its functions are the same facts. In Java and C# every function
belongs to one type: the functions are the lists of methods, run together without a change of order
in any of them. In Go a function may belong to no type; the first type of a name has the functions
that name it as their receiver. Functions and types are listed from the top of the file down.
-/

namespace ServiceMap

open Text Source Declaration Endpoint Pattern

/-! ## Interleaved lists -/

/-- A list that is made by taking, again and again, the first element that is left of one of several
lists, until all of them are used up. -/
inductive Interleaves {α : Type} : List (List α) → List α → Prop where
  | done {lists : List (List α)} (used : ∀ list ∈ lists, list = []) : Interleaves lists []
  | take {front back : List (List α)} {list whole : List α} (a : α)
      (rest : Interleaves (front ++ list :: back) whole) :
      Interleaves (front ++ (a :: list) :: back) (a :: whole)

/-- Every element is in one of the lists, as often as in all of them together. -/
theorem Interleaves.perm_flatten {α : Type} {lists : List (List α)} {whole : List α}
    (h : Interleaves lists whole) : whole.Perm lists.flatten := by
  induction h with
  | done used => rw [List.flatten_eq_nil_iff.mpr used]
  | @take front back list whole a _ ih =>
      rw [List.flatten_append, List.flatten_cons] at ih ⊢
      exact (ih.cons a).trans List.perm_middle.symm

section Dealt

variable {κ α β : Type} [BEq κ] [LawfulBEq κ] (f : α → β)

/-- What is dealt to a key. -/
def dealt (entries : List (κ × α)) (key : κ) : List β :=
  (entries.filter fun entry => entry.1 == key).map fun entry => f entry.2

theorem dealt_cons_self (key : κ) (a : α) (entries : List (κ × α)) :
    dealt f ((key, a) :: entries) key = f a :: dealt f entries key := by
  simp [dealt]

theorem dealt_cons_of_ne {entry : κ × α} {key : κ} (h : entry.1 ≠ key) (entries : List (κ × α)) :
    dealt f (entry :: entries) key = dealt f entries key := by
  simp [dealt, h]

/-- Elements that are dealt out by key are interleaved from what each key was dealt. -/
theorem interleaves_dealt {keys : List κ} (hkeys : keys.Nodup) {entries : List (κ × α)}
    (h : ∀ entry ∈ entries, entry.1 ∈ keys) :
    Interleaves (keys.map (dealt f entries)) (entries.map fun entry => f entry.2) := by
  induction entries with
  | nil =>
      refine .done fun list hlist => ?_
      obtain ⟨key, -, rfl⟩ := List.mem_map.mp hlist
      rfl
  | cons entry entries ih =>
      obtain ⟨key, a⟩ := entry
      have hrest := ih fun other hother => h other (List.mem_cons_of_mem _ hother)
      obtain ⟨front, back, rfl⟩ := List.append_of_mem (h (key, a) List.mem_cons_self)
      -- the other keys are dealt nothing by this entry
      have others : ∀ keys : List κ, key ∉ keys →
          keys.map (dealt f ((key, a) :: entries)) = keys.map (dealt f entries) :=
        fun keys hnot => List.map_congr_left fun other hother =>
          dealt_cons_of_ne f (fun heq : key = other => hnot (heq ▸ hother)) entries
      obtain ⟨-, hback, hfront⟩ := List.nodup_append.mp hkeys
      have hnotFront : key ∉ front := fun hmem => hfront _ hmem _ List.mem_cons_self rfl
      have hnotBack : key ∉ back := (List.nodup_cons.mp hback).1
      rw [List.map_append, List.map_cons] at hrest ⊢
      rw [others front hnotFront, others back hnotBack, dealt_cons_self]
      exact .take (f a) hrest

end Dealt

/-! ## Owned methods -/

namespace Declaration

variable {types : List OpenType} {masked : List Char}

theorem lt_length_of_mem_ownedMethods {methods : List DeclaredMethod} {entry : Nat × DeclaredMethod}
    (h : entry ∈ ownedMethods types masked methods) : entry.1 < types.length := by
  obtain ⟨m, -, hm⟩ := List.mem_filterMap.mp h
  obtain ⟨number, hnumber, rfl⟩ := Option.map_eq_some_iff.mp hm
  obtain ⟨type, htype, -⟩ := exists_type_of_owner? hnumber
  exact (List.getElem?_eq_some_iff.mp htype).1

/-- The methods that types own, as those types list them. -/
theorem interleaves_withMethods {owned : List (Nat × DeclaredMethod)}
    (h : ∀ entry ∈ owned, entry.1 < types.length) :
    Interleaves ((withMethods types owned).map TypeDecl.methods)
      (owned.map fun entry => entry.2.info) := by
  have hlists : (withMethods types owned).map TypeDecl.methods
      = (List.range types.length).map (dealt DeclaredMethod.info owned) := by
    rw [List.range_eq_range', ← List.zipIdx_map_snd, withMethods, List.map_map, List.map_map]
    rfl
  rw [hlists]
  exact interleaves_dealt DeclaredMethod.info List.nodup_range
    fun entry hentry => List.mem_range.mpr (h entry hentry)

/-! ## Methods by receiver -/

/-- The first type of a name has the functions that name it as their receiver, a later one has no
methods. -/
theorem methods_attachMethods (functions : List GoFunction) {types : List TypeDecl} :
    ∀ {seen : List String} {before after : List TypeDecl} {type : TypeDecl},
      attachMethods functions seen types = before ++ type :: after →
        type.methods = if type.name ∈ seen ++ before.map TypeDecl.name then []
          else (functions.filter fun f => f.receiver.map String.ofList == some type.name).map
            GoFunction.info := by
  induction types with
  | nil =>
      intro seen before after type h
      exact absurd h (by simp [attachMethods])
  | cons first types ih =>
      intro seen before after type h
      rw [attachMethods] at h
      cases before with
      | nil =>
          obtain ⟨rfl, -⟩ := List.cons.inj h
          simp
      | cons other before =>
          rw [List.cons_append] at h
          obtain ⟨hother, hrest⟩ := List.cons.inj h
          rw [ih hrest, ← hother]
          simp [or_left_comm]

theorem lineNumber_attachMethods (functions : List GoFunction) (seen : List String)
    (types : List TypeDecl) :
    (attachMethods functions seen types).map TypeDecl.lineNumber
      = types.map TypeDecl.lineNumber := by
  induction types generalizing seen with
  | nil => rfl
  | cons type types ih => exact congrArg (type.lineNumber :: ·) (ih _)

/-- The annotation of a method that names its receiver. -/
def receiverMark (name : String) : String :=
  "receiver:" ++ name

theorem receiverMark_inj {a b : String} : receiverMark a = receiverMark b ↔ a = b := by
  constructor
  · intro h
    have hlist := congrArg String.toList h
    rw [receiverMark, receiverMark, String.toList_append, String.toList_append] at hlist
    exact String.toList_inj.mp (List.append_cancel_left hlist)
  · exact congrArg receiverMark

theorem goFunction_eq_ok {source : SourceText} {m : Match} {f : GoFunction}
    (h : goFunction source m = .ok f) :
    f.info.lineNumber = source.lineNumber m.start
      ∧ f.info.annotations = (f.receiver.map fun receiver =>
          receiverMark (String.ofList receiver)).toList := by
  obtain ⟨⟨parameters, stop⟩, -, h⟩ := except_bind_eq_ok h
  obtain ⟨doc, -, h⟩ := except_bind_eq_ok h
  rw [← Except.ok.inj h]
  refine ⟨rfl, ?_⟩
  dsimp only
  cases m.group? 1 <;> rfl

/-- The functions with a receiver are those that carry its mark. -/
theorem filter_receiver {source : SourceText} {functions : List GoFunction}
    (h : goFunctions source = .ok functions) (name : String) :
    (functions.filter fun f => f.receiver.map String.ofList == some name).map GoFunction.info
      = (functions.map GoFunction.info).filter fun f =>
        f.annotations.contains (receiverMark name) := by
  rw [List.filter_map]
  refine congrArg (List.map GoFunction.info) (List.filter_congr fun f hf => ?_)
  obtain ⟨m, -, hm⟩ := mem_of_mapM_eq_ok h hf
  rw [Function.comp_apply, (goFunction_eq_ok hm).2]
  cases f.receiver with
  | none => rfl
  | some receiver =>
      by_cases hname : String.ofList receiver = name
      · simp [hname]
      · simp [hname, receiverMark_inj, Ne.symm hname]

/-! ## Lines -/

/-- What was found in a source is listed from its top down. -/
theorem lines_of_mapM {α : Type} {source : SourceText} {heads : List Match}
    {read : Match → Except Fault α} {line : α → Int} {position : Match → Nat} {found : List α}
    (hheads : heads.Pairwise Precedes)
    (hposition : ∀ {m n}, Precedes m n → position m ≤ position n)
    (hline : ∀ {m a}, read m = .ok a → line a = source.lineNumber (position m))
    (h : heads.mapM read = .ok found) : (found.map line).Pairwise (· ≤ ·) := by
  refine List.pairwise_map.mpr (pairwise_of_mapM_eq_ok ?_ hheads h)
  intro m n a b hmn ha hb
  rw [hline ha, hline hb]
  exact Int.ofNat_le.mpr (lineNumber_mono _ (hposition hmn))

/-- The same where some of the heads are those of nothing. -/
theorem lines_of_mapM_filterMap {source : SourceText} {heads : List Match}
    {read : Match → Except Fault (Option OpenType)} {found : List (Option OpenType)}
    (hheads : heads.Pairwise Precedes)
    (hline : ∀ {m type}, read m = .ok (some type) →
      type.info.lineNumber = source.lineNumber m.start)
    (h : heads.mapM read = .ok found) :
    ((found.filterMap id).map fun type => type.info.lineNumber).Pairwise (· ≤ ·) := by
  refine List.pairwise_map.mpr ?_
  refine List.Pairwise.filterMap id (fun a b hab type htype other hother => ?_)
    (pairwise_of_mapM_eq_ok
      (q := fun a b => ∀ type ∈ a, ∀ other ∈ b, type.info.lineNumber ≤ other.info.lineNumber)
      ?_ hheads h)
  · exact hab type htype other hother
  · rintro m n a b hmn ha hb type rfl other rfl
    rw [hline ha, hline hb]
    exact Int.ofNat_le.mpr (lineNumber_mono _ hmn.start_le)

theorem lines_ownedMethods {types : List OpenType} {masked : List Char}
    {methods : List DeclaredMethod}
    (h : (methods.map fun m => m.info.lineNumber).Pairwise (· ≤ ·)) :
    ((ownedMethods types masked methods).map fun entry => entry.2.info.lineNumber).Pairwise
      (· ≤ ·) := by
  refine List.pairwise_map.mpr ?_
  refine List.Pairwise.filterMap _ (fun m n hmn entry hentry other hother => ?_)
    (List.pairwise_map.mp h)
  obtain ⟨number, -, rfl⟩ := Option.map_eq_some_iff.mp hentry
  obtain ⟨number', -, rfl⟩ := Option.map_eq_some_iff.mp hother
  exact hmn

theorem lineNumber_withMethods (types : List OpenType) (owned : List (Nat × DeclaredMethod)) :
    (withMethods types owned).map TypeDecl.lineNumber
      = types.map fun type => type.info.lineNumber := by
  have hinfo : (withMethods types owned).map TypeDecl.lineNumber
      = types.zipIdx.map ((fun type => type.info.lineNumber) ∘ Prod.fst) := by
    rw [withMethods, List.map_map]
    rfl
  rw [hinfo, ← List.map_map, List.zipIdx_map_fst]

section Readers

variable {source : SourceText} {types : List OpenType} {methods : List DeclaredMethod} {m : Match}

theorem lineNumber_goType {type : TypeDecl} (h : goType source m = .ok type) :
    type.lineNumber = source.lineNumber m.start := by
  obtain ⟨⟨body, stop⟩, -, h⟩ := except_bind_eq_ok h
  obtain ⟨doc, -, h⟩ := except_bind_eq_ok h
  rw [← Except.ok.inj h]

theorem lineNumber_javaType? {type : OpenType} (h : javaType? source m = .ok (some type)) :
    type.info.lineNumber = source.lineNumber m.start := by
  rw [javaType?] at h
  split at h
  · exact absurd (Except.ok.inj h).symm (Option.some_ne_none _)
  · split at h
    · exact absurd (Except.ok.inj h).symm (Option.some_ne_none _)
    · obtain ⟨preamble, -, h⟩ := except_bind_eq_ok h
      obtain ⟨stop, -, h⟩ := except_bind_eq_ok h
      obtain ⟨properties, -, h⟩ := except_bind_eq_ok h
      rw [← Option.some.inj (Except.ok.inj h)]

theorem lineNumber_csharpType? {type : OpenType} (h : csharpType? source m = .ok (some type)) :
    type.info.lineNumber = source.lineNumber m.start := by
  obtain ⟨preamble, -, h⟩ := except_bind_eq_ok h
  dsimp only at h
  split at h
  · obtain ⟨stop, -, h⟩ := except_bind_eq_ok h
    obtain ⟨properties, -, h⟩ := except_bind_eq_ok h
    rw [← Option.some.inj (Except.ok.inj h)]
  · split at h
    · exact absurd (Except.ok.inj h).symm (Option.some_ne_none _)
    · split at h
      · exact absurd (Except.ok.inj h).symm (Option.some_ne_none _)
      · obtain ⟨⟨parameters, stop⟩, -, h⟩ := except_bind_eq_ok h
        rw [← Option.some.inj (Except.ok.inj h)]

end Readers

end Declaration

namespace SourceFile

variable {path : String} {source : SourceText} {facts : SourceFile}

/-- How the methods of the types of a file go together with its functions. -/
def MethodsAgree (language : Language) (facts : SourceFile) : Prop :=
  match language with
  | .go => ∀ before type after, facts.types = before ++ type :: after →
      type.methods = if type.name ∈ before.map TypeDecl.name then []
        else facts.functions.filter fun f => f.annotations.contains (receiverMark type.name)
  | .java | .csharp =>
      Interleaves (facts.types.map TypeDecl.methods) facts.functions
        ∧ facts.functions.Perm (facts.types.map TypeDecl.methods).flatten

/-- Functions and types are listed from the top of the file down. -/
def ListsDown (facts : SourceFile) : Prop :=
  (facts.functions.map Function.lineNumber).Pairwise (· ≤ ·)
    ∧ (facts.types.map TypeDecl.lineNumber).Pairwise (· ≤ ·)

theorem methods_of_readGo (h : readGo path source = .ok facts) :
    facts.MethodsAgree .go ∧ facts.ListsDown := by
  obtain ⟨functions, hfacts⟩ := isReadGo_of_readGo h
  obtain ⟨found, hfound, hattach⟩ := except_bind_eq_ok hfacts.types
  obtain ⟨again, hagain, hattach⟩ := except_bind_eq_ok hattach
  obtain rfl := Except.ok.inj (hagain.symm.trans hfacts.functionsRead)
  have htypes := (Except.ok.inj hattach).symm
  refine ⟨fun before type after hsplit => ?_, ?_, ?_⟩
  · rw [methods_attachMethods again (htypes.symm.trans hsplit), List.nil_append,
      hfacts.functions, filter_receiver hagain]
  · rw [hfacts.functions, List.map_map]
    exact lines_of_mapM (findAll_inOrder _ _) Precedes.start_le
      (fun hf => (goFunction_eq_ok hf).1) hagain
  · rw [htypes, lineNumber_attachMethods]
    exact lines_of_mapM (findAll_inOrder _ _) Precedes.start_le lineNumber_goType hfound

theorem methods_of_owned {types : List OpenType} {masked : List Char}
    {methods : List DeclaredMethod} {language : Language} (hlanguage : language ≠ .go)
    (htypes : (types.map fun type => type.info.lineNumber).Pairwise (· ≤ ·))
    (hmethods : (methods.map fun m => m.info.lineNumber).Pairwise (· ≤ ·))
    (h : facts.types = withMethods types (ownedMethods types masked methods))
    (h' : facts.functions = (ownedMethods types masked methods).map fun entry => entry.2.info) :
    facts.MethodsAgree language ∧ facts.ListsDown := by
  have hinterleaves : Interleaves (facts.types.map TypeDecl.methods) facts.functions := by
    rw [h, h']
    exact interleaves_withMethods fun entry hentry => lt_length_of_mem_ownedMethods hentry
  refine ⟨?_, ?_, ?_⟩
  · cases language with
    | go => exact absurd rfl hlanguage
    | java | csharp => exact ⟨hinterleaves, hinterleaves.perm_flatten⟩
  · rw [h', List.map_map]
    exact lines_ownedMethods hmethods
  · rw [h, lineNumber_withMethods]
    exact htypes

theorem methods_of_readJava (h : readJava path source = .ok facts) :
    facts.MethodsAgree .java ∧ facts.ListsDown := by
  obtain ⟨types, owned, hfacts⟩ := isReadJava_of_readJava h
  obtain ⟨found, hfound, h⟩ := except_bind_eq_ok hfacts.typesRead
  obtain rfl := Except.ok.inj h
  obtain ⟨methods, hmethods, h⟩ := except_bind_eq_ok hfacts.methodsRead
  obtain rfl := Except.ok.inj h
  refine methods_of_owned (by decide) ?_ ?_ hfacts.types hfacts.functions
  · exact lines_of_mapM_filterMap (findAll_inOrder _ _) lineNumber_javaType? hfound
  · exact lines_of_mapM ((findAll_inOrder _ _).filter _) (fun h => h.groupStart_le 2)
      (fun hm => (isAtHead_javaMethod hm).line) hmethods

theorem methods_of_readCSharp (h : readCSharp path source = .ok facts) :
    facts.MethodsAgree .csharp ∧ facts.ListsDown := by
  obtain ⟨types, methods, actions, mapped, hfacts⟩ := isReadCSharp_of_readCSharp h
  obtain ⟨found, hfound, h⟩ := except_bind_eq_ok hfacts.typesRead
  obtain rfl := Except.ok.inj h
  refine methods_of_owned (by decide) ?_ ?_ hfacts.types hfacts.functions
  · exact lines_of_mapM_filterMap (findAll_inOrder _ _) lineNumber_csharpType? hfound
  · exact lines_of_mapM ((findAll_inOrder _ _).filter _) (fun h => h.groupStart_le 2)
      (fun hm => (isAtHead_csharpMethod hm).line) hfacts.methodsRead

end SourceFile

/-- **Methods and functions are the same facts.** In a Java or C# file the functions are the methods
of its types, each of them listed under one type, the lists run together without a change of order;
in a Go file the first type of a name has the functions that carry the name as that of their receiver,
a later type of the name has no methods. Functions and types are listed from the top of the file down.
A file whose facts are not read is a Go file with a status code of too many digits. -/
theorem functions_are_the_methods (language : Language) (path : String) (text : List Char) :
    match SourceFile.read language path text with
    | .ok facts => facts.MethodsAgree language ∧ facts.ListsDown
    | .error fault =>
        language = .go ∧ IsLongStatus (maskComments language.rawQuote text) fault := by
  cases h : SourceFile.read language path text with
  | error fault => exact SourceFile.read_failsOnly language path text fault h
  | ok facts =>
      cases language with
      | go => exact SourceFile.methods_of_readGo h
      | java => exact SourceFile.methods_of_readJava h
      | csharp => exact SourceFile.methods_of_readCSharp h

end ServiceMap
