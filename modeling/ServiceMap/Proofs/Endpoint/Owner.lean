import ServiceMap.Proofs.Declaration.Bodies
import ServiceMap.Proofs.Endpoint.Origins
import ServiceMap.Proofs.Facts.Readable

/-!
# Endpoints and the classes they belong to

An endpoint that is mapped by a method carries the name of a type. For Java this is the type that the
method is listed under. For C# each type is asked for the methods that lie directly in its body,
whereas a method is listed under the last type in whose body it lies: the two are the same where no
method lies directly in two bodies.
-/

namespace ServiceMap

open Text Source Declaration Endpoint

namespace Declaration

variable {types : List OpenType} {type : OpenType} {m : DeclaredMethod}

/-- Whether every method of a C# source lies directly in the body of one type at most. -/
def bodiesApart (source : SourceText) : Bool :=
  match csharpTypes source with
  | .ok types => ((csharpMethodHead.findAll source.masked).filter isCSharpMethod).all fun m =>
      decide ((types.filter fun t => t.body.encloses source.masked m.start).length ≤ 1)
  | .error _ => false

/-- Where bodies lie apart, a method lies in the body of its owner only. -/
theorem eq_of_bodiesApart {source : SourceText} {other : OpenType}
    {methods : List DeclaredMethod} (hapart : bodiesApart source = true)
    (htypes : csharpTypes source = .ok types) (hmethods : csharpMethods source types = .ok methods)
    (hm : m ∈ methods) (htype : type ∈ types) (hother : other ∈ types)
    (h : type.body.encloses source.masked m.index = true)
    (h' : other.body.encloses source.masked m.index = true) : type = other := by
  obtain ⟨head, hhead, hmethod⟩ := mem_of_mapM_eq_ok hmethods hm
  obtain ⟨hfound, hkept⟩ := List.mem_filter.mp hhead
  rw [(isAtHead_csharpMethod hmethod).index] at h h'
  rw [bodiesApart, htypes] at hapart
  have hone := of_decide_eq_true (List.all_eq_true.mp hapart head
    (List.mem_filter.mpr ⟨hfound, (Bool.and_eq_true_iff.mp hkept).1⟩))
  have hmem : type ∈ types.filter fun t => t.body.encloses source.masked head.start :=
    List.mem_filter.mpr ⟨htype, h⟩
  have hmem' : other ∈ types.filter fun t => t.body.encloses source.masked head.start :=
    List.mem_filter.mpr ⟨hother, h'⟩
  generalize (types.filter fun t => t.body.encloses source.masked head.start) = owners
    at hone hmem hmem'
  match owners with
  | [] => exact absurd hmem List.not_mem_nil
  | [owner] => rw [List.mem_singleton.mp hmem, List.mem_singleton.mp hmem']
  | _ :: _ :: rest => simp at hone

end Declaration

namespace Endpoint

variable {file : String}

/-- The route of an action carries the name of its controller. -/
theorem tags_of_mem_actionEndpoints {source : SourceText} {types : List OpenType}
    {methods : List DeclaredMethod} {actions : List ServiceMap.Endpoint}
    (h : actionEndpoints source file types methods = .ok actions) :
    ∀ e ∈ actions, ∃ owner, e.tags = ["aspnet", owner] := by
  intro e he
  obtain ⟨type, -, base?, -, m, -, -, hread⟩ := (mem_actionEndpoints_iff h).mp he
  exact ⟨type.info.name, (isActionEndpoint_of_actionEndpoint? hread).tags⟩

/-- A route that is mapped in a call belongs to no type. -/
theorem tags_of_mem_mappedEndpoints {source : SourceText} {endpoints : List ServiceMap.Endpoint}
    (h : mappedEndpoints source file = .ok endpoints) :
    ∀ e ∈ endpoints, e.tags = ["minimal-api"] := by
  intro e he
  obtain ⟨m, -, hread⟩ := (mem_mappedEndpoints_iff h).mp he
  obtain ⟨arguments, parameters, hmapped⟩ := isMappedEndpoint_of_mappedEndpoint hread
  exact hmapped.tags

end Endpoint

namespace SourceFile

variable {path : String} {source : SourceText} {facts : SourceFile} {e : ServiceMap.Endpoint}

/-- Whether a type of this name has a method on this line that is among the functions, too. -/
def HasMethodAt (facts : SourceFile) (owner : String) (line : Int) : Prop :=
  ∃ type ∈ facts.types, type.name = owner
    ∧ ∃ m ∈ type.methods, m.lineNumber = line ∧ m ∈ facts.functions

instance (facts : SourceFile) (owner : String) (line : Int) :
    Decidable (facts.HasMethodAt owner line) :=
  inferInstanceAs (Decidable (∃ type ∈ facts.types, type.name = owner
    ∧ ∃ m ∈ type.methods, m.lineNumber = line ∧ m ∈ facts.functions))

/-- A method is listed under the type that it belongs to, and among the functions. -/
theorem hasMethodAt_of_owned {types : List OpenType} {type : OpenType}
    {owned : List (Nat × DeclaredMethod)} {number : Nat} {m : DeclaredMethod}
    (htypes : facts.types = withMethods types owned)
    (hfunctions : facts.functions = owned.map fun entry => entry.2.info)
    (htype : types[number]? = some type) (hm : (number, m) ∈ owned) :
    facts.HasMethodAt type.info.name m.info.lineNumber := by
  refine ⟨{ type.info with
    methods := (owned.filter fun entry => entry.1 == number).map fun entry => entry.2.info },
    ?_, rfl, m.info, ?_, rfl, ?_⟩
  · rw [htypes]
    exact List.mem_map.mpr ⟨(type, number), List.mem_zipIdx_iff_getElem?.mpr htype, rfl⟩
  · exact List.mem_map.mpr ⟨(number, m), List.mem_filter.mpr ⟨hm, beq_self_eq_true _⟩, rfl⟩
  · rw [hfunctions]
    exact List.mem_map.mpr ⟨(number, m), hm, rfl⟩

theorem owner_of_readJava (h : readJava path source = .ok facts) (he : e ∈ facts.endpoints) :
    ∃ vocabulary owner, e.tags = [vocabulary, owner] ∧ facts.HasMethodAt owner e.lineNumber := by
  obtain ⟨types, methods, hfacts⟩ := isReadJava_of_readJava h
  obtain ⟨number, m, type, hm, htype, hread⟩ := (mem_javaEndpoints_iff hfacts.endpoints).mp he
  have hjava := isJavaEndpoint_of_javaEndpoint? hread
  obtain ⟨vocabulary, -, -, -, -, htags⟩ := hjava.route
  refine ⟨vocabulary, type.info.name, htags, ?_⟩
  rw [hjava.line]
  exact hasMethodAt_of_owned hfacts.types hfacts.functions htype hm

/-- What is known of an endpoint of a C# source that carries the name of a type. -/
structure IsOwned (source : SourceText) (facts : SourceFile) (owner : String) (line : Int) :
    Prop where
  /-- There is a type of this name. -/
  declared : ∃ type ∈ facts.types, type.name = owner
  /-- The method is listed, and under some type. -/
  listed : ∃ other, facts.HasMethodAt other line
  /-- It is listed under the type of this name if no method lies directly in two bodies. -/
  apart : bodiesApart source = true → facts.HasMethodAt owner line

theorem owner_of_readCSharp (h : readCSharp path source = .ok facts) (he : e ∈ facts.endpoints) :
    e.tags = ["minimal-api"]
      ∨ ∃ owner, e.tags = ["aspnet", owner] ∧ IsOwned source facts owner e.lineNumber := by
  obtain ⟨types, methods, actions, mapped, hfacts⟩ := isReadCSharp_of_readCSharp h
  rw [hfacts.endpoints] at he
  rcases List.mem_append.mp he with he | he
  · obtain ⟨type, htype, base?, -, m, hm, hencloses, hread⟩ :=
      (mem_actionEndpoints_iff hfacts.actionsRead).mp he
    have haction := isActionEndpoint_of_actionEndpoint? hread
    -- the type that was asked holds the method, but the owner may be a later one
    obtain ⟨number, hnumber⟩ :=
      exists_owner?_of_mem (List.mem_map_of_mem htype) hencloses
    obtain ⟨other, hother, hother'⟩ := exists_type_of_owner? hnumber
    have howned : (number, m) ∈ ownedMethods types source.masked methods :=
      List.mem_filterMap.mpr ⟨m, hm, by rw [hnumber]; rfl⟩
    have hlisted := hasMethodAt_of_owned hfacts.types hfacts.functions hother howned
    rw [← haction.line] at hlisted
    refine Or.inr ⟨type.info.name, haction.tags, ?_, ⟨_, hlisted⟩, fun hapart => ?_⟩
    · obtain ⟨place, hplace⟩ := List.mem_iff_getElem?.mp htype
      rw [hfacts.types]
      exact ⟨_, List.mem_map.mpr ⟨(type, place), List.mem_zipIdx_iff_getElem?.mpr hplace, rfl⟩, rfl⟩
    · rw [eq_of_bodiesApart hapart hfacts.typesRead hfacts.methodsRead hm htype
        (List.mem_of_getElem? hother) hencloses hother']
      exact hlisted
  · exact Or.inl (tags_of_mem_mappedEndpoints hfacts.mappedRead e he)

end SourceFile

/-- **Endpoints and classes agree on owners.** Every Java or C# text is read, and an endpoint that
carries the name of a type comes from a method that is listed among the functions and under a type;
there is a type of that name. For Java this is the type the method is listed under. For C# it is,
provided that no method lies directly in the bodies of two types. -/
theorem endpoints_name_the_class_of_their_method {language : Language} (hlanguage : language ≠ .go)
    (path : String) (text : List Char) :
    ∃ facts, SourceFile.read language path text = .ok facts
      ∧ ∀ e ∈ facts.endpoints, ∀ vocabulary owner, e.tags = [vocabulary, owner] →
        (∃ type ∈ facts.types, type.name = owner)
        ∧ (∃ other, facts.HasMethodAt other e.lineNumber)
        ∧ ((language = .csharp → bodiesApart (SourceText.ofText none text) = true) →
            facts.HasMethodAt owner e.lineNumber) := by
  have hfit : language = .go → StatusNumeralsFit (maskComments language.rawQuote text) :=
    fun hgo => absurd hgo hlanguage
  obtain ⟨facts, hfacts⟩ := SourceFile.read_isOk hfit path
  refine ⟨facts, hfacts, fun e he vocabulary owner htags => ?_⟩
  cases language with
  | go => exact absurd rfl hlanguage
  | java =>
      obtain ⟨_, name, htags', hmethod⟩ := SourceFile.owner_of_readJava hfacts he
      obtain ⟨rfl, rfl⟩ : _ ∧ name = owner := by simpa using htags'.symm.trans htags
      obtain ⟨type, htype, hname, -⟩ := id hmethod
      exact ⟨⟨type, htype, hname⟩, ⟨_, hmethod⟩, fun _ => hmethod⟩
  | csharp =>
      rcases SourceFile.owner_of_readCSharp hfacts he with htags' | ⟨name, htags', howned⟩
      · exact absurd (htags'.symm.trans htags) (by simp)
      · obtain ⟨-, rfl⟩ : _ ∧ name = owner := by simpa using htags'.symm.trans htags
        exact ⟨howned.declared, howned.listed, fun hapart => howned.apart (hapart rfl)⟩

/-- A controller with a type parameter, and a class in it. -/
def controllerWithPage : List Char :=
  ("class ItemController<T> where T : IItem\n\x7b\n    [HttpGet]\n    public Item Get() \x7b \x7d\n\n"
    ++ "    class Page\n    \x7b\n    \x7d\n\x7d\n").toList

theorem endpoint_beside_a_nested_class :
    Language.csharp ≠ .go ∧ bodiesApart (SourceText.ofText none controllerWithPage) = true
      ∧ ∃ facts, SourceFile.read .csharp "ItemController.cs" controllerWithPage = .ok facts
        ∧ ∃ e ∈ facts.endpoints, e.tags = ["aspnet", "ItemController"]
          ∧ facts.HasMethodAt "ItemController" e.lineNumber := by
  have hlanguage : Language.csharp ≠ .go := by decide
  have hapart : bodiesApart (SourceText.ofText none controllerWithPage) = true := by decide +kernel
  have hread : (match SourceFile.read .csharp "ItemController.cs" controllerWithPage with
      | .ok facts => facts.endpoints.any (·.tags == ["aspnet", "ItemController"])
      | .error _ => false) = true := by decide +kernel
  obtain ⟨facts, hfacts, howners⟩ := endpoints_name_the_class_of_their_method hlanguage
    "ItemController.cs" controllerWithPage
  rw [hfacts] at hread
  obtain ⟨e, he, htags⟩ := List.any_eq_true.mp hread
  obtain ⟨-, -, hmethod⟩ := howners e he _ _ (beq_iff_eq.mp htags)
  exact ⟨hlanguage, hapart, facts, hfacts, e, he, beq_iff_eq.mp htags, hmethod fun _ => hapart⟩

/-- A controller with two type parameters that have to be classes. -/
def controllerOfClasses : List Char :=
  ("class ItemController<T, U> where T : class where U : class\n\x7b\n    [HttpGet]\n"
    ++ "    public Item Get() \x7b \x7d\n\x7d\n").toList

/-- The words "class where" read as the head of one more type with the same body, which comes later
and takes the method; the endpoint stays with the first. -/
theorem constraint_takes_the_method :
    ∃ facts, SourceFile.read .csharp "ItemController.cs" controllerOfClasses = .ok facts
      ∧ ∃ e ∈ facts.endpoints, e.tags = ["aspnet", "ItemController"]
        ∧ ¬facts.HasMethodAt "ItemController" e.lineNumber := by
  have hread : (match SourceFile.read .csharp "ItemController.cs" controllerOfClasses with
      | .ok facts => facts.endpoints.any fun e => e.tags == ["aspnet", "ItemController"]
          && !decide (facts.HasMethodAt "ItemController" e.lineNumber)
      | .error _ => false) = true := by decide +kernel
  split at hread
  · rename_i facts hfacts
    obtain ⟨e, he, hcase⟩ := List.any_eq_true.mp hread
    obtain ⟨htags, hnot⟩ := Bool.and_eq_true_iff.mp hcase
    exact ⟨facts, hfacts, e, he, beq_iff_eq.mp htags, by simpa using hnot⟩
  · exact nomatch hread

end ServiceMap
