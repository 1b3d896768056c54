import ServiceMap.Proofs.Facts.SameCode
import ServiceMap.Link.Extractor

/-!
# Reading a masked text

Blanking the comments of a source first changes nothing but descriptions. Each reader is shown to
find the same in two texts with the same masked text, up to descriptions.
-/

namespace ServiceMap

open Text Source Declaration Endpoint

variable {s t : SourceText}

/-! ## Go -/

theorem goFunctions_sameCode (h : s.SameCode t) :
    AgreeUpTo (List.map GoFunction.undescribed) (goFunctions s) (goFunctions t) := by
  rw [goFunctions, goFunctions, h.masked]
  refine AgreeUpTo.mapM_same (fun m => ?_) _
  rw [goFunction, goFunction, h.masked]
  refine AgreeUpTo.bind_same _ fun parameters => ?_
  refine (h.commentAbove wholeComment? m.start).bind fun doc doc' _ => ?_
  apply AgreeUpTo.pure
  simp only [GoFunction.undescribed, Function.undescribed, h.lineNumber]

theorem goType_sameCode (h : s.SameCode t) (m : Match) :
    AgreeUpTo TypeDecl.undescribed (goType s m) (goType t m) := by
  rw [goType, goType, h.masked]
  refine AgreeUpTo.bind_same _ fun body => ?_
  refine (h.commentAbove wholeComment? m.start).bind fun doc doc' _ => ?_
  apply AgreeUpTo.pure
  simp only [TypeDecl.undescribed, h.lineNumber]

/-- Attaching methods does not depend on descriptions. -/
theorem attachMethods_undescribed (functions : List GoFunction) (seen : List String)
    (types : List TypeDecl) :
    (attachMethods functions seen types).map TypeDecl.undescribed
      = attachMethods (functions.map GoFunction.undescribed) seen
          (types.map TypeDecl.undescribed) := by
  induction types generalizing seen with
  | nil => rfl
  | cons type rest ih =>
      rw [attachMethods, List.map_cons, List.map_cons, attachMethods, ih]
      congr 1
      by_cases hseen : seen.contains type.name
      · simp only [TypeDecl.undescribed, hseen, if_true]
        rfl
      · simp only [TypeDecl.undescribed, hseen, Bool.false_eq_true, if_false, List.filter_map,
          List.map_map]
        rfl

theorem goTypes_sameCode (h : s.SameCode t) :
    AgreeUpTo (List.map TypeDecl.undescribed) (goTypes s) (goTypes t) := by
  rw [goTypes, goTypes, h.masked]
  refine (AgreeUpTo.mapM_same (goType_sameCode h) _).bind fun types types' htypes => ?_
  refine (goFunctions_sameCode h).bind fun functions functions' hfunctions => ?_
  apply AgreeUpTo.pure
  rw [attachMethods_undescribed, attachMethods_undescribed, htypes, hfunctions]

theorem goEndpoint_sameCode (h : s.SameCode t) (file : String) (index : Nat) (verb : String)
    (path handler : List Char) (router : String) :
    AgreeUpTo Endpoint.undescribed
      (goEndpoint s file index verb path handler router)
      (goEndpoint t file index verb path handler router) := by
  rw [goEndpoint, goEndpoint, h.masked]
  refine (h.commentAbove wholeComment? index).bind fun doc doc' _ => ?_
  refine AgreeUpTo.bind_same _ fun responses => ?_
  apply AgreeUpTo.pure
  simp only [Endpoint.undescribed, h.lineNumber]

theorem goEndpoints_sameCode (h : s.SameCode t) (file : String) :
    AgreeUpTo (List.map Endpoint.undescribed) (goEndpoints s file) (goEndpoints t file) := by
  rw [goEndpoints, goEndpoints, h.masked]
  refine (AgreeUpTo.mapM_same (fun m => goEndpoint_sameCode h _ _ _ _ _ _) _).bind
    fun routes routes' hroutes => ?_
  refine (AgreeUpTo.mapM_same (fun m => goEndpoint_sameCode h _ _ _ _ _ _) _).bind
    fun plain plain' hplain => ?_
  apply AgreeUpTo.pure
  rw [List.map_append, List.map_append, hroutes, hplain]

theorem readGo_sameCode (h : s.SameCode t) (path : String) :
    AgreeUpTo SourceFile.undescribed (SourceFile.readGo path s) (SourceFile.readGo path t) := by
  rw [SourceFile.readGo, SourceFile.readGo]
  refine (goEndpoints_sameCode h path).bind fun endpoints endpoints' hendpoints => ?_
  refine (goTypes_sameCode h).bind fun types types' htypes => ?_
  refine (goFunctions_sameCode h).bind fun functions functions' hfunctions => ?_
  have hinfo : ∀ fs : List GoFunction, (fs.map GoFunction.info).map Function.undescribed
      = (fs.map GoFunction.undescribed).map GoFunction.info := by
    intro fs
    rw [List.map_map, List.map_map]
    rfl
  apply AgreeUpTo.pure
  simp only [SourceFile.undescribed, hendpoints, htypes, hinfo, hfunctions]

/-! ## Owners -/

/-- A method with the number of its type, without its description. -/
def undescribedEntry (entry : Nat × DeclaredMethod) : Nat × DeclaredMethod :=
  (entry.1, entry.2.undescribed)

theorem bodies_undescribed (types : List OpenType) :
    (types.map OpenType.undescribed).map OpenType.body = types.map OpenType.body := by
  rw [List.map_map]
  rfl

/-- Types that look the same have the same bodies. -/
theorem bodies_congr {types types' : List OpenType}
    (h : types.map OpenType.undescribed = types'.map OpenType.undescribed) :
    types.map OpenType.body = types'.map OpenType.body := by
  rw [← bodies_undescribed types, h, bodies_undescribed]

/-- What the methods are as functions, seen without descriptions. -/
theorem functions_undescribed (methods : List (Nat × DeclaredMethod)) :
    (methods.map fun entry => entry.2.info).map Function.undescribed
      = (methods.map undescribedEntry).map fun entry => entry.2.info := by
  rw [List.map_map, List.map_map]
  rfl

/-- Ownership does not depend on descriptions. -/
theorem ownedMethods_undescribed (types : List OpenType) (masked : List Char)
    (methods : List DeclaredMethod) :
    (ownedMethods types masked methods).map undescribedEntry
      = ownedMethods (types.map OpenType.undescribed) masked
          (methods.map DeclaredMethod.undescribed) := by
  rw [ownedMethods, ownedMethods, bodies_undescribed, List.map_filterMap, List.filterMap_map]
  congr 1
  funext m
  exact Option.map_map ..

/-- Neither does what the types are given. -/
theorem withMethods_undescribed (types : List OpenType) (owned : List (Nat × DeclaredMethod)) :
    (withMethods types owned).map TypeDecl.undescribed
      = withMethods (types.map OpenType.undescribed) (owned.map undescribedEntry) := by
  rw [withMethods, withMethods, List.zipIdx_map, List.map_map, List.map_map]
  congr 1
  funext entry
  simp only [Function.comp, TypeDecl.undescribed, List.filter_map, List.map_map]
  rfl

/-! ## Java -/

theorem javaFields_sameCode (h : s.SameCode t) (body : Span) :
    AgreeUpTo (List.map Property.undescribed) (javaFields s body) (javaFields t body) := by
  rw [javaFields, javaFields, h.masked]
  refine AgreeUpTo.mapM_same (fun m => ?_) _
  refine (readPreamble_annotations _ _ _ _ _).bind fun preamble preamble' hpreamble => ?_
  apply AgreeUpTo.pure
  simp only [Property.undescribed, hpreamble]

theorem javaType?_sameCode (h : s.SameCode t) (m : Match) :
    AgreeUpTo (Option.map OpenType.undescribed) (javaType? s m) (javaType? t m) := by
  rw [javaType?, javaType?, h.masked]
  split
  · exact AgreeUpTo.pure rfl
  split
  · exact AgreeUpTo.pure rfl
  refine (readPreamble_annotations _ _ _ _ _).bind fun preamble preamble' hpreamble => ?_
  refine AgreeUpTo.bind_same _ fun stop => ?_
  refine (javaFields_sameCode h _).bind fun fields fields' hfields => ?_
  apply AgreeUpTo.pure
  simp only [Option.map_some, OpenType.undescribed, TypeDecl.undescribed, h.lineNumber,
    hpreamble, hfields]

theorem javaTypes_sameCode (h : s.SameCode t) :
    AgreeUpTo (List.map OpenType.undescribed) (javaTypes s) (javaTypes t) := by
  rw [javaTypes, javaTypes, h.masked]
  refine (AgreeUpTo.mapM_same (javaType?_sameCode h) _).bind fun found found' hfound => ?_
  exact AgreeUpTo.pure (map_filterMap_id hfound)

theorem javaMethod_sameCode (h : s.SameCode t) (m : Match) :
    AgreeUpTo DeclaredMethod.undescribed (javaMethod s m) (javaMethod t m) := by
  rw [javaMethod, javaMethod, h.masked]
  refine AgreeUpTo.bind_same _ fun parameters => ?_
  refine AgreeUpTo.bind_same _ fun body => ?_
  refine (readPreamble_annotations _ _ _ _ _).bind fun preamble preamble' hpreamble => ?_
  refine AgreeUpTo.bind_same _ fun parameters => ?_
  apply AgreeUpTo.pure
  simp only [DeclaredMethod.undescribed, Function.undescribed, h.lineNumber, hpreamble]

theorem javaMethods_sameCode (h : s.SameCode t) {types types' : List OpenType}
    (htypes : types.map OpenType.undescribed = types'.map OpenType.undescribed) :
    AgreeUpTo (List.map undescribedEntry) (javaMethods s types) (javaMethods t types') := by
  rw [javaMethods, javaMethods, h.masked, bodies_congr htypes]
  refine (AgreeUpTo.mapM_same (javaMethod_sameCode h) _).bind fun methods methods' hmethods => ?_
  apply AgreeUpTo.pure
  rw [ownedMethods_undescribed, ownedMethods_undescribed, htypes, hmethods]

/-- A method and its type give rise to an endpoint whatever their descriptions are. -/
theorem javaEndpoint?_undescribed (file : String) (owner : TypeDecl) (m : DeclaredMethod) :
    AgreeUpTo (Option.map Endpoint.undescribed)
      (javaEndpoint? file owner m) (javaEndpoint? file owner.undescribed m.undescribed) := by
  have hroute : javaRoute? owner.undescribed m.undescribed = javaRoute? owner m := rfl
  rw [javaEndpoint?, javaEndpoint?, hroute]
  refine AgreeUpTo.bind_same _ fun route => ?_
  split
  · exact AgreeUpTo.pure rfl
  · refine AgreeUpTo.bind_same _ fun parameters => ?_
    exact AgreeUpTo.pure rfl

theorem javaEndpoint?_congr (file : String) {owner owner' : TypeDecl} {m m' : DeclaredMethod}
    (howner : owner.undescribed = owner'.undescribed) (hm : m.undescribed = m'.undescribed) :
    AgreeUpTo (Option.map Endpoint.undescribed)
      (javaEndpoint? file owner m) (javaEndpoint? file owner' m') := by
  have h := javaEndpoint?_undescribed file owner m
  have h' := javaEndpoint?_undescribed file owner' m'
  rw [howner, hm] at h
  exact h.trans h'.symm

theorem javaEndpoints_congr (file : String) {types types' : List OpenType}
    {methods methods' : List (Nat × DeclaredMethod)}
    (htypes : types.map OpenType.undescribed = types'.map OpenType.undescribed)
    (hmethods : methods.map undescribedEntry = methods'.map undescribedEntry) :
    AgreeUpTo (List.map Endpoint.undescribed)
      (javaEndpoints file types methods) (javaEndpoints file types' methods') := by
  rw [javaEndpoints, javaEndpoints]
  refine AgreeUpTo.bind (?_ : AgreeUpTo (List.map (Option.map Endpoint.undescribed)) _ _)
    fun found found' hfound => AgreeUpTo.pure (map_filterMap_id hfound)
  refine AgreeUpTo.mapM ?_ hmethods
  rintro ⟨number, m⟩ ⟨number', m'⟩ hentry
  obtain ⟨rfl, hm⟩ := Prod.mk.inj hentry
  have htype : types[number]?.map OpenType.undescribed
      = types'[number]?.map OpenType.undescribed := by
    rw [← List.getElem?_map, ← List.getElem?_map, htypes]
  dsimp only
  cases hleft : types[number]? with
  | none =>
      cases hright : types'[number]? with
      | none => rfl
      | some type' => simp [hleft, hright] at htype
  | some type =>
      cases hright : types'[number]? with
      | none => simp [hleft, hright] at htype
      | some type' =>
          rw [hleft, hright, Option.map_some, Option.map_some, Option.some.injEq] at htype
          exact javaEndpoint?_congr file (congrArg OpenType.info htype) hm

theorem readJava_sameCode (h : s.SameCode t) (path : String) :
    AgreeUpTo SourceFile.undescribed (SourceFile.readJava path s) (SourceFile.readJava path t) := by
  rw [SourceFile.readJava, SourceFile.readJava]
  refine (javaTypes_sameCode h).bind fun types types' htypes => ?_
  refine (javaMethods_sameCode h htypes).bind fun methods methods' hmethods => ?_
  refine (javaEndpoints_congr path htypes hmethods).bind fun endpoints endpoints' hendpoints => ?_
  apply AgreeUpTo.pure
  simp only [SourceFile.undescribed, hendpoints, withMethods_undescribed, htypes, hmethods,
    functions_undescribed]

/-! ## C# -/

theorem csharpMembers_sameCode (h : s.SameCode t) (body : Span) :
    AgreeUpTo (List.map Property.undescribed) (csharpMembers s body) (csharpMembers t body) := by
  rw [csharpMembers, csharpMembers, h.masked]
  refine AgreeUpTo.mapM_same (fun m => ?_) _
  refine (readPreamble_annotations _ _ _ _ _).bind fun preamble preamble' hpreamble => ?_
  apply AgreeUpTo.pure
  simp only [Property.undescribed, hpreamble]

theorem csharpType?_sameCode (h : s.SameCode t) (m : Match) :
    AgreeUpTo (Option.map OpenType.undescribed) (csharpType? s m) (csharpType? t m) := by
  rw [csharpType?, csharpType?, h.masked]
  refine (readPreamble_annotations _ _ _ _ _).bind fun preamble preamble' hpreamble => ?_
  dsimp only
  split
  · -- a body
    refine AgreeUpTo.bind_same _ fun stop => ?_
    refine (csharpMembers_sameCode h _).bind fun members members' hmembers => ?_
    apply AgreeUpTo.pure
    simp only [Option.map_some, OpenType.undescribed, TypeDecl.undescribed, h.lineNumber,
      hpreamble, hmembers]
  · -- no body: a record or nothing
    split
    · exact AgreeUpTo.pure rfl
    split
    · exact AgreeUpTo.pure rfl
    refine AgreeUpTo.bind_same _ fun parameters => ?_
    apply AgreeUpTo.pure
    simp only [Option.map_some, OpenType.undescribed, TypeDecl.undescribed, h.lineNumber,
      hpreamble]

theorem csharpTypes_sameCode (h : s.SameCode t) :
    AgreeUpTo (List.map OpenType.undescribed) (csharpTypes s) (csharpTypes t) := by
  rw [csharpTypes, csharpTypes, h.masked]
  refine (AgreeUpTo.mapM_same (csharpType?_sameCode h) _).bind fun found found' hfound => ?_
  exact AgreeUpTo.pure (map_filterMap_id hfound)

theorem csharpMethod_sameCode (h : s.SameCode t) (m : Match) :
    AgreeUpTo DeclaredMethod.undescribed (csharpMethod s m) (csharpMethod t m) := by
  rw [csharpMethod, csharpMethod, h.masked]
  refine AgreeUpTo.bind_same _ fun parameters => ?_
  refine (readPreamble_annotations _ _ _ _ _).bind fun preamble preamble' hpreamble => ?_
  refine AgreeUpTo.bind_same _ fun body => ?_
  apply AgreeUpTo.pure
  simp only [DeclaredMethod.undescribed, Function.undescribed, h.lineNumber, hpreamble]

theorem csharpMethods_sameCode (h : s.SameCode t) {types types' : List OpenType}
    (htypes : types.map OpenType.undescribed = types'.map OpenType.undescribed) :
    AgreeUpTo (List.map DeclaredMethod.undescribed) (csharpMethods s types)
      (csharpMethods t types') := by
  have hany : ∀ m : Match, (types.any fun type => type.body.encloses t.masked m.start)
      = types'.any fun type => type.body.encloses t.masked m.start := by
    intro m
    have hbodies := congrArg (List.any · fun body => body.encloses t.masked m.start)
      (bodies_congr htypes)
    rwa [List.any_map, List.any_map] at hbodies
  rw [csharpMethods, csharpMethods, h.masked]
  simp only [hany]
  exact AgreeUpTo.mapM_same (csharpMethod_sameCode h) _

/-- A method and its type give rise to an action whatever their descriptions are. -/
theorem actionEndpoint?_undescribed (file : String) (owner : TypeDecl)
    (base? : Option (List Char)) (m : DeclaredMethod) :
    AgreeUpTo (Option.map Endpoint.undescribed)
      (actionEndpoint? file owner base? m)
      (actionEndpoint? file owner.undescribed base? m.undescribed) := by
  have hroute : actionRoute? owner.undescribed base? m.undescribed = actionRoute? owner base? m :=
    rfl
  rw [actionEndpoint?, actionEndpoint?, hroute]
  refine AgreeUpTo.bind_same _ fun route => ?_
  split
  · exact AgreeUpTo.pure rfl
  · refine AgreeUpTo.bind_same _ fun responses => ?_
    exact AgreeUpTo.pure rfl

theorem actionEndpoint?_congr (file : String) (base? : Option (List Char))
    {owner owner' : TypeDecl} {m m' : DeclaredMethod}
    (howner : owner.undescribed = owner'.undescribed) (hm : m.undescribed = m'.undescribed) :
    AgreeUpTo (Option.map Endpoint.undescribed)
      (actionEndpoint? file owner base? m) (actionEndpoint? file owner' base? m') := by
  have h := actionEndpoint?_undescribed file owner base? m
  have h' := actionEndpoint?_undescribed file owner' base? m'
  rw [howner, hm] at h
  exact h.trans h'.symm

theorem typeEndpoints_sameCode (h : s.SameCode t) (file : String)
    {methods methods' : List DeclaredMethod} {type type' : OpenType}
    (hmethods : methods.map DeclaredMethod.undescribed = methods'.map DeclaredMethod.undescribed)
    (htype : type.undescribed = type'.undescribed) :
    AgreeUpTo (List.map Endpoint.undescribed)
      (typeEndpoints s file methods type) (typeEndpoints t file methods' type') := by
  have hbody : type.undescribed.body = type'.undescribed.body := by rw [htype]
  change type.body = type'.body at hbody
  have hinfo : type.undescribed.info = type'.undescribed.info := by rw [htype]
  have hprefix : controllerPrefix? type.undescribed.info
      = controllerPrefix? type'.undescribed.info := by rw [hinfo]
  change controllerPrefix? type.info = controllerPrefix? type'.info at hprefix
  have hown : ∀ ms : List DeclaredMethod,
      (ms.filter fun m => type'.body.encloses t.masked m.index).map DeclaredMethod.undescribed
        = (ms.map DeclaredMethod.undescribed).filter
            fun m => type'.body.encloses t.masked m.index := by
    intro ms
    rw [List.filter_map]
    rfl
  rw [typeEndpoints, typeEndpoints, h.masked, hbody, hprefix]
  refine AgreeUpTo.bind_same _ fun base? => ?_
  refine AgreeUpTo.bind (?_ : AgreeUpTo (List.map (Option.map Endpoint.undescribed)) _ _)
    fun found found' hfound => AgreeUpTo.pure (map_filterMap_id hfound)
  refine AgreeUpTo.mapM (fun m m' hm => actionEndpoint?_congr file base? hinfo hm) ?_
  rw [hown, hown, hmethods]

theorem actionEndpoints_sameCode (h : s.SameCode t) (file : String)
    {types types' : List OpenType} {methods methods' : List DeclaredMethod}
    (htypes : types.map OpenType.undescribed = types'.map OpenType.undescribed)
    (hmethods : methods.map DeclaredMethod.undescribed = methods'.map DeclaredMethod.undescribed) :
    AgreeUpTo (List.map Endpoint.undescribed)
      (actionEndpoints s file types methods) (actionEndpoints t file types' methods') := by
  rw [actionEndpoints, actionEndpoints]
  refine (AgreeUpTo.mapM (fun type type' htype => typeEndpoints_sameCode h file hmethods htype)
    htypes).bind fun found found' hfound => ?_
  apply AgreeUpTo.pure
  rw [List.map_flatten, List.map_flatten, hfound]

theorem mappedEndpoints_sameCode (h : s.SameCode t) (file : String) :
    AgreeUpTo (List.map Endpoint.undescribed) (mappedEndpoints s file)
      (mappedEndpoints t file) := by
  rw [mappedEndpoints, mappedEndpoints, h.masked]
  refine AgreeUpTo.mapM_same (fun m => ?_) _
  rw [mappedEndpoint, mappedEndpoint, h.masked]
  refine AgreeUpTo.bind_same _ fun arguments => ?_
  refine AgreeUpTo.bind_same _ fun parameters => ?_
  refine (h.commentAbove lineComment? m.start).bind fun doc doc' _ => ?_
  refine AgreeUpTo.bind_same _ fun responses => ?_
  apply AgreeUpTo.pure
  simp only [Endpoint.undescribed, h.lineNumber]

theorem readCSharp_sameCode (h : s.SameCode t) (path : String) :
    AgreeUpTo SourceFile.undescribed (SourceFile.readCSharp path s)
      (SourceFile.readCSharp path t) := by
  rw [SourceFile.readCSharp, SourceFile.readCSharp, h.masked]
  refine (csharpTypes_sameCode h).bind fun types types' htypes => ?_
  refine (csharpMethods_sameCode h htypes).bind fun methods methods' hmethods => ?_
  refine (actionEndpoints_sameCode h path htypes hmethods).bind fun actions actions' hactions => ?_
  refine (mappedEndpoints_sameCode h path).bind fun mapped mapped' hmapped => ?_
  apply AgreeUpTo.pure
  simp only [SourceFile.undescribed, List.map_append, hactions, hmapped, withMethods_undescribed,
    functions_undescribed, ownedMethods_undescribed, htypes, hmethods]

/-! ## Masking first -/

/-- Reading finds the same in two texts with the same masked text, up to descriptions. -/
theorem read_sameCode (language : Language) (path : String) (text text' : List Char)
    (h : (SourceText.ofText language.rawQuote text).SameCode
      (SourceText.ofText language.rawQuote text')) :
    AgreeUpTo SourceFile.undescribed
      (SourceFile.read language path text) (SourceFile.read language path text') := by
  cases language with
  | go => exact readGo_sameCode h path
  | java => exact readJava_sameCode h path
  | csharp => exact readCSharp_sameCode h path

theorem maskComments_rawQuote_idem (language : Language) (text : List Char) :
    maskComments language.rawQuote (maskComments language.rawQuote text)
      = maskComments language.rawQuote text := by
  refine maskComments_idem ?_ text
  cases language with
  | go =>
      rintro quote ⟨⟩
      decide
  | java => exact fun _ h => nomatch h
  | csharp => exact fun _ h => nomatch h

theorem sameCode_maskComments (language : Language) (text : List Char) :
    (SourceText.ofText language.rawQuote (maskComments language.rawQuote text)).SameCode
      (SourceText.ofText language.rawQuote text) where
  masked := maskComments_rawQuote_idem language text
  enough_left := newlines_le_length_lines _
  enough_right := by
    have h := newlines_le_length_lines text
    rwa [← newlines_maskComments] at h

/-- The edges of a source are those of its masked text. -/
theorem extract_maskComments (x : Extractor) (tree : Tree) (workingDirectory : Path)
    (file : String) (text : List Char) (language : Language) :
    x.extract tree workingDirectory file (maskComments language.rawQuote text) language
      = x.extract tree workingDirectory file text language := by
  have hmask := maskComments_rawQuote_idem language text
  have hroot : Extractor.needsRoot (maskComments language.rawQuote text) language
      = Extractor.needsRoot text language := by
    rw [Extractor.needsRoot, Extractor.needsRoot, hmask]
  have hedges : ∀ (x : Extractor) (root : Option Path),
      x.edgesWith tree workingDirectory root file (maskComments language.rawQuote text) language
        = x.edgesWith tree workingDirectory root file text language := by
    intro x root
    rw [Extractor.edgesWith, Extractor.edgesWith, hmask]
  simp only [Extractor.extract, hroot, hedges]

/-- **Comments give rise to descriptions only.** A masked text holds no comment any more; its edges
are those of the text, and so are its endpoints, types and functions, but for the descriptions of
endpoints, types, methods, properties and functions. -/
theorem masking_first_changes_descriptions_only (language : Language) (text : List Char) :
    maskComments language.rawQuote (maskComments language.rawQuote text)
        = maskComments language.rawQuote text
      ∧ (∀ (x : Extractor) (tree : Tree) (workingDirectory : Path) (file : String),
          x.extract tree workingDirectory file (maskComments language.rawQuote text) language
            = x.extract tree workingDirectory file text language)
      ∧ ∀ path : String,
          (SourceFile.read language path (maskComments language.rawQuote text)).map
              SourceFile.undescribed
            = (SourceFile.read language path text).map SourceFile.undescribed := by
  refine ⟨maskComments_rawQuote_idem language text, ?_, ?_⟩
  · intro x tree workingDirectory file
    exact extract_maskComments x tree workingDirectory file text language
  · intro path
    exact read_sameCode language path _ _ (sameCode_maskComments language text)

end ServiceMap
