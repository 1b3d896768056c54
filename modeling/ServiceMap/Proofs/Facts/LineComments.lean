import ServiceMap.Proofs.Facts.MethodLists
import ServiceMap.Proofs.Text.DocumentLines

/-!
# Comments above a declaration

Functions, types and routes of Go sources, and routes that C# sources map in code, are described by the
line comments above them. The line of a declaration is counted by newlines but looked up among the lines
of the document: the comments are those directly above if no line above the declaration has another break
in it, else those as many lines further up as there are other breaks.
-/

namespace ServiceMap

open Text Source Declaration Endpoint Pattern

namespace Source

variable {above : List (Option (List Char))} {words other : List (List Char)} {text : List Char}
  {read : List Char → Option (List Char)} {otherwise description : String}

/-! ## Blocks of comments -/

/-- Lines, read one by one, end in a block of comments with these words: the line before the block, if
there is one, is no comment. -/
def EndsInComments (above : List (Option (List Char))) (words : List (List Char)) : Prop :=
  ∃ before, above = before ++ words.map some ∧ ∀ line ∈ before.getLast?, line = none

theorem exists_endsInComments (above : List (Option (List Char))) :
    ∃ words, EndsInComments above words := by
  induction above using List.reverseRecOn with
  | nil => exact ⟨[], [], rfl, fun _ h => nomatch h⟩
  | append_singleton above line ih =>
      cases line with
      | none => exact ⟨[], above ++ [none], by simp, by simp⟩
      | some comment =>
          obtain ⟨words, before, rfl, hbefore⟩ := ih
          exact ⟨words ++ [comment], before, by simp, hbefore⟩

/-- From the last line up, as long as there are comments. -/
theorem EndsInComments.takeWhile_eq (h : EndsInComments above words) :
    above.reverse.takeWhile Option.isSome = (words.map some).reverse := by
  obtain ⟨before, rfl, hbefore⟩ := h
  have hnone : before.reverse.takeWhile Option.isSome = [] := by
    cases hreverse : before.reverse with
    | nil => rfl
    | cons line rest =>
        have hline : line = none := by
          apply hbefore
          rw [← List.head?_reverse, hreverse]
          rfl
        rw [hline]
        rfl
  rw [List.reverse_append, List.takeWhile_append_of_pos, hnone, List.append_nil]
  intro line hline
  obtain ⟨comment, -, rfl⟩ := List.mem_map.mp (List.mem_reverse.mp hline)
  rfl

theorem EndsInComments.unique (h : EndsInComments above words) (h' : EndsInComments above other) :
    words = other := by
  have hreverse := List.reverse_injective (h.takeWhile_eq.symm.trans h'.takeWhile_eq)
  exact (List.map_inj_right fun _ _ => Option.some.inj).mp hreverse

/-! ## Descriptions -/

/-- A description is made of the comments in which the lines above end, without the empty ones; with no
words in them another text stands in its place. -/
def IsDescription (above : List (Option (List Char))) (otherwise description : String) : Prop :=
  ∃ words, EndsInComments above words
    ∧ description = describe (joinLines (words.filter fun line => !line.isEmpty)) otherwise

theorem isDescription_of_commentAbove {lines : List (List Char)} {number : Nat} {doc : List Char}
    (h : commentAbove read lines number = .ok doc) (otherwise : String) :
    IsDescription ((lines.take (number - 1)).map read) otherwise (describe doc otherwise) := by
  unfold commentAbove at h
  split at h
  · exact nomatch h
  · obtain rfl := Except.ok.inj h
    obtain ⟨words, hwords⟩ := exists_endsInComments ((lines.take (number - 1)).map read)
    refine ⟨words, hwords, ?_⟩
    rw [List.map_reverse, hwords.takeWhile_eq]
    simp

/-- One comment above is the description. -/
theorem isDescription_singleton (comment : List Char) (hne : comment ≠ [])
    (h : EndsInComments above [comment]) :
    IsDescription above otherwise (String.ofList comment) := by
  refine ⟨[comment], h, ?_⟩
  rw [List.filter_cons_of_pos (by simp [hne])]
  show _ = describe comment otherwise
  rw [describe, if_neg (by simp [hne])]

theorem IsDescription.unique {description' : String} (h : IsDescription above otherwise description)
    (h' : IsDescription above otherwise description') : description = description' := by
  obtain ⟨words, hwords, rfl⟩ := h
  obtain ⟨other, hother, rfl⟩ := h'
  rw [hwords.unique hother]

/-- There are no comments if the last line is none. -/
theorem IsDescription.eq_otherwise (h : IsDescription above otherwise description)
    (hlast : ∀ line ∈ above.getLast?, line = none) : description = otherwise := by
  obtain ⟨words, hwords, rfl⟩ := h
  have hnone : EndsInComments above [] := ⟨above, by simp, hlast⟩
  rw [hwords.unique hnone]
  rfl

/-! ## Readers -/

theorem wholeComment?_congr (s t : List Char) (h : trim s = trim t) :
    wholeComment? s = wholeComment? t := by
  unfold wholeComment?
  rw [h]

theorem lineComment?_congr (s t : List Char) (h : trim s = trim t) :
    lineComment? s = lineComment? t := by
  unfold lineComment?
  rw [h]

/-- How the declaration below the first `n` lines of a text is described. -/
structure IsDescribedBelow (text : List Char) (read : List Char → Option (List Char)) (n : Nat)
    (otherwise description : String) : Prop where
  /-- The declaration is on a line of the text. -/
  within : n ≤ newlines text
  /-- Of the lines of the document above the declaration, the first `n` are read. -/
  document : IsDescription (((documentLinesAbove text n).take n).map read) otherwise description
  /-- These are the lines above it if there are no other breaks. -/
  plain : (∀ line ∈ linesAbove text n, IsUnbroken line) →
    IsDescription ((linesAbove text n).map read) otherwise description
  /-- There is nothing to read if the line right above it is no comment. -/
  uncommented : (∀ line ∈ linesAbove text n, IsUnbroken line) →
    (∀ line ∈ (linesAbove text n).getLast?, read line = none) → description = otherwise

theorem isDescribedBelow_of_commentAbove {rawQuote : Option Char} {index : Nat} {doc : List Char}
    (hread : ∀ s t, trim s = trim t → read s = read t)
    (h : commentAbove read (SourceText.ofText rawQuote text).lines
      ((SourceText.ofText rawQuote text).lineNumber index) = .ok doc) (otherwise : String) :
    ∃ n, (SourceText.ofText rawQuote text).lineNumber index = n + 1
      ∧ IsDescribedBelow text read n otherwise (describe doc otherwise) := by
  have hline : (SourceText.ofText rawQuote text).lineNumber index = lineNumber text index :=
    lineNumber_maskComments text index
  have hwithin : newlines (text.take index) ≤ newlines text :=
    Nat.le_of_succ_le_succ (lineNumber_le text index)
  rw [hline] at h ⊢
  have hdescribed := isDescription_of_commentAbove h otherwise
  have hdocument : IsDescription (((documentLinesAbove text (newlines (text.take index))).take
      (newlines (text.take index))).map read) otherwise (describe doc otherwise) := by
    rw [← take_lines hwithin]
    exact hdescribed
  have hplain : (∀ line ∈ linesAbove text (newlines (text.take index)), IsUnbroken line) →
      IsDescription ((linesAbove text (newlines (text.take index))).map read) otherwise
        (describe doc otherwise) := by
    intro hplain
    have hlength := (exists_below hwithin).1
    rw [List.map_take, map_documentLinesAbove hread hplain, List.take_of_length_le] at hdocument
    · exact hdocument
    · rw [List.length_map, hlength]
  refine ⟨newlines (text.take index), rfl, hwithin, hdocument, hplain, ?_⟩
  intro hlines hlast
  refine (hplain hlines).eq_otherwise ?_
  intro line hline
  rw [List.getLast?_map] at hline
  obtain ⟨last, hmem, rfl⟩ := Option.map_eq_some_iff.mp hline
  exact hlast last hmem

end Source

/-! ## Declarations -/

section Declarations

variable {rawQuote : Option Char} {text : List Char} {m : Match}

/-- The declaration on a line is described by the comments above it. -/
def IsDescribed (text : List Char) (read : List Char → Option (List Char)) (lineNumber : Int)
    (otherwise description : String) : Prop :=
  ∃ n : Nat, lineNumber = n + 1 ∧ IsDescribedBelow text read n otherwise description

theorem isDescribed_of_commentAbove {read : List Char → Option (List Char)}
    (hread : ∀ s t, trim s = trim t → read s = read t) {index : Nat} {doc : List Char}
    (h : commentAbove read (SourceText.ofText rawQuote text).lines
      ((SourceText.ofText rawQuote text).lineNumber index) = .ok doc) (otherwise : String) :
    IsDescribed text read ((SourceText.ofText rawQuote text).lineNumber index) otherwise
      (describe doc otherwise) := by
  obtain ⟨n, hline, hdescribed⟩ := isDescribedBelow_of_commentAbove hread h otherwise
  exact ⟨n, by rw [hline]; rfl, hdescribed⟩

theorem isDescribed_goFunction {f : GoFunction}
    (h : goFunction (SourceText.ofText rawQuote text) m = .ok f) :
    IsDescribed text wholeComment? f.info.lineNumber ("Function: " ++ f.info.name)
      f.info.description := by
  obtain ⟨⟨parameters, stop⟩, -, h⟩ := except_bind_eq_ok h
  obtain ⟨doc, hdoc, h⟩ := except_bind_eq_ok h
  rw [← Except.ok.inj h]
  exact isDescribed_of_commentAbove wholeComment?_congr hdoc _

/-- The text that stands in place of a description of a type. -/
def kindAndName (kind name : String) : String :=
  String.ofList (title kind.toList) ++ ": " ++ name

theorem isDescribed_goType {type : TypeDecl}
    (h : goType (SourceText.ofText rawQuote text) m = .ok type) :
    ∃ kind, type.annotations = [kind]
      ∧ IsDescribed text wholeComment? type.lineNumber (kindAndName kind type.name)
        type.description := by
  obtain ⟨⟨body, stop⟩, -, h⟩ := except_bind_eq_ok h
  obtain ⟨doc, hdoc, h⟩ := except_bind_eq_ok h
  rw [← Except.ok.inj h]
  refine ⟨String.ofList (m.group 2), rfl, ?_⟩
  dsimp only
  rw [kindAndName, String.toList_ofList]
  exact isDescribed_of_commentAbove wholeComment?_congr hdoc _

theorem isDescribed_goEndpoint {file verb router : String} {index : Nat}
    {path handler : List Char} {e : ServiceMap.Endpoint}
    (h : goEndpoint (SourceText.ofText rawQuote text) file index verb path handler router = .ok e) :
    IsDescribed text wholeComment? e.lineNumber (e.method ++ " " ++ e.path) e.description := by
  have hgo := isGoEndpoint_of_goEndpoint h
  obtain ⟨doc, hdoc, hdescription⟩ := hgo.description
  rw [hgo.line, hdescription]
  exact isDescribed_of_commentAbove wholeComment?_congr hdoc _

theorem isDescribed_mappedEndpoint {file : String} {groups : Groups} {e : ServiceMap.Endpoint}
    (h : mappedEndpoint (SourceText.ofText rawQuote text) file groups m = .ok e) :
    IsDescribed text lineComment? e.lineNumber (e.method ++ " " ++ e.path) e.description := by
  obtain ⟨arguments, parameters, hmapped⟩ := isMappedEndpoint_of_mappedEndpoint h
  obtain ⟨doc, hdoc, hdescription⟩ := hmapped.description
  rw [hmapped.line, hdescription]
  exact isDescribed_of_commentAbove lineComment?_congr hdoc _

end Declarations

namespace SourceFile

variable {path : String} {rawQuote : Option Char} {text : List Char} {facts : SourceFile}

/-- What was attached methods is one of the types, but for its methods. -/
theorem exists_of_mem_attachMethods {functions : List GoFunction} {type : TypeDecl}
    {types : List TypeDecl} {seen : List String} (h : type ∈ attachMethods functions seen types) :
    ∃ found ∈ types, { found with methods := type.methods } = type := by
  induction types generalizing seen with
  | nil => exact absurd h List.not_mem_nil
  | cons first types ih =>
      rcases List.mem_cons.mp h with rfl | h
      · exact ⟨first, List.mem_cons_self, rfl⟩
      · obtain ⟨found, hfound, heq⟩ := ih h
        exact ⟨found, List.mem_cons_of_mem first hfound, heq⟩

/-- A method of a type of a Go source is one of its functions. -/
theorem MethodsAgree.mem_functions (h : facts.MethodsAgree .go) {type : TypeDecl} {f : Function}
    (htype : type ∈ facts.types) (hf : f ∈ type.methods) : f ∈ facts.functions := by
  obtain ⟨before, after, hsplit⟩ := List.append_of_mem htype
  rw [h before type after hsplit] at hf
  split at hf
  · exact absurd hf List.not_mem_nil
  · exact List.mem_of_mem_filter hf

/-- The declarations of a Go source are described by the comments above them. -/
structure IsDescribedGo (text : List Char) (facts : SourceFile) : Prop where
  functions : ∀ f ∈ facts.functions,
    IsDescribed text wholeComment? f.lineNumber ("Function: " ++ f.name) f.description
  methods : ∀ type ∈ facts.types, ∀ f ∈ type.methods,
    IsDescribed text wholeComment? f.lineNumber ("Function: " ++ f.name) f.description
  types : ∀ type ∈ facts.types, ∃ kind, type.annotations = [kind]
    ∧ IsDescribed text wholeComment? type.lineNumber (kindAndName kind type.name) type.description
  routes : ∀ e ∈ facts.endpoints,
    IsDescribed text wholeComment? e.lineNumber (e.method ++ " " ++ e.path) e.description

theorem isDescribed_of_goFunctions {functions : List GoFunction}
    (h : goFunctions (SourceText.ofText rawQuote text) = .ok functions) :
    ∀ f ∈ functions.map GoFunction.info,
      IsDescribed text wholeComment? f.lineNumber ("Function: " ++ f.name) f.description := by
  intro f hf
  obtain ⟨found, hfound, rfl⟩ := List.mem_map.mp hf
  obtain ⟨m, -, hm⟩ := mem_of_mapM_eq_ok h hfound
  exact isDescribed_goFunction hm

theorem isDescribed_of_goTypes {types : List TypeDecl}
    (h : goTypes (SourceText.ofText rawQuote text) = .ok types) :
    ∀ type ∈ types, ∃ kind, type.annotations = [kind]
      ∧ IsDescribed text wholeComment? type.lineNumber (kindAndName kind type.name)
        type.description := by
  intro type htype
  obtain ⟨found, hfound, h⟩ := except_bind_eq_ok h
  obtain ⟨attached, -, h⟩ := except_bind_eq_ok h
  obtain rfl := Except.ok.inj h
  obtain ⟨bare, hbare, heq⟩ := exists_of_mem_attachMethods htype
  obtain ⟨m, -, hm⟩ := mem_of_mapM_eq_ok hfound hbare
  obtain ⟨kind, hkind, hdescribed⟩ := isDescribed_goType hm
  rw [← heq]
  exact ⟨kind, hkind, hdescribed⟩

theorem isDescribed_of_goEndpoints {endpoints : List ServiceMap.Endpoint}
    (h : goEndpoints (SourceText.ofText rawQuote text) path = .ok endpoints) :
    ∀ e ∈ endpoints,
      IsDescribed text wholeComment? e.lineNumber (e.method ++ " " ++ e.path) e.description := by
  intro e he
  rcases (mem_goEndpoints_iff h).mp he with ⟨m, -, -, hread⟩ | ⟨m, -, hread⟩
  · exact isDescribed_goEndpoint hread
  · exact isDescribed_goEndpoint hread

theorem isDescribedGo_of_readGo (h : readGo path (SourceText.ofText rawQuote text) = .ok facts) :
    IsDescribedGo text facts := by
  have hagree := (methods_of_readGo h).1
  obtain ⟨functions, hfacts⟩ := isReadGo_of_readGo h
  have hfunction := isDescribed_of_goFunctions hfacts.functionsRead
  rw [← hfacts.functions] at hfunction
  refine ⟨hfunction, fun type htype f hf => hfunction f (hagree.mem_functions htype hf), ?_, ?_⟩
  · exact isDescribed_of_goTypes hfacts.types
  · exact isDescribed_of_goEndpoints hfacts.endpoints

theorem isDescribed_of_readCSharp
    (h : readCSharp path (SourceText.ofText rawQuote text) = .ok facts) :
    ∀ e ∈ facts.endpoints, e.tags = ["minimal-api"] →
      IsDescribed text lineComment? e.lineNumber (e.method ++ " " ++ e.path) e.description := by
  intro e he htags
  obtain ⟨types, methods, actions, mapped, hfacts⟩ := isReadCSharp_of_readCSharp h
  rw [hfacts.endpoints] at he
  rcases List.mem_append.mp he with he | he
  · obtain ⟨owner, howner⟩ := tags_of_mem_actionEndpoints hfacts.actionsRead e he
    exact absurd (howner.symm.trans htags) (by simp)
  · obtain ⟨m, -, hread⟩ := (mem_mappedEndpoints_iff hfacts.mappedRead).mp he
    exact isDescribed_mappedEndpoint hread

end SourceFile

/-- **Comments above a declaration.** The functions, methods, types and routes of every Go text that is
read, and the routes that a C# text maps in code, are described by the comments above their lines: by
the block directly above if the lines above have no breaks other than newlines and carriage returns
before these, else by the block that ends in the line of the document with the same number. -/
theorem declarations_are_described_by_comments_above (path : String) (text : List Char) :
    (∀ facts, SourceFile.read .go path text = .ok facts → SourceFile.IsDescribedGo text facts)
      ∧ ∃ facts, SourceFile.read .csharp path text = .ok facts
        ∧ ∀ e ∈ facts.endpoints, e.tags = ["minimal-api"] →
          IsDescribed text lineComment? e.lineNumber (e.method ++ " " ++ e.path) e.description := by
  constructor
  · intro facts h
    exact SourceFile.isDescribedGo_of_readGo h
  · have hfit : Language.csharp = .go →
        StatusNumeralsFit (maskComments Language.csharp.rawQuote text) := nofun
    obtain ⟨facts, hfacts⟩ := SourceFile.read_isOk hfit path
    exact ⟨facts, hfacts, SourceFile.isDescribed_of_readCSharp hfacts⟩

/-- A function below a comment whose line ends in a carriage return. -/
def commentedText : List Char :=
  "package p\n\n// Load reads.\r\nfunc Load() \x7b\n\x7d\x0c\n".toList

theorem comment_is_on_the_line_above :
    (∀ line ∈ linesAbove commentedText 3, IsUnbroken line)
      ∧ ∃ facts f, SourceFile.read .go "load.go" commentedText = .ok facts ∧ facts.functions = [f]
        ∧ f.lineNumber = 4 ∧ f.description = "Load reads." := by
  have hread : (SourceFile.read .go "load.go" commentedText).toOption.map (fun facts =>
      facts.functions.map fun f => (f.name, f.lineNumber)) = some [("Load", 4)] := by
    decide +kernel
  have hplain : ∀ line ∈ linesAbove commentedText 3, IsUnbroken line := by
    have hlines : linesAbove commentedText 3
        = ["package p".toList, [], "// Load reads.".toList ++ ['\r']] := by
      decide
    intro line hline
    rw [hlines] at hline
    simp only [List.mem_cons, List.not_mem_nil, or_false] at hline
    rcases hline with rfl | rfl | rfl
    · exact ⟨"package p".toList, Or.inl rfl, forall_mem_of_all (by decide)⟩
    · exact ⟨[], Or.inl rfl, forall_mem_of_all (by decide)⟩
    · exact ⟨"// Load reads.".toList, Or.inr rfl, forall_mem_of_all (by decide)⟩
  obtain ⟨facts, hfacts, hfunctions⟩ := exists_ok_of_toOption hread
  obtain ⟨f, hf, hname⟩ := List.map_eq_singleton_iff.mp hfunctions
  obtain ⟨hname, hline⟩ := Prod.mk.inj hname
  obtain ⟨n, hn, hdescribed⟩ :=
    ((declarations_are_described_by_comments_above "load.go" commentedText).1 facts
      hfacts).functions f (by rw [hf]; exact List.mem_singleton_self f)
  obtain rfl : n = 3 := by omega
  have hcomment : IsDescription ((linesAbove commentedText 3).map wholeComment?)
      ("Function: " ++ f.name) "Load reads." :=
    isDescription_singleton "Load reads.".toList (by decide)
      ⟨[none, none], by decide, by simp⟩
  exact ⟨hplain, facts, f, hfacts, hf, hline, (hdescribed.plain hplain).unique hcomment⟩

/-- The same with a form feed in the first line. -/
def movedText : List Char :=
  "// Part one\x0c\npackage p\n\n// Load reads.\nfunc Load() \x7b\n\x7d\n".toList

/-- The form feed is a break that the number of the line does not count, so that the line looked up is
the empty one above the comment. -/
theorem form_feed_hides_the_comment :
    ∃ facts f, SourceFile.read .go "load.go" movedText = .ok facts ∧ facts.functions = [f]
      ∧ f.lineNumber = 5
      ∧ ¬IsDescription ((linesAbove movedText 4).map wholeComment?) ("Function: " ++ f.name)
        f.description := by
  have hread : (SourceFile.read .go "load.go" movedText).toOption.map (fun facts =>
      facts.functions.map fun f => (f.name, f.lineNumber, f.description))
      = some [("Load", 5, "Function: Load")] := by
    decide +kernel
  obtain ⟨facts, hfacts, hfunctions⟩ := exists_ok_of_toOption hread
  obtain ⟨f, hf, hfound⟩ := List.map_eq_singleton_iff.mp hfunctions
  obtain ⟨hname, hfound⟩ := Prod.mk.inj hfound
  obtain ⟨hline, hdescription⟩ := Prod.mk.inj hfound
  refine ⟨facts, f, hfacts, hf, hline, ?_⟩
  intro hdescribed
  have hcomment : IsDescription ((linesAbove movedText 4).map wholeComment?)
      ("Function: " ++ f.name) "Load reads." :=
    isDescription_singleton "Load reads.".toList (by decide)
      ⟨[some "Part one".toList, none, none], by decide, by simp⟩
  rw [hdescription] at hdescribed
  exact absurd (hdescribed.unique hcomment) (by decide)

end ServiceMap
