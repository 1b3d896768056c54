import ServiceMap.Proofs.Link.Headers
import ServiceMap.Proofs.Link.History

/-!
# The file that declares a type

The index of a table gives for each type the first file of the table that declares it, just as a look
at one file after the other does. If no type is declared in two files this is the one file that declares
it, wherever it stands, so that the order of a table has no say in any edge.
-/

namespace ServiceMap

open Link

namespace Link

variable {table reordered : FileTable} {name path : String}

/-! ## Types declared in one file -/

/-- No type is declared in two files of a table. -/
def DeclaresOnce (table : FileTable) : Prop :=
  table.Pairwise fun a b => ∀ name, a.declares name = true → b.declares name = false

theorem DeclaresOnce.perm (h : DeclaresOnce table) (hperm : reordered.Perm table) :
    DeclaresOnce reordered := by
  refine (hperm.pairwise_iff ?_).mpr h
  intro a b hab name hb
  by_contra ha
  rw [Bool.not_eq_false] at ha
  exact Bool.false_ne_true ((hab name ha).symm.trans hb)

/-- A type is found in the one file that declares it. -/
theorem DeclaresOnce.declaringFile?_eq_some_iff (h : DeclaresOnce table) :
    declaringFile? table name = some path
      ↔ ∃ file ∈ table, file.declares name = true ∧ file.path = path := by
  constructor
  · intro hfound
    obtain ⟨file, hfile, hpath⟩ := Option.map_eq_some_iff.mp hfound
    have hdeclares : file.declares name = true := by simpa using List.find?_some hfile
    exact ⟨file, List.mem_of_find?_eq_some hfile, hdeclares, hpath⟩
  · rintro ⟨file, hmem, hdeclares, rfl⟩
    obtain ⟨before, after, rfl⟩ := List.append_of_mem hmem
    -- the files before do not declare it, since this one does
    have hbefore : ∀ other ∈ before, ¬other.declares name = true := by
      intro other hother hdeclares'
      have hpair := (List.pairwise_append.mp h).2.2 other hother file List.mem_cons_self
      exact Bool.false_ne_true ((hpair name hdeclares').symm.trans hdeclares)
    rw [declaringFile?, List.find?_append, List.find?_eq_none.mpr hbefore, Option.none_or,
      List.find?_cons, hdeclares]
    rfl

/-- The order of such a table does not tell where a type is found. -/
theorem DeclaresOnce.declaringFile?_perm (h : DeclaresOnce table) (hperm : reordered.Perm table)
    (name : String) : declaringFile? reordered name = declaringFile? table name := by
  refine Option.ext fun path => ?_
  rw [(h.perm hperm).declaringFile?_eq_some_iff, h.declaringFile?_eq_some_iff]
  constructor
  · rintro ⟨file, hfile, hdeclares⟩
    exact ⟨file, hperm.mem_iff.mp hfile, hdeclares⟩
  · rintro ⟨file, hfile, hdeclares⟩
    exact ⟨file, hperm.mem_iff.mpr hfile, hdeclares⟩

end Link

namespace Extractor

variable {tree : Tree} {workingDirectory : Path} {x y : Extractor}

/-! ## Edges -/

/-- The table has a say in edges only by where types are found. -/
theorem edgesWith_of_find? (h : ∀ name, x.symbols.find? name = y.symbols.find? name)
    (root : Option Path) (file : String) (text : List Char) (language : Language) :
    x.edgesWith tree workingDirectory root file text language
      = y.edgesWith tree workingDirectory root file text language := by
  have huses : x.symbolEdge? file = y.symbolEdge? file := by
    funext use
    rw [symbolEdge?, symbolEdge?, h]
  rw [edgesWith, edgesWith, huses]

/-- Whatever roots two extractors remember, as long as the tree has them, they find the same edges if
they find types in the same files. -/
theorem extractIn_of_find? (hx : x.IsCoherent tree workingDirectory)
    (hy : y.IsCoherent tree workingDirectory)
    (h : ∀ name, x.symbols.find? name = y.symbols.find? name) (file : String) (text : List Char)
    (language : Option Language) :
    (x.extractIn tree workingDirectory file text language).map Prod.fst
      = (y.extractIn tree workingDirectory file text language).map Prod.fst := by
  cases language with
  | none => rfl
  | some language =>
      rw [extractIn, extractIn, hx.extract, hy.extract]
      have hedges : ∀ root, x.edgesWith tree workingDirectory root file text language
          = y.edgesWith tree workingDirectory root file text language := by
        intro root
        exact edgesWith_of_find? h root file text language
      simp only [hedges]

/-- **The order of a table.** The index of a table gives for each name what a look at one file after
the other gives. If no type is declared in two files, every reordering of the table gives the same, and
so the same edges for every file, text and language, whatever the extractors of the two tables were
asked before. -/
theorem declarations_decide_in_any_order (table : FileTable) :
    (∀ name, (ofTable table).symbols.find? name = declaringFile? table name)
      ∧ (DeclaresOnce table → ∀ reordered : FileTable, reordered.Perm table →
        (∀ name, (ofTable reordered).symbols.find? name = (ofTable table).symbols.find? name
            ∧ declaringFile? reordered name = declaringFile? table name)
          ∧ ∀ tree workingDirectory earlier earlier' file text language,
            (((ofTable reordered).askAll tree workingDirectory earlier').extractIn tree
                workingDirectory file text language).map Prod.fst
              = (((ofTable table).askAll tree workingDirectory earlier).extractIn tree
                workingDirectory file text language).map Prod.fst) := by
  refine ⟨SymbolIndex.find?_ofTable table, ?_⟩
  intro honce reordered hperm
  have hfind : ∀ name,
      (ofTable reordered).symbols.find? name = (ofTable table).symbols.find? name := by
    intro name
    calc (SymbolIndex.ofTable reordered).find? name
        = declaringFile? reordered name := SymbolIndex.find?_ofTable reordered name
      _ = declaringFile? table name := honce.declaringFile?_perm hperm name
      _ = (SymbolIndex.ofTable table).find? name := (SymbolIndex.find?_ofTable table name).symm
  refine ⟨fun name => ⟨hfind name, honce.declaringFile?_perm hperm name⟩, ?_⟩
  intro tree workingDirectory earlier earlier' file text language
  obtain ⟨hcoherent, hsymbols⟩ := isCoherent_askAll earlier (isCoherent_ofTable table)
  obtain ⟨hcoherent', hsymbols'⟩ := isCoherent_askAll earlier' (isCoherent_ofTable reordered)
  refine extractIn_of_find? hcoherent' hcoherent ?_ file text language
  intro name
  rw [hsymbols, hsymbols']
  exact hfind name

/-- A store, and a cart that its file declares twice. -/
def storeAndCart : FileTable :=
  [{ path := "Store.java", language := .java, types := [⟨"Store", "", 1, [], [], []⟩] },
    { path := "Cart.java", language := .java,
      types := [⟨"Cart", "", 1, [], [], []⟩, ⟨"Cart", "", 9, [], [], []⟩] }]

/-- The cart extends the store, whichever of the two files comes first. -/
theorem cart_extends_store_in_any_order :
    DeclaresOnce storeAndCart ∧ storeAndCart.reverse.Perm storeAndCart
      ∧ (((ofTable storeAndCart.reverse).askAll (.dir []) ⟨1, ["w"]⟩
          [.root ⟨1, ["w", "Store.java"]⟩]).extractIn (.dir []) ⟨1, ["w"]⟩ "Cart.java"
          "class Cart extends Store { }".toList (some .java)).map Prod.fst
        = .ok ⟨[⟨"Cart.java", "Store.java", .inherits, "Cart extends Store"⟩], []⟩ := by
  have honce : DeclaresOnce storeAndCart := by
    simp [DeclaresOnce, storeAndCart, SourceFile.declares]
  have hperm : storeAndCart.reverse.Perm storeAndCart := List.reverse_perm storeAndCart
  have hinOrder : ((ofTable storeAndCart).extractIn (.dir []) ⟨1, ["w"]⟩ "Cart.java"
      "class Cart extends Store { }".toList (some .java)).map Prod.fst
      = .ok ⟨[⟨"Cart.java", "Store.java", .inherits, "Cart extends Store"⟩], []⟩ := by
    decide +kernel
  obtain ⟨-, hedges⟩ :=
    (declarations_decide_in_any_order storeAndCart).2 honce storeAndCart.reverse hperm
  refine ⟨honce, hperm, ?_⟩
  rw [hedges (.dir []) ⟨1, ["w"]⟩ [] _ "Cart.java" _ _]
  exact hinOrder

end Extractor

end ServiceMap
