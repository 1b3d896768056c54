import ServiceMap.Json.Basic
import ServiceMap.Proofs.Text.Lookup

/-!
# Parts of documents

Readers of what a document holds: texts, numbers, lists, and the members of objects by their names.
Where the names of an object's members differ, sorting them does not change what is found under a
name.
-/

namespace ServiceMap.Json

variable {α β : Type} {members others : List (String × Json)}

/-! ## Readers -/

/-- The text that a value is. -/
def text? : Json → Option String
  | str s => some s
  | _ => none

/-- The integer that a value is. -/
def integer? : Json → Option Int
  | int n => some n
  | _ => none

/-- The natural number that a value is. -/
def natural? : Json → Option Nat
  | int n => n.toNat?
  | _ => none

/-- The truth value that a value is. -/
def truth? : Json → Option Bool
  | bool b => some b
  | _ => none

/-- What is read from each item of an array. -/
def list? (read : Json → Option α) : Json → Option (List α)
  | arr items => items.mapM read
  | _ => none

/-- What is read from a value unless it is null. -/
def orNull? (read : Json → Option α) : Json → Option (Option α)
  | null => some none
  | value => (read value).map some

/-- What is read from the member of this name. -/
def member? (name : String) (read : Json → Option α) : Json → Option α
  | obj members => (members.lookup name).bind read
  | _ => none

/-! ## Sorted members -/

theorem sortItems_eq_map (items : List Json) : sortItems items = items.map sortKeys := by
  induction items with
  | nil => rfl
  | cons item items ih => rw [sortItems, ih, List.map_cons]

theorem sortMembers_eq_map (members : List (String × Json)) :
    sortMembers members = members.map fun member => (member.1, member.2.sortKeys) := by
  induction members with
  | nil => rfl
  | cons member members ih => rw [sortMembers, ih, List.map_cons]

theorem member?_sortKeys (h : (members.map Prod.fst).Nodup) (name : String)
    (read : Json → Option α) :
    (obj members).sortKeys.member? name read
      = (members.lookup name).bind fun value => read value.sortKeys := by
  have hsame : (sortMembers members).map Prod.fst = members.map Prod.fst := by
    simp [sortMembers_eq_map]
  rw [sortKeys, member?, lookup_of_perm (hsame ▸ h) (List.mergeSort_perm _ _), sortMembers_eq_map,
    lookup_map, Option.bind_map]
  rfl

theorem sortKeys_ne_null {value : Json} (h : value ≠ null) : value.sortKeys ≠ null := by
  cases value with
  | null => exact absurd rfl h
  | _ => simp [sortKeys]

/-! ## Reading what was sorted -/

@[simp] theorem text?_sortKeys_str (s : String) : (str s).sortKeys.text? = some s := rfl

@[simp] theorem integer?_sortKeys_int (n : Int) : (int n).sortKeys.integer? = some n := rfl

@[simp] theorem natural?_sortKeys_int (n : Nat) : (int n).sortKeys.natural? = some n := rfl

@[simp] theorem truth?_sortKeys_bool (b : Bool) : (bool b).sortKeys.truth? = some b := rfl

theorem list?_sortKeys_arr (xs : List α) {f : α → Json} {read : Json → Option β} {g : α → β}
    (h : ∀ x ∈ xs, read (f x).sortKeys = some (g x)) :
    (arr (xs.map f)).sortKeys.list? read = some (xs.map g) := by
  rw [sortKeys, list?, sortItems_eq_map, List.map_map]
  induction xs with
  | nil => rfl
  | cons x xs ih =>
    have hx := h x List.mem_cons_self
    simp [ih fun y hy => h y (List.mem_cons_of_mem x hy), hx]

theorem list?_sortKeys_map {f : α → Json} {read : Json → Option α}
    (h : ∀ x, read (f x).sortKeys = some x) (xs : List α) :
    (arr (xs.map f)).sortKeys.list? read = some xs := by
  simpa using list?_sortKeys_arr xs (g := id) fun x _ => h x

@[simp] theorem list?_sortKeys_strings (texts : List String) :
    (strings texts).sortKeys.list? text? = some texts :=
  list?_sortKeys_map text?_sortKeys_str texts

theorem orNull?_of_ne {value : Json} (h : value ≠ null) (read : Json → Option α) :
    value.orNull? read = (read value).map some := by
  cases value with
  | null => exact absurd rfl h
  | _ => rfl

theorem orNull?_sortKeys_ofOption (x? : Option α) {f : α → Json} {read : Json → Option β}
    {g : α → β} (hne : ∀ x, f x ≠ null) (h : ∀ x ∈ x?, read (f x).sortKeys = some (g x)) :
    (ofOption f x?).sortKeys.orNull? read = some (x?.map g) := by
  cases x? with
  | none => rfl
  | some x =>
    rw [ofOption, orNull?_of_ne (sortKeys_ne_null (hne x)), h x rfl]
    rfl

/-! ## Order of members -/

/-- An object whose members are all texts. -/
def ofTexts (entries : List (String × String)) : Json :=
  obj (entries.map fun entry => (entry.1, str entry.2))

theorem sortKeys_ofTexts (entries : List (String × String)) :
    (ofTexts entries).sortKeys
      = obj ((entries.map fun entry => (entry.1, str entry.2)).mergeSort keyLe) := by
  simp [ofTexts, sortKeys, sortMembers_eq_map, Function.comp_def]

theorem pairwise_mergeSort_keyLe (members : List (String × Json)) :
    (members.mergeSort keyLe).Pairwise fun a b => keyLe a b = true := by
  refine List.pairwise_mergeSort (fun a b c hab hbc => ?_) (fun a b => ?_) members
  · simp only [keyLe, decide_eq_true_eq] at *
    exact String.le_trans hab hbc
  · simp only [keyLe, Bool.or_eq_true, decide_eq_true_eq]
    exact String.le_total a.1 b.1

mutual

theorem sortKeys_sortKeys : (value : Json) → value.sortKeys.sortKeys = value.sortKeys
  | null => rfl
  | bool _ => rfl
  | int _ => rfl
  | str _ => rfl
  | arr items => by simp only [sortKeys, sortItems_sortItems items]
  | obj members => by
    have hsame : ((sortMembers members).mergeSort keyLe).map
        (fun member => (member.1, member.2.sortKeys)) = (sortMembers members).mergeSort keyLe := by
      refine (List.map_congr_left fun member hmember => ?_).trans (List.map_id _)
      rw [sortKeys_of_mem_sortMembers members member (List.mem_mergeSort.mp hmember)]
      rfl
    simp only [sortKeys]
    rw [sortMembers_eq_map, hsame, List.mergeSort_of_pairwise (pairwise_mergeSort_keyLe _)]

theorem sortItems_sortItems : (items : List Json) →
    sortItems (sortItems items) = sortItems items
  | [] => rfl
  | item :: items => by
    simp only [sortItems, sortKeys_sortKeys item, sortItems_sortItems items]

theorem sortKeys_of_mem_sortMembers : (members : List (String × Json)) →
    ∀ member ∈ sortMembers members, member.2.sortKeys = member.2
  | [], _, hmember => absurd hmember List.not_mem_nil
  | (_, value) :: members, member, hmember => by
    rcases List.mem_cons.mp hmember with rfl | hmember
    · exact sortKeys_sortKeys value
    · exact sortKeys_of_mem_sortMembers members member hmember

end

/-- **Sorting forgets the order of members and nothing else**: objects of texts under different
names are the same once sorted just when one has the members of the other in some order. -/
theorem sortKeys_ofTexts_eq_iff {a b : List (String × String)} (h : (a.map Prod.fst).Nodup) :
    (ofTexts a).sortKeys = (ofTexts b).sortKeys ↔ a.Perm b := by
  have hinjective : Function.Injective
      fun entry : String × String => (entry.1, Json.str entry.2) := by
    rintro ⟨k, s⟩ ⟨l, t⟩ heq
    simpa using heq
  rw [sortKeys_ofTexts, sortKeys_ofTexts, Json.obj.injEq]
  constructor
  · intro heq
    refine (List.map_perm_map_iff hinjective).mp ?_
    exact (List.mergeSort_perm _ keyLe).symm.trans (heq ▸ List.mergeSort_perm _ keyLe)
  · intro hperm
    have hmap := hperm.map fun entry : String × String => (entry.1, Json.str entry.2)
    refine List.Perm.eq_of_pairwise ?_
      (pairwise_mergeSort_keyLe _) (pairwise_mergeSort_keyLe _)
      (((List.mergeSort_perm _ _).trans hmap).trans (List.mergeSort_perm _ _).symm)
    -- members whose names come no later than one another have one name
    intro x y hx hy hxy hyx
    have hname : x.1 = y.1 := String.le_antisymm (of_decide_eq_true hxy) (of_decide_eq_true hyx)
    have hkeys : ((a.map fun entry => (entry.1, Json.str entry.2)).map Prod.fst).Nodup := by
      simpa [Function.comp_def] using h
    have hx := lookup_of_mem hkeys (List.mem_mergeSort.mp hx)
    have hy := lookup_of_mem hkeys (hmap.mem_iff.mpr (List.mem_mergeSort.mp hy))
    rw [hname, hy] at hx
    exact Prod.ext hname (Option.some.inj hx).symm

end ServiceMap.Json
