import ServiceMap.Decimal.Number

/-!
# Values of settings

What the nodes of a document stand for, and the kinds of values, by the tags that name them.
-/

namespace ServiceMap.Settings

/-- What a node of a document stands for. -/
inductive Value where
  | null
  | bool (value : Bool)
  | int (value : Int)
  /-- A number with places. -/
  | number (value : Decimal.Number)
  | text (value : List Char)
  /-- A date or a point in time. -/
  | date
  /-- Bytes. -/
  | binary (bytes : List Nat)
  | seq (items : List Value)
  | map (members : List (Value × Value))
  | set (items : List Value)
deriving Repr

/-- Kinds of nodes. -/
inductive Kind where
  | null
  | bool
  | int
  | number
  | date
  | binary
  | text
  | seq
  | map
  | set
  /-- A sequence of mappings with a single member each. -/
  | pairs
  /-- The key under which a mapping takes over the members of others. -/
  | merge
  /-- The key under which a mapping keeps the text that may stand for it. -/
  | default
  /-- A kind that is not known. -/
  | unknown
deriving DecidableEq, Repr

namespace Kind

/-- What the tags of all kinds start with. -/
def tagStart : String := "tag:yaml.org,2002:"

/-- The rest of the tag of each kind. -/
def tagEnds : List (String × Kind) :=
  [("null", null), ("bool", bool), ("int", int), ("float", number), ("timestamp", date),
    ("binary", binary), ("str", text), ("seq", seq), ("map", map), ("set", set), ("omap", pairs),
    ("pairs", pairs), ("merge", merge), ("value", default)]

/-- The kind that a tag names. -/
def ofTag (tag : List Char) : Kind :=
  let start := tagStart.toList
  if start.isPrefixOf tag then
    (tagEnds.lookup (String.ofList (tag.drop start.length))).getD unknown
  else unknown

end Kind

end ServiceMap.Settings
