import ServiceMap.Text.WordTable

/-!
# Characters of names

A name is made of letters, numerals and underscores. ASCII is decided by its ranges, all other
characters by a table.
-/

namespace ServiceMap.Text

/-- The letters, digits and underscore of ASCII. -/
def isAsciiWord (c : Char) : Bool :=
  c.isAlphanum || c == '_'

/-- Letters and numerals of every script, and the underscore. -/
def isWord (c : Char) : Bool :=
  if c.toNat < 128 then isAsciiWord c else wordRanges.contains c.toNat

/-- Characters of a name that may be qualified with dots. -/
def isDottedWord (c : Char) : Bool :=
  isWord c || c == '.'

/-- ASCII letters and the underscore, which may open an annotation's name. -/
def isNameStart (c : Char) : Bool :=
  c.isAlpha || c == '_'

theorem isWord_of_isAlphanum {c : Char} (h : c.isAlphanum = true) (small : c.toNat < 128) :
    isWord c = true := by
  simp [isWord, isAsciiWord, h, small]

theorem isDottedWord_of_isWord {c : Char} (h : isWord c = true) : isDottedWord c = true := by
  simp [isDottedWord, h]

end ServiceMap.Text
