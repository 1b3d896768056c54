/-!
# Finding text in text

Positions count characters from 0.
-/

namespace ServiceMap.Text

/-- The position of the first occurrence of `needle`. -/
def find? (needle : List Char) : List Char → Option Nat
  | [] => if needle.isEmpty then some 0 else none
  | c :: s => if needle.isPrefixOf (c :: s) then some 0 else (find? needle s).map (· + 1)

/-- The position of the first occurrence of `needle` at or after `start`. -/
def findFrom? (needle text : List Char) (start : Nat) : Option Nat :=
  (find? needle (text.drop start)).map (· + start)

/-- The position of the last character equal to `c`. -/
def findLast? (c : Char) (s : List Char) : Option Nat :=
  (s.reverse.findIdx? (· == c)).map (s.length - 1 - ·)

/-- Whether `needle` occurs in a text. -/
def isWithin (needle text : List Char) : Bool :=
  (find? needle text).isSome

/-- The stretch from `start` up to, not including, `stop`. -/
def slice (text : List Char) (start stop : Nat) : List Char :=
  (text.take stop).drop start

/-- Whether the text ends in `ending`. -/
def endsWith (ending text : List Char) : Bool :=
  ending.isSuffixOf text

/-- The text without `ending`, if it ends in it. -/
def dropEnding (ending text : List Char) : List Char :=
  if endsWith ending text then text.take (text.length - ending.length) else text

/-- Each occurrence of `old` replaced by `new`, from the left and without overlap; `skip` counts
the characters of an occurrence that are still to be passed over. -/
def replaceFrom (old new : List Char) : Nat → List Char → List Char
  | _, [] => []
  | skip + 1, _ :: s => replaceFrom old new skip s
  | 0, c :: s =>
    if old.isPrefixOf (c :: s) then new ++ replaceFrom old new (old.length - 1) s
    else c :: replaceFrom old new 0 s

/-- Each occurrence of the non-empty `old` replaced by `new`. -/
def replace (old new text : List Char) : List Char :=
  replaceFrom old new 0 text

/-- The text before the first `c`, and all of it when there is none. -/
def before (c : Char) (text : List Char) : List Char :=
  text.takeWhile (· != c)

/-- The text after the last `c`, and all of it when there is none. -/
def afterLast (c : Char) (text : List Char) : List Char :=
  (text.reverse.takeWhile (· != c)).reverse

end ServiceMap.Text
