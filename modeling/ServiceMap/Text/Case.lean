import ServiceMap.Text.CaseTable

/-!
# Letter case

Upper and lower case of whole texts. A letter may have a sequence as its counterpart, as the sharp
s has two capitals; a capital sigma becomes the final form where a word ends.
-/

namespace ServiceMap.Text

/-- The counterpart of code point `n` in a table of runs. -/
def counterpart (runs : Array CaseRun) (n : Nat) : Nat :=
  match runs.find? fun r => r.first ≤ n && n ≤ r.last && (n - r.first) % r.stride == 0 with
  | some r => ((n : Int) + r.offset).toNat
  | none => n

/-- The counterpart of a character beyond ASCII in a table of sequences and a table of runs. -/
def tableCase (sequences : List (Nat × List Nat)) (runs : Array CaseRun) (c : Char) : List Char :=
  match sequences.lookup c.toNat with
  | some codes => codes.map Char.ofNat
  | none => [Char.ofNat (counterpart runs c.toNat)]

/-- The capital form of a character. -/
def upperChar (c : Char) : List Char :=
  if c.toNat < 128 then [c.toUpper] else tableCase upperSequences upperRuns c

/-- The small form of a character, wherever it stands. -/
def lowerChar (c : Char) : List Char :=
  if c.toNat < 128 then [c.toLower] else tableCase lowerSequences lowerRuns c

/-- Whether the nearest character that is not passed over has case. -/
def meetsLetter (s : List Char) : Bool :=
  match s.find? fun c => !caseIgnorableRanges.contains c.toNat with
  | some c => casedRanges.contains c.toNat
  | none => false

/-- A capital sigma is final after a letter and before none. -/
def lowerSigma (reversedBefore after : List Char) : Char :=
  if meetsLetter reversedBefore && !meetsLetter after then 'ς' else 'σ'

/-- Lower case of a text whose part before, reversed, is given. -/
def lowerAfter (reversedBefore : List Char) : List Char → List Char
  | [] => []
  | c :: s =>
    (if c = 'Σ' then [lowerSigma reversedBefore s] else lowerChar c)
      ++ lowerAfter (c :: reversedBefore) s

/-- The text in lower case. -/
def lower (s : List Char) : List Char :=
  lowerAfter [] s

/-- The text in upper case. -/
def upper (s : List Char) : List Char :=
  s.flatMap upperChar

/-- The first character in upper case, the others as they are. -/
def upperFirst : List Char → List Char
  | [] => []
  | c :: s => upperChar c ++ s

/-- Each word of ASCII letters with a capital first and small letters after it; `inWord` tells
that a letter came just before. -/
def titleFrom : (inWord : Bool) → List Char → List Char
  | _, [] => []
  | inWord, c :: s => (if inWord then c.toLower else c.toUpper) :: titleFrom c.isAlpha s

/-- Each word of ASCII letters with a capital first. -/
def title (s : List Char) : List Char :=
  titleFrom false s

/-- The text in lower case. -/
def lowerString (s : String) : String :=
  String.ofList (lower s.toList)

end ServiceMap.Text
