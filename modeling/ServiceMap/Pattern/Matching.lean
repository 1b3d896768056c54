import ServiceMap.Pattern.Basic

/-!
# Matching

`Pattern.run` tries the ways in which a pattern can match at a place, in their order, until what
follows accepts the place after the match; what follows is given as a function. `Pattern.findAll`
collects the matches of a text from left to right, each starting at or after the end of the one
before.
-/

namespace ServiceMap

/-- A stretch of text, by its two ends and the text from its start on. -/
structure Capture where
  start : Nat
  stop : Nat
  source : List Char
deriving Repr, DecidableEq

/-- The characters of the stretch. -/
def Capture.text (c : Capture) : List Char :=
  c.source.take (c.stop - c.start)

/-- A place in a text, with the stretches remembered on the way there. -/
structure Place where
  /-- The character just before, if any. -/
  before : Option Char
  /-- The text from here on. -/
  rest : List Char
  /-- The number of characters before. -/
  index : Nat
  /-- Remembered stretches, the latest first. -/
  captures : List (Nat × Capture) := []
deriving Repr, DecidableEq

namespace Place

/-- The start of a text. -/
def start (text : List Char) : Place :=
  ⟨none, text, 0, []⟩

/-- The place one character on. -/
def next (p : Place) (c : Char) (rest : List Char) : Place :=
  ⟨some c, rest, p.index + 1, p.captures⟩

/-- The place after a stretch that began at `p` is remembered. -/
def remember (p : Place) (slot : Nat) (begun : Place) : Place :=
  { p with captures := (slot, ⟨begun.index, p.index, begun.rest⟩) :: p.captures }

/-- Whether exactly one of the two neighbouring characters belongs to a name. -/
def atWordEdge (p : Place) : Bool :=
  p.before.any Text.isWord != p.rest.head?.any Text.isWord

/-- Whether a line starts here. -/
def atLineStart (p : Place) : Bool :=
  p.before.all (· == '\n')

/-- The places after none, one, two and more characters of a class, `p` first. -/
def stops (accepts : Char → Bool) (before : Option Char) (index : Nat)
    (captures : List (Nat × Capture)) : List Char → List Place
  | [] => [⟨before, [], index, captures⟩]
  | c :: rest =>
    ⟨before, c :: rest, index, captures⟩
      :: if accepts c then stops accepts (some c) (index + 1) captures rest else []

/-- The places after none, one, two and more characters of a class, the farthest first. -/
def stopsBack (accepts : Char → Bool) (passed : List Place) (before : Option Char) (index : Nat)
    (captures : List (Nat × Capture)) : List Char → List Place
  | [] => ⟨before, [], index, captures⟩ :: passed
  | c :: rest =>
    let here := ⟨before, c :: rest, index, captures⟩ :: passed
    if accepts c then stopsBack accepts here (some c) (index + 1) captures rest else here

theorem stopsBack_eq (accepts : Char → Bool) (passed : List Place) (before : Option Char)
    (index : Nat) (captures : List (Nat × Capture)) (rest : List Char) :
    stopsBack accepts passed before index captures rest
      = (stops accepts before index captures rest).reverse ++ passed := by
  induction rest generalizing passed before index with
  | nil => simp [stopsBack, stops]
  | cons c rest ih =>
    by_cases h : accepts c = true <;> simp [stopsBack, stops, h, ih]

end Place

/-- What follows a match, as far as the whole match is concerned: the place it ends at, if any. -/
abbrev Follow := Place → Option Place

namespace Pattern

/-- Rounds of `step`, at most `limit` of them, the most first if `eager`. A round that takes no
character is not repeated. -/
def runRounds (step : Place → Follow → Option Place) (eager : Bool) :
    (limit : Nat) → Place → Follow → Option Place
  | 0, p, follow => follow p
  | limit + 1, p, follow =>
    let onward := fun (_ : Unit) => step p fun q =>
      if q.index = p.index then none else runRounds step eager limit q follow
    if eager then (onward ()) <|> follow p else (follow p) <|> onward ()

/-- The end of the first way to match at a place after which `follow` succeeds; `limit` bounds the
rounds of a repetition and is the number of characters left or more. -/
def run (limit : Nat) : Pattern → Place → Follow → Option Place
  | .empty, p, follow => follow p
  | .char accepts, p, follow =>
    match p.rest with
    | [] => none
    | c :: rest => if accepts c then follow (p.next c rest) else none
  | .wordEdge, p, follow => if p.atWordEdge then follow p else none
  | .lineStart, p, follow => if p.atLineStart then follow p else none
  | .textEnd, p, follow => if p.rest.isEmpty then follow p else none
  | .seq first second, p, follow => run limit first p fun q => run limit second q follow
  | .either first second, p, follow => run limit first p follow <|> run limit second p follow
  | .chars accepts eager, p, follow =>
    if eager then
      (Place.stopsBack accepts [] p.before p.index p.captures p.rest).findSome? follow
    else (Place.stops accepts p.before p.index p.captures p.rest).findSome? follow
  | .rounds body eager, p, follow =>
    runRounds (fun q next => run limit body q next) eager limit p follow
  | .capture slot body, p, follow => run limit body p fun q => follow (q.remember slot p)
  | .ahead body, p, follow => if (run limit body p some).isSome then follow p else none

end Pattern

/-- A match: the whole stretch and the stretches remembered within it. -/
structure Match where
  whole : Capture
  captures : List (Nat × Capture)
deriving Repr, DecidableEq

namespace Match

/-- Where the match starts. -/
def start (m : Match) : Nat := m.whole.start

/-- Where the match ends. -/
def stop (m : Match) : Nat := m.whole.stop

/-- The matched characters. -/
def text (m : Match) : List Char := m.whole.text

/-- The stretch remembered under `slot`, if the match went through it. -/
def capture? (m : Match) (slot : Nat) : Option Capture :=
  m.captures.lookup slot

/-- The characters remembered under `slot`, if the match went through it. -/
def group? (m : Match) (slot : Nat) : Option (List Char) :=
  (m.capture? slot).map Capture.text

/-- The characters remembered under `slot`, none if the match did not go through it. -/
def group (m : Match) (slot : Nat) : List Char :=
  (m.group? slot).getD []

/-- Where the stretch remembered under `slot` starts. -/
def groupStart (m : Match) (slot : Nat) : Nat :=
  ((m.capture? slot).map Capture.start).getD m.start

end Match

namespace Pattern

/-- The match of a pattern at a place. -/
def matchHere? (p : Pattern) (limit : Nat) (here : Place) : Option Match :=
  (p.run limit here some).map fun last =>
    ⟨⟨here.index, last.index, here.rest⟩, last.captures⟩

/-- The match of a pattern at the start of a text. -/
def matchStart? (p : Pattern) (text : List Char) : Option Match :=
  p.matchHere? text.length (Place.start text)

/-- The first match in the rest of a text. -/
def firstFrom? (p : Pattern) (limit : Nat) (before : Option Char) (index : Nat) :
    List Char → Option Match
  | [] => p.matchHere? limit ⟨before, [], index, []⟩
  | c :: rest =>
    match p.matchHere? limit ⟨before, c :: rest, index, []⟩ with
    | some m => some m
    | none => firstFrom? p limit (some c) (index + 1) rest

/-- The leftmost match in a text. -/
def find? (p : Pattern) (text : List Char) : Option Match :=
  p.firstFrom? text.length none 0 text

/-- Whether the pattern matches anywhere in a text. -/
def occurs (p : Pattern) (text : List Char) : Bool :=
  (p.find? text).isSome

/-- The matches in the rest of a text that start at `resume` or later, from left to right and
without overlap. -/
def allFrom (p : Pattern) (limit resume : Nat) (before : Option Char) (index : Nat) :
    List Char → List Match
  | [] =>
    if index < resume then [] else (p.matchHere? limit ⟨before, [], index, []⟩).toList
  | c :: rest =>
    if index < resume then allFrom p limit resume (some c) (index + 1) rest
    else
      match p.matchHere? limit ⟨before, c :: rest, index, []⟩ with
      | some m => m :: allFrom p limit m.stop (some c) (index + 1) rest
      | none => allFrom p limit resume (some c) (index + 1) rest

/-- All matches of a text, from left to right and without overlap. -/
def findAll (p : Pattern) (text : List Char) : List Match :=
  p.allFrom text.length 0 none 0 text

/-- All matches between two positions. The text is taken to end at `stop`, while what stands just
before `start` still counts for word edges and line starts. -/
def findBetween (p : Pattern) (text : List Char) (start stop : Nat) : List Match :=
  let rest := (text.take stop).drop start
  let before := if start = 0 then none else text[start - 1]?
  p.allFrom rest.length 0 before start rest

/-- The text with each of these stretches, which follow one another, replaced by `new`. -/
def substitute (new : List Char) (text : List Char) (done : Nat) : List Match → List Char
  | [] => text
  | m :: rest =>
    text.take (m.start - done) ++ new
      ++ substitute new (text.drop (m.stop - done)) m.stop rest

/-- The text with each match replaced by `new`. -/
def replaceAll (p : Pattern) (new text : List Char) : List Char :=
  substitute new text 0 (p.findAll text)

end Pattern

end ServiceMap
