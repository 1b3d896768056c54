/-!
# Blank space

What counts as blank, trimming, and the words between blanks. The information separators
U+001C to U+001F and the next-line character are blank, the zero-width space is not.
-/

namespace ServiceMap.Text

/-- Space characters of every script and the separators among the control characters. -/
def isBlank (c : Char) : Bool :=
  let n := c.toNat
  (9 ≤ n && n ≤ 13) || (28 ≤ n && n ≤ 32) || n == 0x85 || n == 0xA0 || n == 0x1680
    || (0x2000 ≤ n && n ≤ 0x200A) || n == 0x2028 || n == 0x2029 || n == 0x202F || n == 0x205F
    || n == 0x3000

/-- The text from its first character that fails `p`. -/
def dropLeft (p : Char → Bool) (s : List Char) : List Char :=
  s.dropWhile p

/-- The text up to its last character that fails `p`. -/
def dropRight (p : Char → Bool) (s : List Char) : List Char :=
  (s.reverse.dropWhile p).reverse

/-- The text without blanks at its start. -/
def trimLeft (s : List Char) : List Char :=
  dropLeft isBlank s

/-- The text without blanks at its end. -/
def trimRight (s : List Char) : List Char :=
  dropRight isBlank s

/-- The text without blanks at either end. -/
def trim (s : List Char) : List Char :=
  trimRight (trimLeft s)

/-- The stretches between characters that satisfy `p`, empty ones included. -/
def splitOn (p : Char → Bool) : List Char → List (List Char)
  | [] => [[]]
  | c :: s =>
    match splitOn p s with
    | [] => [[c]]
    | piece :: pieces => if p c then [] :: piece :: pieces else (c :: piece) :: pieces

/-- The maximal stretches without blanks. -/
def words (s : List Char) : List (List Char) :=
  (splitOn isBlank s).filter fun w => !w.isEmpty

/-- Every maximal stretch of blanks replaced by one space. -/
def collapseBlanks : List Char → List Char
  | [] => []
  | c :: s =>
    if isBlank c then
      match s with
      | [] => [' ']
      | d :: _ => if isBlank d then collapseBlanks s else ' ' :: collapseBlanks s
    else c :: collapseBlanks s

theorem splitOn_ne_nil (p : Char → Bool) (s : List Char) : splitOn p s ≠ [] := by
  cases s with
  | nil => simp [splitOn]
  | cons c s =>
    unfold splitOn
    split
    · simp
    · split <;> simp

end ServiceMap.Text
