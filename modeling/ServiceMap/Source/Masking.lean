/-!
# Literals and comments

Where a string literal ends, and masking comments. A literal runs to the next occurrence of its
quote; a backslash hides the character after it, unless the literal is raw. A literal that is not
closed on its line is cut off before the newline, except that a backtick literal may span lines.

Comments are blanked out and everything else is kept, so that positions and line numbers of the
masked text are those of the source. Text in string literals is never taken for a comment.
-/

namespace ServiceMap.Source

/-! ## String literals -/

/-- The quote of raw strings, which may span lines. -/
def backtick : Char := '\x60'

/-- The quotes that open a string literal in every language: double and single. -/
def isQuote (c : Char) : Bool :=
  c == '\x22' || c == '\x27'

/-- The quotes that delimit text inside brackets: double, single and backtick. -/
def isAnyQuote (c : Char) : Bool :=
  isQuote c || c == backtick

/-- The number of characters, after the opening `quote`, that belong to a literal. -/
def literalRest (quote : Char) (escapes : Bool) : List Char → Nat
  | [] => 0
  | c :: s =>
    if escapes && c == '\\' then
      match s with
      | [] => 1
      | _ :: t => literalRest quote escapes t + 2
    else if c == quote then 1
    else if c == '\n' && quote != backtick then 0
    else literalRest quote escapes s + 1

theorem literalRest_le_length (quote : Char) (escapes : Bool) (s : List Char) :
    literalRest quote escapes s ≤ s.length := by
  fun_induction literalRest quote escapes s <;> simp_all

/-! ## Masking comments -/

/-- What stands at the front of a text. -/
inductive Lead where
  /-- A comment of this many characters. -/
  | comment (length : Nat)
  /-- A string literal of this many characters. -/
  | literal (length : Nat)
  /-- A character of the program. -/
  | code
deriving DecidableEq, Repr

/-- The number of characters up to and including the end of a block comment whose opening is
already passed. -/
def blockRest : List Char → Nat
  | [] => 0
  | '*' :: '/' :: _ => 2
  | _ :: s => blockRest s + 1

/-- What a text starts with. A line comment ends before the newline, a block comment after its
closing mark. `rawQuote` opens literals in which a backslash hides nothing. -/
def lead (rawQuote : Option Char) : List Char → Lead
  | [] => .code
  | '/' :: '/' :: s => .comment ((s.takeWhile (· != '\n')).length + 2)
  | '/' :: '*' :: s => .comment (blockRest s + 2)
  | c :: s =>
    if isQuote c || some c == rawQuote then .literal (literalRest c (some c != rawQuote) s + 1)
    else .code

/-- A comment character as it appears in the masked text: newlines stay. -/
def blank (c : Char) : Char :=
  if c = '\n' then '\n' else ' '

/-- The text with its comments blanked out. -/
def maskComments (rawQuote : Option Char) : List Char → List Char
  | [] => []
  | c :: s =>
    match lead rawQuote (c :: s) with
    | .comment n => blank c :: (s.take (n - 1)).map blank ++ maskComments rawQuote (s.drop (n - 1))
    | .literal n => c :: s.take (n - 1) ++ maskComments rawQuote (s.drop (n - 1))
    | .code => c :: maskComments rawQuote s
termination_by s => s.length
decreasing_by all_goals simp; try omega

end ServiceMap.Source
