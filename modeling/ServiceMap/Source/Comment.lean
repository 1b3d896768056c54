import ServiceMap.Pattern.Matching
import ServiceMap.Text.Find
import ServiceMap.Text.Lines

/-!
# Comment text

The words of a comment without its marks.
-/

namespace ServiceMap.Source

open ServiceMap.Text Pattern

/-- The mark that may open a line of a comment, with the blanks around it. -/
def commentMark : Pattern :=
  blanks
    ++ opt ((lit "//" ++ opt (lit "/")) <|> (lit "/*" ++ opt (lit "*")) <|> lit "*/" <|> lit "*")
    ++ opt (char isBlank)

/-- A line of a comment without the mark at its front. -/
def dropMark (line : List Char) : List Char :=
  match commentMark.matchStart? line with
  | some m => line.drop m.stop
  | none => line

/-- One line of a comment without marks and surrounding blanks. -/
def commentLine (line : List Char) : List Char :=
  let line := trim line
  if line.isEmpty then [] else trim (dropMark (replace "*/".toList [] line))

/-- The text of comments: their lines without marks and surrounding blanks, empty ones left out. -/
def commentText (raw : List Char) : List Char :=
  joinLines (((lines raw).map commentLine).filter fun line => !line.isEmpty)

/-- The text of documentation comments without the lines of block tags. -/
def docText (raw : List Char) : List Char :=
  joinLines ((lines (commentText raw)).filter fun line => line.head? != some '@')

/-- An opening and a closing summary tag with the least text between. -/
def summaryElement : Pattern :=
  lit "<summary>" ++ capture 1 (few fun _ => true) ++ lit "</summary>"

/-- A tag. -/
def markupTag : Pattern :=
  lit "<" ++ many1 (· != '>') ++ lit ">"

/-- The text of XML documentation: of its summary, if there is one, without tags. -/
def xmlDocText (raw : List Char) : List Char :=
  let text := commentText raw
  let text := match summaryElement.find? text with
    | some m => m.group 1
    | none => text
  joinLines (((lines (markupTag.replaceAll [] text)).map trim).filter fun line => !line.isEmpty)

end ServiceMap.Source
