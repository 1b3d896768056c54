import ServiceMap.Source.Fault
import ServiceMap.Tree.Node

/-!
# Project roots

The root of the project that a file belongs to: the nearest directory above it that holds a marker.
-/

namespace ServiceMap

open Text

namespace Project

/-- Names that mark the root of a project. -/
def markers : List String := ["package.json", "pom.xml", "build.gradle", "go.mod", ".git"]

/-- Endings of names that mark the root of a project. -/
def markerEndings : List String := [".csproj", ".sln"]

/-- Whether a name marks the root of a project. -/
def isMarker (name : String) : Bool :=
  markers.contains name || markerEndings.any fun ending => endsWith ending.toList name.toList

/-- Whether the directory at a path holds a marker. -/
def hasMarker (tree : Tree) (workingDirectory directory : Path) : Bool :=
  match tree.list? workingDirectory directory with
  | some names => names.any isMarker
  | none => false

/-- The nearest directory above a file that holds a marker. -/
def root? (tree : Tree) (workingDirectory file : Path) : Option Path :=
  file.parent.upward.find? (hasMarker tree workingDirectory)

/-- The nearest directory above a file that holds a marker; a directory whose path is no path
cannot be asked for. -/
def findRoot (tree : Tree) (workingDirectory file : Path) : Except Fault (Option Path) :=
  if file.parent.hasNul then .error .nulInPath
  else .ok (root? tree workingDirectory file)

end Project

end ServiceMap
