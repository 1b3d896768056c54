import ServiceMap.Text.Case
import ServiceMap.Tree.Path

/-!
# Categories

The role a file plays in its service, by words in its name or else by the name of its directory.
-/

namespace ServiceMap.Service

open Text

/-- The roles of files. -/
inductive Category where
  | controller
  | service
  | model
  | repository
  | config
  | utility
  | test
deriving DecidableEq, Repr

namespace Category

/-- The word for a category. -/
def label : Category → String
  | controller => "controller"
  | service => "service"
  | model => "model"
  | repository => "repository"
  | config => "config"
  | utility => "utility"
  | test => "test"

/-- The word for the category of a file, if it shows one. -/
def labelOf : Option Category → String
  | some c => c.label
  | none => "unknown"

/-- Words in file names that show a category; the first category with a word that occurs counts. -/
def fileWords : List (Category × List String) :=
  [(controller, ["controller", "handler", "router"]), (service, ["service", "manager", "provider"]),
    (model, ["model", "entity", "dto", "domain"]), (repository, ["repository", "dao", "data"]),
    (config, ["config", "setting", "property"]), (utility, ["util", "helper", "tool"]),
    (test, ["test", "spec"])]

/-- Names of directories that show a category. -/
def directoryNames : List (Category × List String) :=
  [(controller, ["controller", "controllers", "handler", "handlers"]),
    (service, ["service", "services", "business", "logic"]),
    (model, ["model", "models", "entity", "entities", "domain", "dto"]),
    (repository, ["repository", "repositories", "dao", "data"]),
    (config, ["config", "configuration", "settings"]),
    (utility, ["util", "utils", "utility", "utilities", "helper", "helpers"]),
    (test, ["test", "tests", "spec", "specs"])]

/-- The category that a file name shows. Letter case does not matter. -/
def ofFileName? (name : List Char) : Option Category :=
  (fileWords.find? fun entry => entry.2.any fun word => isWithin word.toList name).map Prod.fst

/-- The category that a directory's name shows. Letter case does not matter. -/
def ofDirectoryName? (name : String) : Option Category :=
  (directoryNames.find? fun entry => entry.2.contains name).map Prod.fst

/-- The category of a file, if its name or its directory shows one. -/
def ofFile? (file : String) : Option Category :=
  let path := Path.ofString file
  (ofFileName? (lower path.name.toList)).orElse fun _ =>
    ofDirectoryName? (lowerString path.parent.name)

end Category

end ServiceMap.Service
