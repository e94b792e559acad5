import VoxelScout.Json
import VoxelScout.Log.Level

/-! # Log lines

A line has a level, a message and named values. It is written either as text, in pairs of
a name and a value, or as a document.
-/

namespace VoxelScout.Log

structure Line where
  level : Level
  message : String
  component : String
  values : List (String × Json)

namespace Line

/-- A text as it stands in a line: between quotes if it would not be one word otherwise. -/
def word (text : String) : String :=
  if text.isEmpty || text.toList.any (fun c => c ≤ ' ' || c == '"' || c == '=') then
    (Json.string text).render
  else text

def valueWord : Json → String
  | .string text => word text
  | other => other.render

def pairs (l : Line) : List (String × Json) :=
  [("level", .string l.level.label), ("msg", .string l.message), ("component", .string l.component)]
    ++ l.values

def text (l : Line) : String :=
  String.intercalate " " (l.pairs.map fun (name, value) => name ++ "=" ++ valueWord value)

def document (l : Line) : Json :=
  .object l.pairs

end Line

inductive Style where
  | text
  | document
  deriving DecidableEq, Repr

def Style.ofEnvironment (env : String → Option String) : Style :=
  if env "BOTFORGE_ENV" == some "production" then .document else .text

def Style.render (s : Style) (l : Line) : String :=
  match s with
  | .text => l.text
  | .document => l.document.render

end VoxelScout.Log
