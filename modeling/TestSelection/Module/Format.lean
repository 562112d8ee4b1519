import TestSelection.Document.Toml.Lines
import TestSelection.Document.Yaml.Stream
import TestSelection.Failure
import TestSelection.FileSystem.Path
import TestSelection.Module.Description

/-!
Module graphs from text. A description is written in one of three notations, which a file chooses by
its extension; all of them deliver the same kind of tree, so they describe the same graphs.
-/

namespace TestSelection

inductive GraphFormat
  | toml
  | json
  | yaml
  deriving Repr, DecidableEq

namespace GraphFormat

def ofPath (path : String) : GraphFormat :=
  match Path.extension? path with
  | some "json" => json
  | some "yaml" => yaml
  | some "yml" => yaml
  | _ => toml

def label : GraphFormat → String
  | toml => "Toml"
  | json => "Json"
  | yaml => "Yaml"

def dialect : GraphFormat → Dialect
  | toml => Toml.dialect
  | json => JsonText.dialect
  | yaml => Yaml.dialect

def document (format : GraphFormat) (text : String) : Document :=
  match format with
  | toml => Toml.read text
  | json => JsonText.read text
  | yaml => Yaml.read text

end GraphFormat

namespace ModuleGraph

/-- The graph that a document declares. -/
def ofDocument (dialect : Dialect) (document : Document) : Except ConfigFault ModuleGraph :=
  match document.read (specsOfTree dialect) with
  | .error fault => .error (.graphDocument fault)
  | .ok specs =>
    match ofSpecs specs with
    | .error fault => .error (.graphDeclarations fault)
    | .ok graph => .ok graph

def parse (format : GraphFormat) (text : String) : Except ConfigFault ModuleGraph :=
  ofDocument format.dialect (format.document text)

end ModuleGraph

end TestSelection
