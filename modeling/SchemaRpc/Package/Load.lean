/-
# Loading packages

A package document is a JSON or YAML text.  Its value has to have the shape of a package, which
reports everything that is wrong at once; then the package is read from it.
-/
import SchemaRpc.Json.Reader
import SchemaRpc.Package.Reader
import SchemaRpc.Package.Shape
import SchemaRpc.Utf8
import SchemaRpc.Yaml.Reader

namespace SchemaRpc

namespace Package

/-- The syntax of a document. -/
inductive Format where
  | json
  | yaml
deriving DecidableEq

/-- The word for a syntax in messages. -/
def Format.title : Format → String
  | .json => "JSON"
  | .yaml => "YAML"

/-- The last component of a path, empty ones and `.` apart. -/
def fileName (path : String) : List Char :=
  match ((path.splitOn "/").filter fun part => part ≠ "" ∧ part ≠ ".").getLast? with
  | some name => name.toList
  | none => []

/-- What follows the last point of a file name, if something precedes the point. -/
def suffix (name : List Char) : List Char :=
  let reversed := name.reverse
  match reversed.dropWhile (· ≠ '.') with
  | _ :: _ :: _ => (reversed.takeWhile (· ≠ '.')).reverse
  | _ => []

/-- The syntax of the document in a file: YAML if the name of the file says so, and JSON
otherwise. -/
def Format.ofPath (path : String) : Format :=
  if ["yaml".toList, "yml".toList].contains (suffix (fileName path)) then .yaml else .json

/-- Why no package can be loaded. -/
inductive LoadError where
  /-- There is no file to read. -/
  | noFile
  /-- The bytes of the file are no text. -/
  | notText
  /-- The text is no document of its syntax. -/
  | notDocument (format : Format)
  /-- The document does not have the shape of a package. -/
  | misshapen (violations : List Json.Violation)
  /-- The document has the shape of a package, yet none can be read from it. -/
  | unreadable (error : ReadError)
deriving DecidableEq

/-- The wording of an error. -/
def LoadError.message : LoadError → String
  | .noFile => "cannot read file: No such file or directory (os error 2)"
  | .notText => "cannot read file: stream did not contain valid UTF-8"
  | .notDocument format => "invalid " ++ format.title
  | .misshapen violations => "\n".intercalate (violations.map (·.display))
  | .unreadable error => error.message

/-- The value of a document. -/
def documentValue? (format : Format) (text : String) : Option Json :=
  match format with
  | .json => Json.parse? text
  | .yaml => Yaml.parse? text

/-- The package of a document. -/
def load (format : Format) (text : String) : Except LoadError Package :=
  match documentValue? format text with
  | none => .error (.notDocument format)
  | some value =>
    match Json.violations Shape.document value with
    | [] => (ofJson value).mapError .unreadable
    | violations => .error (.misshapen violations)

/-- The package of a file, given its bytes if there is such a file. -/
def loadFile (path : String) : (content : Option Bytes) → Except LoadError Package
  | none => .error .noFile
  | some bytes =>
    match Utf8.decode bytes with
    | .error _ => .error .notText
    | .ok text => load (.ofPath path) text

end Package

end SchemaRpc
