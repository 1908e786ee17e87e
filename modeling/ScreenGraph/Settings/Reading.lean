import ScreenGraph.Json.Value
import ScreenGraph.Settings.Basic
import ScreenGraph.Text.Integer
import ScreenGraph.Yaml.Node

/-!
# ScreenGraph.Settings.Reading

Settings from a structured document, whatever its format.

A reader says which documents hold a text, a count, a flag, a word, named fields or items. A record
is given by its fields, or by the items of its first fields in their order where the format lets
items stand for a record. Fields that are not asked for are ignored, a missing field keeps its
default, and a field that is given twice or holds the wrong kind of thing refuses the whole
document.
-/

namespace ScreenGraph

/-- How the kinds of values are recognised in documents of type `δ`. -/
structure DocumentReader (δ : Type) where
  text? : δ → Option String
  count? : δ → Option Nat
  flag? : δ → Option Bool
  /-- One of a fixed set of words. -/
  word? : δ → Option String
  fields? : δ → Option (List (String × δ))
  items? : δ → Option (List δ)

namespace DocumentReader

variable {δ α : Type} (r : DocumentReader δ)

def char? (d : δ) : Option Char :=
  match (r.text? d).map String.toList with
  | some [c] => some c
  | _ => none

def oneOf? (named : List (String × α)) (d : δ) : Option α :=
  (r.word? d).bind fun word => named.lookup word

/-- The fields of a record that may have those names, and others when it names them itself. -/
def record? (names : List String) (d : δ) : Option (List (String × δ)) :=
  match r.items? d with
  | none => r.fields? d
  | some items => if items.length ≤ names.length then some (names.zip items) else none

/-- The field of a name, read, or `missing` if there is none. -/
def field? (fields : List (String × δ)) (name : String) (missing : α) (read? : δ → Option α) :
    Option α :=
  match fields.filter (·.1 = name) with
  | [] => some missing
  | [(_, d)] => read? d
  | _ => none

def options? (fields : List (String × δ)) : Option LoaderOptions := do
  let tracePrefix ← field? fields "trace_prefix" "trace" r.text?
  let separator ← field? fields "separator" ';' r.char?
  let workers ← field? fields "workers" 5 r.count?
  let strategy ← field? fields "strategy" .parallel (r.oneOf? Strategy.named)
  let compatibility ← field? fields "compatibility_mode" false r.flag?
  let malformed ← field? fields "malformed_records" .abortTrace (r.oneOf? MalformedPolicy.named)
  let commitMode ← field? fields "commit_mode" .auto (r.oneOf? CommitMode.named)
  return { tracePrefix, separator, workers, strategy, compatibility, malformed, commitMode }

/-- All settings of an app. There is no default for the base directory. -/
def settings? (d : δ) : Option Settings := do
  let fields ← r.record? ["base_dir", "trace_prefix", "states_dir", "separator", "workers",
    "strategy", "compatibility_mode", "malformed_records", "commit_mode"] d
  let options ← r.options? fields
  let baseDir ← field? fields "base_dir" none fun d => (r.text? d).map some
  let statesDir ← field? fields "states_dir" "states" r.text?
  return { options with baseDir := ⟨← baseDir⟩, statesDir }

def optionsRecord? (d : δ) : Option LoaderOptions :=
  (r.record? ["trace_prefix", "separator", "workers", "strategy", "compatibility_mode",
    "malformed_records", "commit_mode"] d).bind r.options?

/-- The options in the section `loader` of a settings file. -/
def sectionOptions? (d : δ) : Option LoaderOptions := do
  field? (← r.record? ["loader"] d) "loader" {} r.optionsRecord?

end DocumentReader

namespace Json

/-- Counts are integers below `2 ^ 64`. A word may also be the only name in an object that gives it
nothing. -/
def reading : DocumentReader Value where
  text? := fun
    | .string s => some s
    | _ => none
  count? := fun
    | .integer (.ofNat n) => if n < UInt64.size then some n else none
    | _ => none
  flag? := fun
    | .bool b => some b
    | _ => none
  word? := fun
    | .string s => some s
    | .object [(s, .null)] => some s
    | _ => none
  fields? := fun
    | .object fields => some fields
    | _ => none
  items? := fun
    | .array items => some items
    | _ => none

end Json

namespace Yaml

/-- Digits of a base, and nothing else, below `2 ^ 64`. -/
def readBase? (base : Nat) (digits : List Char) : Option Nat :=
  if digits.isEmpty then none
  else
    (digits.mapM fun c => (Text.hexValue? c).filter (· < base)).bind fun ds =>
      let n := ds.foldl (base * · + ·) 0
      if n < UInt64.size then some n else none

/-- A count is written in decimal without zeros in front, or with a mark in base 16, 8 or 2. A plus
sign may come first. -/
def readCount? (s : String) : Option Nat :=
  match (match s.toList with
    | '+' :: cs => cs
    | cs => cs) with
  | '0' :: 'x' :: cs => readBase? 16 cs
  | '0' :: 'o' :: cs => readBase? 8 cs
  | '0' :: 'b' :: cs => readBase? 2 cs
  | '0' :: _ :: _ => none
  | cs => readBase? 10 cs

/-- Whether a scalar may be taken for something else than text: it is not quoted, or it is a literal
block that a tag says to be of the standard type `type`. -/
def isTyped (type : String) (style : Style) (tag : Option (List UInt8)) : Bool :=
  match style with
  | .plain => true
  | .literal => tag = some (Text.utf8 ("tag:yaml.org,2002:" ++ type))
  | _ => false

def isNull (style : Style) (text : String) : Bool :=
  style = .plain && ["", "~", "null", "Null", "NULL"].contains text

/-- The name that a local tag gives: what follows its exclamation mark, if that is text. -/
def localName? : List UInt8 → Option String
  | 0x21 :: name => (Text.decode name).toOption
  | _ => none

/-- Text is any scalar, whatever it looks like. A word may also be a local tag with nothing behind
it. Only a mapping is a record. -/
def reading (document : Node) : DocumentReader Node where
  text? := fun n =>
    match document.content n with
    | some (.scalar _ _ s) => some s
    | _ => none
  count? := fun n =>
    match document.content n with
    | some (.scalar style tag s) => if isTyped "int" style tag then readCount? s else none
    | _ => none
  flag? := fun n =>
    match document.content n with
    | some (.scalar style tag s) =>
      if isTyped "bool" style tag then
        [("true", true), ("True", true), ("TRUE", true), ("false", false), ("False", false),
          ("FALSE", false)].lookup s
      else none
    | _ => none
  word? := fun n =>
    match document.content n with
    | some (.scalar style tag s) =>
      match tag.bind localName? with
      | some name => if isNull style s then some name else none
      | none => some s
    | _ => none
  fields? := fun n =>
    match document.content n with
    | some (.mapping pairs) => pairs.mapM fun (key, n) =>
      match document.content key with
      | some (.scalar _ _ name) => some (name, n)
      | _ => none
    | _ => none
  items? := fun _ => none

end Yaml

namespace LoaderOptions

/-- The options that a settings file asks for. One that cannot be read asks for nothing. -/
def ofFileText (text : String) : LoaderOptions :=
  ((Yaml.document? text).bind fun d => (Yaml.reading d).sectionOptions? d).getD {}

end LoaderOptions
end ScreenGraph
