import Groundwork.Config
import Groundwork.Yaml.Node
/-!
Install options written as YAML documents. Records are mappings only; a document without a value is
an empty mapping.
-/
namespace Groundwork

open Yaml

namespace Yaml.Document

/-- Any scalar is a text. -/
def text (d : Document) (n : Node) : Reading String :=
  match d.resolve n with
  | .scalar _ s _ => .ok s
  | _ => .error "invalid type, expected a string"

def booleanTag : String := "tag:yaml.org,2002:bool"

def nullTag : String := "tag:yaml.org,2002:null"

def boolean? (word : String) : Option Bool :=
  if ["true", "True", "TRUE"].contains word then some true
  else if ["false", "False", "FALSE"].contains word then some false
  else none

def isNullWord (word : String) : Bool := ["null", "Null", "NULL", "~"].contains word

/-- A plain scalar, or a literal one that is tagged as a boolean. -/
def boolean (d : Document) (n : Node) : Reading Bool :=
  let word? := match d.resolve n with
    | .scalar _ s .plain => some s
    | .scalar (some tag) s .literal => if tag = booleanTag then some s else none
    | _ => none
  match word?.bind boolean? with
  | some b => .ok b
  | none => .error "invalid type, expected a boolean"

/-- The pairs of a mapping with their keys, which have to be texts. -/
def pairs (d : Document) (n : Node) : Reading (List (String × Node)) :=
  match d.resolve n with
  | .mapping ps => ps.mapM fun (k, v) => do .ok (← d.text k, v)
  | .scalar _ "" .plain => .ok []
  | _ => .error "invalid type, expected a mapping"

/-- The value of a field, which may be given once. Other fields are passed over. -/
def field? (ps : List (String × Node)) (name : String) : Reading (Option Node) :=
  match (ps.filter (·.1 = name)).map (·.2) with
  | [] => .ok none
  | [n] => .ok (some n)
  | _ => .error s!"duplicate field '{name}'"

/-- Whether a value stands for nothing: no text at all, or a word for nothing. -/
def isNone (d : Document) (n : Node) : Reading Bool :=
  match d.resolve n with
  | .scalar none s .plain => .ok (s = "" || isNullWord s)
  | .scalar (some tag) s .plain =>
    if tag = nullTag then
      if isNullWord s then .ok true else .error "invalid value, expected null"
    else .ok false
  | _ => .ok false

def target (d : Document) (n : Node) : Reading (Option String) := do
  if ← d.isNone n then .ok none
  else
    match ← field? (← d.pairs n) "id" with
    | none => .ok (some "")
    | some id => .ok (some (← d.text id))

def installOptions (d : Document) : Reading InstallOptions := do
  let ps ← match d.root with
    | none => .ok []
    | some n => d.pairs n
  let forceInstall ← field? ps "force_install"
  let forceReboot ← field? ps "force_reboot"
  let target ← field? ps "target"
  return {
    forceInstall := (← forceInstall.mapM d.boolean).getD false
    forceReboot := (← forceReboot.mapM d.boolean).getD false
    target := (← target.mapM d.target).getD none }

end Yaml.Document

def InstallOptions.ofYaml (bytes : ByteArray) : Reading InstallOptions :=
  match String.fromUTF8? bytes with
  | some s => do (← Document.parse s).installOptions
  | none => .error "invalid text"

end Groundwork
