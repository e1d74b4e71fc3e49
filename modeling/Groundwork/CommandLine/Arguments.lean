import Groundwork.Config
import Groundwork.Text
/-!
The arguments of the programs: options with one or two dashes, values beside them or after an equals
sign, and a command with arguments of its own.
-/
namespace Groundwork

/-- An option that a command knows. -/
structure OptionRule where
  name : String
  short : Option Char := none
  takesValue : Bool := false
  /-- Whether it may be given several times. -/
  repeats : Bool := false
  /-- Whether an empty value is refused. -/
  needsText : Bool := false

/-- An argument with its meaning. -/
inductive Argument
  | given (name : String) (value : String)
  | plain (text : String)
  deriving DecidableEq, Repr

namespace Argument

/-- Whether an argument can only be an option or the mark that ends the options. -/
def isDashed (text : String) : Bool := 1 < text.length && Text.startsWith text "-"

/-- An option whose value, if it takes one, is the next argument. -/
def detached (rule : OptionRule) (rest : List String) : Option (Argument × List String) :=
  if !rule.takesValue then some (.given rule.name "", rest)
  else match rest with
    | value :: rest => if isDashed value then none else some (.given rule.name value, rest)
    | [] => none

/-- An option with two dashes. -/
def long (rules : List OptionRule) (text : List Char) (rest : List String) :
    Option (Argument × List String) :=
  let find (name : List Char) := rules.find? (·.name = String.ofList name)
  match Text.cutFirst '=' text with
  | none => do detached (← find text) rest
  | some (name, value) => do
    let rule ← find name
    if rule.takesValue then some (.given rule.name (String.ofList value), rest) else none

/-- Options with one dash. The first that takes a value takes what follows it. -/
def short (rules : List OptionRule) : List Char → List String → Option (List Argument × List String)
  | [], rest => some ([], rest)
  | c :: cs, rest => do
    let rule ← rules.find? (·.short = some c)
    if rule.takesValue && !cs.isEmpty then
      let value := if cs.head? = some '=' then cs.tail else cs
      some ([.given rule.name (String.ofList value)], rest)
    else if rule.takesValue then
      let (a, rest) ← detached rule rest
      some ([a], rest)
    else
      let (as, rest) ← short rules cs rest
      some (.given rule.name "" :: as, rest)

/-- The arguments up to the first that is plain, and the others. Nothing comes after the mark that
ends the options. -/
def leading (rules : List OptionRule) : Nat → List String → Option (List Argument × List String)
  | 0, _ => none
  | _, [] => some ([], [])
  | fuel + 1, text :: rest =>
    if !isDashed text then some ([], text :: rest)
    else if text = "--" then some ([], text :: rest)
    else do
      let (as, rest) ← match Text.after? ['-', '-'] text.toList with
        | some body => (long rules body rest).map fun (a, rest) => ([a], rest)
        | none => short rules (text.toList.drop 1) rest
      let (more, rest) ← leading rules fuel rest
      some (as ++ more, rest)

/-- All arguments of a command; options may stand between and after the plain ones. -/
def all (rules : List OptionRule) : Nat → List String → Option (List Argument)
  | 0, _ => none
  | fuel + 1, texts => do
    let (as, rest) ← leading rules (texts.length + 1) texts
    match rest with
    | [] => some as
    | text :: rest =>
      if text = "--" then some (as ++ rest.map .plain)
      else do some (as ++ .plain text :: (← all rules fuel rest))

def values (as : List Argument) (name : String) : List String :=
  as.filterMap fun
    | .given n value => if n = name then some value else none
    | .plain _ => none

def value? (as : List Argument) (name : String) : Option String := (values as name).head?

def has (as : List Argument) (name : String) : Bool := !(values as name).isEmpty

def plains (as : List Argument) : List String :=
  as.filterMap fun
    | .given .. => none
    | .plain text => some text

/-- Whether every option is given as often as it may be, with a text where it needs one. -/
def isValid (rules : List OptionRule) (as : List Argument) : Bool :=
  rules.all fun rule =>
    let found := values as rule.name
    (rule.repeats || found.length ≤ 1) && (!rule.needsText || !found.contains "")

/-- The arguments of a command that takes no command of its own. -/
def parse? (rules : List OptionRule) (texts : List String) : Option (List Argument) := do
  let as ← all rules (texts.length + 1) texts
  if isValid rules as then some as else none

end Argument

/-- What the operator can ask the manager to do. -/
inductive Order
  | source
  | targets
  | install (options : InstallOptions)
  | reset (seeds : List String) (request : Option String) (wipeSeeds allowChipFailure : Bool)
  | encrypt (device : String)
  | importDrive (device key : String)
  | unlock
  | keys
  | health
  deriving DecidableEq

namespace Order

def installRules : List OptionRule :=
  [{ name := "target", short := some 't', takesValue := true }, { name := "force" },
   { name := "force-reboot" }]

def resetRules : List OptionRule :=
  [{ name := "seed", short := some 's', takesValue := true, repeats := true },
   { name := "request", takesValue := true, needsText := true },
   { name := "wipe-seeds" }, { name := "allow-tpm-failure" }]

/-- A command without arguments. -/
def bare (order : Order) (texts : List String) : Option Order := do
  match ← Argument.parse? [] texts with
  | [] => some order
  | _ => none

def install? (texts : List String) : Option Order := do
  let as ← Argument.parse? installRules texts
  match Argument.plains as with
  | [] => some (.install {
      forceInstall := Argument.has as "force"
      forceReboot := Argument.has as "force-reboot"
      target := Argument.value? as "target" })
  | _ => none

/-- Single seeds and a whole request exclude each other. -/
def reset? (texts : List String) : Option Order := do
  let as ← Argument.parse? resetRules texts
  match Argument.plains as with
  | [] =>
    if Argument.has as "seed" && Argument.has as "request" then none
    else some (.reset (Argument.values as "seed") (Argument.value? as "request")
      (Argument.has as "wipe-seeds") (Argument.has as "allow-tpm-failure"))
  | _ => none

def encrypt? (texts : List String) : Option Order := do
  match Argument.plains (← Argument.parse? [] texts) with
  | [device] => if device = "" then none else some (.encrypt device)
  | _ => none

def import? (texts : List String) : Option Order := do
  match Argument.plains (← Argument.parse? [] texts) with
  | [device, key] => if device = "" then none else some (.importDrive device key)
  | _ => none

def parse? (command : String) (texts : List String) : Option Order :=
  match command with
  | "source" => bare .source texts
  | "targets" => bare .targets texts
  | "install" => install? texts
  | "reset" => reset? texts
  | "encrypt" => encrypt? texts
  | "import" => import? texts
  | "unlock" => bare .unlock texts
  | "keys" => bare .keys texts
  | "health" => bare .health texts
  | _ => none

end Order

def defaultConfigPath : String := "/etc/strata/config.json"

def configRule : OptionRule :=
  { name := "config", short := some 'c', takesValue := true, needsText := true }

/-- A call of the manager. -/
structure Invocation where
  config : String
  order : Order
  deriving DecidableEq

/-- None for a usage error. -/
def Invocation.parse? (texts : List String) : Option Invocation := do
  let (as, rest) ← Argument.leading [configRule] (texts.length + 1) texts
  if !Argument.isValid [configRule] as then none
  else match rest with
    | [] => none
    | command :: rest =>
      let config := (Argument.value? as "config").getD defaultConfigPath
      some ⟨config, ← Order.parse? command rest⟩

/-- A start of the daemon. -/
structure DaemonInvocation where
  config : String
  /-- Report the health of the pools once and end. -/
  once : Bool
  deriving DecidableEq

def DaemonInvocation.parse? (texts : List String) : Option DaemonInvocation := do
  let as ← Argument.parse? [configRule, { name := "once" }] texts
  match Argument.plains as with
  | [] => some ⟨(Argument.value? as "config").getD defaultConfigPath, Argument.has as "once"⟩
  | _ => none

end Groundwork
