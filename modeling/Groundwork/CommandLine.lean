import Groundwork.Boot
import Groundwork.CommandLine.Arguments
import Groundwork.CommandLine.Report
import Groundwork.Reset
import Groundwork.Text.Quoted
/-!
The two programs: the manager, with which an operator installs, resets and looks after a machine, and
the daemon that starts with it. Whatever destroys data is asked about first.
-/
namespace Groundwork

variable {α : Type}

/-- A step of a program. What goes wrong is reported to the operator. -/
abbrev Session (α : Type) := ExceptT Report (StateM Machine) α

namespace Session

/-- Performs a step of a workflow. -/
def perform (a : Action α) : Session α := ExceptT.mk do
  return (← ExceptT.run a).mapError Report.ofFailure

/-- Performs a step of a workflow, with a context for what goes wrong in it. -/
def within (context : String) (a : Action α) : Session α := ExceptT.mk do
  return (← ExceptT.run a).mapError fun e => (Report.ofFailure e).within context

/-- Performs a workflow. If it fails the operator is told whether the machine is as it was. -/
def explained (a : Action α) : Session α := do
  match ← perform (Action.attempt a) with
  | .ok x => return x
  | .error e =>
    perform (Action.complain
      (if e.isUntouched then "No changes were made."
        else "The operation failed part way through; the machine may not boot."))
    throw (Report.ofFailure e)

def print (text : String) : Session Unit := perform (Action.print text)

def files : Session FileTree := do return (← get).files

end Session

/-- What a program is given to read, which need not be text. -/
structure Input where
  bytes : ByteArray

instance : Coe String Input := ⟨fun text => ⟨text.toUTF8⟩⟩

/-- The first line, without its end. -/
def Input.firstLine (input : Input) : Except SystemError String :=
  match String.fromUTF8? ⟨(input.bytes.toList.takeWhile (· ≠ 0x0A)).toArray⟩ with
  | some line => .ok line
  | none => .error .notText

/-- Options of an installation as they are shown to an operator. -/
def InstallOptions.text (o : InstallOptions) : String :=
  let target := match o.target with
    | some id => "Some(InstallTarget \x7b id: " ++ Text.quoted id ++ " \x7d)"
    | none => "None"
  "InstallOptions \x7b force_install: " ++ toString o.forceInstall ++ ", force_reboot: " ++
    toString o.forceReboot ++ ", target: " ++ target ++ " \x7d"

/-- A key record as it is shown to an operator, without the key. -/
def KeyRecord.text (r : KeyRecord) : String :=
  "EncryptionKeyRecord \x7b device_id: " ++ Text.quoted r.deviceId ++ ", key_file: " ++
    Text.quotedPath r.keyFile ++ ", .. \x7d"

namespace CommandLine

variable (env : Environment) (config : Config)

def yesNo (b : Bool) : String := if b then "Yes" else "No"

def eraseWarning (what : String) : String := s!"⚠️  WARNING: This will ERASE ALL DATA on {what}"

def resetWarning : String :=
  "⚠️  WARNING: This will clear the TPM and DESTROY ALL DATA on this machine"

def prompt : String := "Type 'yes' to continue: "

/-- Asks the operator for an explicit yes, which is the first line of the input. -/
def confirm (input : Input) : Session Bool := do
  Session.print prompt
  match input.firstLine with
  | .ok line => return Text.trim line == "yes"
  | .error e => throw (Report.ofSystemError e)

/-- Does something only if the operator agrees to it. -/
def withConsent (input : Input) (cancelled : String) (work : Session Unit) : Session Unit := do
  if ← confirm input then work else Session.print cancelled

def showSource : Session Unit := do
  let source ← Session.perform (Source.detect env config)
  Session.print s!"Device: {source.device}"
  Session.print s!"  Read-only: {yesNo source.readOnly}"
  Session.print s!"  Optical: {yesNo source.optical}"
  match ← Session.perform (source.installOptions config) with
  | some options => Session.print s!"  Install seed: {options.text}"
  | none => Session.print "  Install seed: none"

def showDisk (source : Source) (d : Disk) : Session Unit := do
  Session.print s!"Device: {d.kernelName}"
  Session.print ("  ID: " ++ if d.stableId = "" then "-" else d.stableId)
  Session.print s!"  Size: {gibibytes d.size} GB"
  if d.isAt source.device then Session.print "  Install media: Yes"
  Session.print ""

def showTargets : Session Unit := do
  let source ← Session.perform (Source.detect env config)
  let candidates ← Session.perform (Disk.all env)
  if candidates.isEmpty then Session.print "No devices found."
  else
    Session.print "Block devices:\n"
    candidates.forM (showDisk source)
    match Disk.selectTarget (← Session.files) config source candidates none with
    | .ok target => Session.print s!"Default install target: {target.text}"
    | .error e => Session.print s!"No default install target: {e.message}"

def doneText (what : String) (delay : Option Nat) : String :=
  match delay with
  | some delay => s!"✓ {what} complete, rebooting in {Decimal.duration delay}"
  | none => s!"{what} is waiting"

/-- The installation that was agreed to. -/
def installNow (options : InstallOptions) : Session Unit := do
  let delay ← Session.explained (Install.run env config options)
  Session.print (doneText "Install" delay)
  Session.perform (Action.settle env)

def showPlan (plan : InstallPlan) : Session Unit := do
  Session.print s!"Source: {plan.source.device}"
  Session.print s!"Target: {plan.target.text}"
  Session.print ""
  Session.print (eraseWarning plan.target.text)

def install (options : InstallOptions) (input : Input) : Session Unit := do
  showPlan (← Session.explained (Install.plan env config options))
  withConsent input "Install cancelled." (installNow env config options)

/-- The payload of a seed that is given as a name and a file. -/
def readSeed (t : FileTree) (text : String) : Except Report (String × ByteArray) :=
  match Text.cutFirst '=' text.toList with
  | none => .error ⟨s!"Seed '{text}' is not of the form NAME=FILE", []⟩
  | some (name, file) =>
    let file := String.ofList file
    match t.read file with
    | .ok payload => .ok (String.ofList name, payload)
    | .error e => .error ((Report.ofSystemError e).within s!"reading seed file {file}")

/-- The request that a file holds, or the one that the seeds make up. -/
def readRequest (t : FileTree) (seeds : List String) :
    Option String → Except Report ResetRequest
  | some path => do
    (ResetRequest.ofJson (← (t.read path).mapError Report.ofSystemError)).mapError
      Report.ofFailure
  | none => do .ok { seeds := Dict.ofList (← seeds.mapM (readSeed t)) }

/-- The reset that was agreed to. -/
def resetNow (request : ResetRequest) : Session Unit := do
  let delay ← Session.explained (Reset.run env config request)
  Session.print (doneText "Reset" (some delay))
  Session.perform (Action.settle env)

def showRequest (request : ResetRequest) : Session Unit := do
  Session.print s!"Seeds to write: {Text.commaSeparated request.seeds.keys}"
  Session.print ("Existing seeds: " ++ if request.wipeSeeds then "dropped" else "kept")
  Session.print ""
  Session.print resetWarning

def reset (request : ResetRequest) (input : Input) : Session Unit := do
  showRequest request
  withConsent input "Reset cancelled." (resetNow env config request)

/-- The encryption that was agreed to. -/
def encryptNow (device : String) : Session Unit := do
  let record ← Session.explained (Encryption.encrypt env config.paths device)
  Session.print s!"✓ {record.deviceId} encrypted"
  Session.print s!"  Key file: {record.keyFile}"
  Session.print s!"  Key: {record.encodedKey}"

def encrypt (device : String) (input : Input) : Session Unit := do
  Session.print (eraseWarning device)
  withConsent input "Encryption cancelled." (encryptNow env config device)

def importDrive (device key : String) : Session Unit := do
  Session.perform (Encryption.importDrive env config.paths device key)
  Session.print s!"✓ {device} imported and unlocked"

def unlock : Session Unit := do
  let unlocked ← Session.perform (Encryption.decryptDrives env config.paths)
  if unlocked.isEmpty then Session.print "No drives unlocked."
  unlocked.forM fun id => Session.print s!"✓ {id}"

def showKeys : Session Unit := do
  let keys ← Session.perform (Encryption.driveKeys config.paths)
  if keys.entries.isEmpty then Session.print "No drive keys stored."
  keys.entries.forM fun (id, key) => Session.print s!"{id}: {key}"

def showPool (p : Pool) : Session Unit := do
  Session.print s!"Pool: {p.name}"
  Session.print s!"  State: {p.state}"
  match p.scanLine with
  | some (function, progress) => Session.print s!"  {function}: {progress}"
  | none => return

def showHealth : Session Unit := do
  let pools ← Session.perform (Pool.poll env config.watch)
  if pools.isEmpty then Session.print "No pools found."
  pools.forM showPool

/-- A request with the switches of the command line added to its own. -/
def switched (request : ResetRequest) (wipeSeeds allowChipFailure : Bool) : ResetRequest :=
  { request with
    wipeSeeds := request.wipeSeeds || wipeSeeds
    allowChipFailure := request.allowChipFailure || allowChipFailure }

/-- Does what the operator asks for. -/
def execute (input : Input) : Order → Session Unit
  | .source => showSource env config
  | .targets => showTargets env config
  | .install options => install env config options input
  | .reset seeds request wipeSeeds allowChipFailure => do
    let request ← ExceptT.mk (pure (readRequest (← Session.files) seeds request))
    reset env config (switched request wipeSeeds allowChipFailure) input
  | .encrypt device => encrypt env config device input
  | .importDrive device key => importDrive env config device key
  | .unlock => unlock env config
  | .keys => showKeys config
  | .health => showHealth env config

/-- The configuration in a file. -/
def loadConfig (path : String) : Session Config := do
  ExceptT.mk (pure ((Config.load path ((← Session.files).readText path)).mapError fun e =>
    (Report.ofFailure e).within s!"loading {path}"))

/-- The daemon, started once the machine is up. -/
def daemon (once : Bool) : Session Unit := do
  match ← Session.perform (Source.pendingInstall env config) with
  | some options => Session.within "install failed" (Boot.install env config options)
  | none => Session.perform (Boot.serve env config once)

/-- Ends a program with its exit code. -/
def conclude (s : Session Unit) : StateM Machine Nat := do
  match ← s.run with
  | .ok () => return 0
  | .error report =>
    modify (·.record (.complained report.text))
    return 1

/-- The exit code for arguments that make no sense. -/
def usageError : Nat := 2

/-- Runs the manager. What answers it depends on the configuration. -/
def manage (environment : Config → Environment) (arguments : List String) (input : Input) :
    StateM Machine Nat :=
  match Invocation.parse? arguments with
  | none => return usageError
  | some call => conclude do
    let config ← loadConfig call.config
    execute (environment config) config input call.order

/-- Runs the daemon. -/
def serve (environment : Config → Environment) (arguments : List String) : StateM Machine Nat :=
  match DaemonInvocation.parse? arguments with
  | none => return usageError
  | some call => conclude do
    let config ← loadConfig call.config
    daemon (environment config) config call.once

end CommandLine

end Groundwork
