import Groundwork.Base64
import Groundwork.Config
import Groundwork.Partition.Table
/-!
Encrypted drives and their keys. A drive is addressed by its stable ID; its key is kept in a file of
its own, and the unlocked drive shows up as a mapped device.
-/
namespace Groundwork

/-- A drive key as it is stored. -/
structure KeyRecord where
  deviceId : String
  keyFile : String
  key : ByteArray

def KeyRecord.encodedKey (r : KeyRecord) : String := Base64.encode r.key

namespace Paths

def keyPrefix : String := "luks."

def keySuffix : String := ".key"

def keyFileName (id : String) : String := keyPrefix ++ id ++ keySuffix

/-- The file that holds a drive's key. -/
def keyFile (p : Paths) (id : String) : String := Path.join p.keys (keyFileName id)

def mappedName (id : String) : String := "luks-" ++ id

def mappedDevice (p : Paths) (id : String) : String := Path.join p.mapper (mappedName id)

/-- The ID of a drive by its path, which has to be a name directly below the stable IDs. -/
def stableId (p : Paths) (device : String) : Except Failure String :=
  match Path.below? p.byId device with
  | some [.name id] => .ok id
  | _ => .error (.invalidDeviceId device)

end Paths

/-- The drive ID in the name of a key file. -/
def keyFileId? (name : String) : Option String := do
  let rest ← Text.after? Paths.keyPrefix.toList name.toList
  let id ← Text.before? Paths.keySuffix.toList rest
  if id.isEmpty then none else some (String.ofList id)

namespace Encryption

variable (env : Environment) (paths : Paths)

/-- The drives that have a key file, in the order of their IDs. -/
def keyIds (t : FileTree) : Except Failure (List String) :=
  match t.list paths.keys with
  | .ok names => .ok ((names.filterMap keyFileId?).mergeSort (· ≤ ·))
  | .error e => if e.kind = .notFound then .ok [] else .error (.system e)

def storedIds : Action (List String) := do
  Action.ofExcept (keyIds paths (← get).files)

def keyMode : Nat := 0o600

/-- The directory that a file is made in. -/
def roomOf (path : String) : String :=
  match Path.parent? path with
  | some above => if above = "" then "." else above
  | none => "."

/-- Makes room for a key file. Directories that were made stay, whatever comes after. -/
def makeRoom (path : String) : Action Unit := do
  Action.makePath (roomOf path)
  Action.consult (·.scratch (roomOf path))

/-- Puts a key into a file that only its owner can read, all at once. -/
def writeKey (path : String) (key : ByteArray) : Action Unit := do
  makeRoom path
  Action.alter path (·.replace path key keyMode)

def openCommand (device id : String) : Command :=
  ⟨"cryptsetup",
    ["open", "--type=luks", "-d", paths.keyFile id, device, Paths.mappedName id]⟩

/-- Unlocks a drive with its stored key, unless it is mapped already. -/
def unlock (device id : String) : Action Unit := do
  if (← get).files.has (paths.mappedDevice id) then return
  else
    Action.logInfo s!"Unlocking {device} as {Paths.mappedName id}"
    let _ ← Action.runChecked env (openCommand paths device id)

def wipeCommand (device : String) : Command := ⟨"wipefs", ["-a", device]⟩

def formatCommand (device keyFile : String) : Command :=
  ⟨"cryptsetup", ["luksFormat", "-q", device, keyFile]⟩

/-- Stores a fresh key, formats the drive with it and unlocks it. -/
def formatAndUnlock (device id : String) : Action KeyRecord := do
  let keyFile := paths.keyFile id
  PartitionTable.zap env device
  let key := (env.freshKey (← get)).toArray
  writeKey keyFile ⟨key⟩
  Action.logInfo s!"Formatting {device} as an encrypted volume"
  let _ ← Action.runChecked env (formatCommand device keyFile)
  unlock env paths device id
  return ⟨id, keyFile, ⟨key⟩⟩

/-- Wipes a drive, formats it with a fresh key and unlocks it. -/
def encrypt (device : String) : Action KeyRecord := do
  let id ← Action.ofExcept (paths.stableId device)
  Action.logInfo s!"Wiping {device} for encryption"
  let _ ← Action.runChecked env (wipeCommand device)
  Action.marking "Encrypting the drive" (formatAndUnlock env paths device id)

/-- The key that a text spells. -/
def decodeKey (text : String) : Except Failure ByteArray :=
  match Base64.decode? text with
  | none => .error (.invalidInput "Invalid base64 key: malformed")
  | some key => if key.size = keyLength then .ok key else .error (.invalidKeyLength key.size)

/-- Takes the key file away again. -/
def dropKey (keyFile : String) : Action Unit := do
  match ← Action.attempt (Action.alter keyFile (·.unlink keyFile)) with
  | .ok () => return
  | .error (.system e) =>
    Action.logWarning s!"Failed to remove key file {keyFile}: {e.message}"
  | .error _ => return

/-- Stores a key that the operator brings, and keeps it only if it unlocks the drive. -/
def importDrive (device keyText : String) : Action Unit := do
  let id ← Action.ofExcept (paths.stableId device)
  let key ← Action.ofExcept (decodeKey keyText)
  let keyFile := paths.keyFile id
  writeKey keyFile key
  match ← Action.attempt (unlock env paths device id) with
  | .ok () => return
  | .error e =>
    dropKey keyFile
    throw e

/-- Unlocks a drive by its ID; whether it is unlocked afterwards. -/
def decryptDrive (id : String) : Action Bool := do
  let device := Path.join paths.byId id
  if !(← get).files.has device then
    Action.logWarning s!"Couldn't find encrypted drive {device}"
    return false
  else
    match ← Action.attempt (unlock env paths device id) with
    | .ok () => return true
    | .error e =>
      Action.logWarning s!"Couldn't unlock encrypted drive {device}: {e.message}"
      return false

/-- Unlocks every drive with a stored key and returns the IDs of those that are unlocked. -/
def decryptDrives : Action (List String) := do (← storedIds paths).filterM (decryptDrive env paths)

def recordOf (t : FileTree) (id : String) : Except Failure KeyRecord := do
  let keyFile := paths.keyFile id
  .ok ⟨id, keyFile, ← (t.read keyFile).mapError .system⟩

/-- All stored keys, in the order of their drives. -/
def keyRecords (t : FileTree) : Except Failure (List KeyRecord) := do
  (← keyIds paths t).mapM (recordOf paths t)

def records : Action (List KeyRecord) := do Action.ofExcept (keyRecords paths (← get).files)

/-- The written form of each drive's key. -/
def driveKeys : Action (Dict String) := do
  return Dict.ofList ((← records paths).map fun r => (r.deviceId, r.encodedKey))

end Encryption

end Groundwork
