import Groundwork.Config
/-!
Configurations and install options written as JSON documents. Every field has a default.
-/
namespace Groundwork

open Json

def Paths.fields : List String :=
  ["anchor", "sysfs_block", "dev_root", "by_id", "mapper", "boot_mount", "optical_device",
   "optical_mapped", "key_dir", "reboot_trigger"]

def Paths.ofRaw (r : Raw) : Except Error Paths := do
  let fs ← Fields.ofRaw fields r
  let d : Paths := {}
  return {
    anchor := ← fs.defaulting "anchor" d.anchor (·.nullable Raw.text)
    registry := ← fs.defaulting "sysfs_block" d.registry Raw.text
    deviceRoot := ← fs.defaulting "dev_root" d.deviceRoot Raw.text
    byId := ← fs.defaulting "by_id" d.byId Raw.text
    mapper := ← fs.defaulting "mapper" d.mapper Raw.text
    bootMount := ← fs.defaulting "boot_mount" d.bootMount Raw.text
    opticalDevice := ← fs.defaulting "optical_device" d.opticalDevice Raw.text
    opticalMapped := ← fs.defaulting "optical_mapped" d.opticalMapped Raw.text
    keys := ← fs.defaulting "key_dir" d.keys Raw.text
    rebootTrigger := ← fs.defaulting "reboot_trigger" d.rebootTrigger Raw.text }

def Layout.fields : List String :=
  ["boot", "seed", "swap", "root", "local_data", "clone_count", "clone_count_read_only"]

/-- Partition numbers have 32 bits. -/
def Layout.ofRaw (r : Raw) : Except Error Layout := do
  let fs ← Fields.ofRaw fields r
  let d : Layout := {}
  return {
    boot := ← fs.defaulting "boot" d.boot (Raw.unsigned 32)
    seed := ← fs.defaulting "seed" d.seed (Raw.unsigned 32)
    swap := ← fs.defaulting "swap" d.swap (Raw.unsigned 32)
    root := ← fs.defaulting "root" d.root (Raw.unsigned 32)
    localData := ← fs.defaulting "local_data" d.localData (Raw.unsigned 32)
    cloneCount := ← fs.defaulting "clone_count" d.cloneCount (Raw.unsigned 32)
    cloneCountReadOnly :=
      ← fs.defaulting "clone_count_read_only" d.cloneCountReadOnly (Raw.unsigned 32) }

def Delays.ofRaw (r : Raw) : Except Error Delays := do
  let fs ← Fields.ofRaw ["reset_delay_ms", "install_delay_ms", "media_poll_interval_ms"] r
  let d : Delays := {}
  return {
    reset := ← fs.defaulting "reset_delay_ms" d.reset (Raw.unsigned 64)
    install := ← fs.defaulting "install_delay_ms" d.install (Raw.unsigned 64)
    mediaPoll := ← fs.defaulting "media_poll_interval_ms" d.mediaPoll (Raw.unsigned 64) }

def PoolWatch.ofRaw (r : Raw) : Except Error PoolWatch := do
  let fs ← Fields.ofRaw ["poll_interval_secs", "pools"] r
  let d : PoolWatch := {}
  return {
    interval := ← fs.defaulting "poll_interval_secs" d.interval (Raw.unsigned 64)
    pools := ← fs.defaulting "pools" d.pools (·.items Raw.text) }

namespace Config

def minimumOfRaw (default : Nat) (r : Raw) : Except Error Nat := do
  let fs ← Fields.ofRaw ["min_target_size"] r
  fs.defaulting "min_target_size" default (Raw.unsigned 64)

def ofRaw (r : Raw) : Except Error Config := do
  let fs ← Fields.ofRaw ["paths", "layout", "install", "reboot", "health"] r
  let d : Config := {}
  return {
    paths := ← fs.defaulting "paths" d.paths Paths.ofRaw
    layout := ← fs.defaulting "layout" d.layout Layout.ofRaw
    minimumTarget := ← fs.defaulting "install" d.minimumTarget (minimumOfRaw d.minimumTarget)
    delays := ← fs.defaulting "reboot" d.delays Delays.ofRaw
    watch := ← fs.defaulting "health" d.watch PoolWatch.ofRaw }

/-- The configuration in a file, which has to be valid. Without the file the defaults hold. -/
def load (path : String) (content : Except SystemError String) : Except Failure Config := do
  let config ← match content with
    | .ok s => ((Raw.ofText s).bind ofRaw).mapError fun e =>
        .configuration s!"{path}: {e.message}"
    | .error e => if e.kind = .notFound then .ok {} else .error (.system e)
  config.validate
  return config

end Config

namespace InstallOptions

def targetOfRaw (r : Raw) : Except Error String := do
  let fs ← Fields.ofRaw ["id"] r
  fs.defaulting "id" "" Raw.text

def ofRaw (r : Raw) : Except Error InstallOptions := do
  let fs ← Fields.ofRaw ["force_install", "force_reboot", "target"] r
  return {
    forceInstall := ← fs.defaulting "force_install" false Raw.boolean
    forceReboot := ← fs.defaulting "force_reboot" false Raw.boolean
    target := ← fs.defaulting "target" none (·.nullable targetOfRaw) }

def ofJson (bytes : List UInt8) : Except Error InstallOptions := do
  ofRaw (← Raw.parse bytes)

end InstallOptions

end Groundwork
