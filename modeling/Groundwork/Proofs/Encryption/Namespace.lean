import Groundwork.Proofs.Encryption.Keyring

/-! Which drives can be encrypted or adopted. A drive is addressed by a name directly below the stable
IDs; the name alone decides about its key file and its mapped device. -/
namespace Groundwork

variable {α : Type} {env : Environment} {paths : Paths}
  {device device' id id' keyText : String}

/-- A failure that does not refuse the path of a drive, under no mark either. -/
def Failure.Admitted (e : Failure) : Prop := ∀ path, e.rootCause ≠ .invalidDeviceId path

theorem Failure.rootCause_mark (step : String) (e : Failure) :
    (e.mark step).rootCause = e.rootCause := by
  cases e <;> rfl

theorem Failure.Mechanical.admitted {e : Failure} (h : e.Mechanical) : e.Admitted := by
  intro path hsame
  cases h <;> cases hsame

namespace Action

theorem FailsOnly.admitted {a : Action α} (h : FailsOnly Failure.Mechanical a) :
    FailsOnly Failure.Admitted a := fun m e he => (h m e he).admitted

theorem admitted_marking (step : String) {a : Action α} (h : FailsOnly Failure.Admitted a) :
    FailsOnly Failure.Admitted (marking step a) := by
  intro m
  rw [perform_marking]
  have hm := h m
  cases hr : (a.perform m).1 with
  | ok x => exact .ok x
  | error e =>
    refine .error fun path => ?_
    rw [Failure.rootCause_mark]
    exact hm e hr path

end Action

namespace Encryption

open Failure (Mechanical Admitted)
open Paths (keyFileName mappedName)

/-! ### Paths of drives -/

theorem stableId_of_not_addresses (h : ∀ id, ¬ Addresses paths device id) :
    paths.stableId device = .error (.invalidDeviceId device) := by
  unfold Paths.stableId
  split
  · next id hbelow => exact absurd (Path.below?_eq_some_iff.1 hbelow) (h id)
  · rfl

/-- What leads up, stays at the directory or goes on below a drive is refused, and so is another
place. -/
example : ∀ device ∈ ["/dev/disk/by-id", "/dev/disk/by-id/.", "/dev/disk/by-id/..",
    "/dev/disk/by-id/../sda", "/dev/disk/by-id/disk/part", "/dev/sda"],
    (Paths.stableId {} device).toOption = none := by decide +kernel

theorem Addresses.isName (h : Addresses paths device id) : Path.IsName id :=
  isName_of_stableId (stableId_eq_ok_iff.2 h)

/-- Two paths are the same if and only if they address the same name. -/
theorem Addresses.same_iff (h : Addresses paths device id) (h' : Addresses paths device' id') :
    Path.same device device' = true ↔ id = id' := by
  rw [Path.same, beq_iff_eq, h, h', List.append_right_inj]
  simp

theorem mappedName_inj : mappedName id = mappedName id' ↔ id = id' :=
  String.append_right_inj "luks-"

theorem components_keyFile (h : Path.IsName id) : Path.components (paths.keyFile id) =
    Path.components paths.keys ++ [.name (keyFileName id)] :=
  Path.components_join (isName_keyFileName h) _

instance (paths : Paths) (device id : String) : Decidable (Addresses paths device id) :=
  inferInstanceAs (Decidable (_ = _))

/-! ### Past the check -/

/-- An encryption, from where the drive is recognised. -/
def encryptAddressed (env : Environment) (paths : Paths) (device id : String) :
    Action KeyRecord := do
  Action.logInfo s!"Wiping {device} for encryption"
  let _ ← Action.runChecked env (wipeCommand device)
  Action.marking "Encrypting the drive" (formatAndUnlock env paths device id)

/-- An import, from where the drive is recognised. -/
def adoptAddressed (env : Environment) (paths : Paths) (device id keyText : String) :
    Action Unit := do
  let key ← Action.ofExcept (decodeKey keyText)
  writeKey (paths.keyFile id) key
  trial env paths device id

theorem encrypt_eq : encrypt env paths device =
    Action.ofExcept (paths.stableId device) >>= encryptAddressed env paths device := rfl

theorem importDrive_eq_adopt : importDrive env paths device keyText =
    Action.ofExcept (paths.stableId device) >>= fun id =>
      adoptAddressed env paths device id keyText := importDrive_eq

theorem perform_of_addresses (h : Addresses paths device id) (f : String → Action α) (m : Machine) :
    (Action.ofExcept (paths.stableId device) >>= f).perform m = (f id).perform m := by
  refine Action.perform_bind_of_ok f ?_
  rw [Action.perform_ofExcept, stableId_eq_ok_iff.2 h]

theorem perform_of_not_addresses (h : ∀ id, ¬ Addresses paths device id) (f : String → Action α)
    (m : Machine) : (Action.ofExcept (paths.stableId device) >>= f).perform m =
      (.error (.invalidDeviceId device), m) := by
  refine Action.perform_bind_of_error f ?_
  rw [Action.perform_ofExcept, stableId_of_not_addresses h]

theorem mechanical_writeKey (path : String) (key : ByteArray) :
    Action.FailsOnly Mechanical (writeKey path key) :=
  (mechanical_makeRoom path).bind fun _ => Action.mechanical_alter _ _

theorem mechanical_unlock (env : Environment) (paths : Paths) (device id : String) :
    Action.FailsOnly Mechanical (unlock env paths device id) := by
  intro m
  rw [perform_unlock]
  split
  · exact .ok _
  · exact ((opening paths device id m).mechanical_checked env).map _

theorem mechanical_trial (env : Environment) (paths : Paths) (device id : String) :
    Action.FailsOnly Mechanical (trial env paths device id) := by
  intro m
  have hunlock := mechanical_unlock env paths device id m
  rw [trial, Action.perform_bind_of_ok _ (Action.perform_attempt _ m)]
  cases hr : ((unlock env paths device id).perform m).1 with
  | ok _ => exact .ok _
  | error e =>
    obtain ⟨m₁, hdrop, -⟩ := perform_dropKey (paths.keyFile id) ((unlock env paths device id).perform m).2
    rw [Action.perform_bind_of_ok _ hdrop, Action.perform_throw]
    exact .error (hunlock e hr)

theorem mechanical_formatAndUnlock (env : Environment) (paths : Paths) (device id : String) :
    Action.FailsOnly Mechanical (formatAndUnlock env paths device id) := by
  have hzap : Action.FailsOnly Mechanical (PartitionTable.zap env device) :=
    .bind (.note _) fun _ => .bind (Action.mechanical_run env _) fun _ => .pure _
  refine hzap.bind fun _ => .bind (fun m => .ok m) fun m => ?_
  exact .bind (mechanical_writeKey _ _) fun _ => .bind (.note _) fun _ =>
    .bind (Action.mechanical_runChecked env _) fun _ =>
      .bind (mechanical_unlock env paths device id) fun _ => .pure _

theorem admitted_decodeKey (keyText : String) : FailsOnly Admitted (decodeKey keyText) :=
  failsOnly_decodeKey (fun _ _ h => by cases h) (fun _ _ h => by cases h) keyText

theorem admitted_encryptAddressed (env : Environment) (paths : Paths) (device id : String) :
    Action.FailsOnly Admitted (encryptAddressed env paths device id) :=
  .bind (.note _) fun _ => .bind ((Action.mechanical_runChecked env _).admitted)
    fun _ => Action.admitted_marking _
      (mechanical_formatAndUnlock env paths device id).admitted

theorem admitted_adoptAddressed (env : Environment) (paths : Paths) (device id keyText : String) :
    Action.FailsOnly Admitted (adoptAddressed env paths device id keyText) :=
  .bind (.ofExcept (admitted_decodeKey keyText)) fun _ =>
    .bind (mechanical_writeKey _ _).admitted fun _ =>
      (mechanical_trial env paths device id).admitted

/-! ### Names of a drive -/

/-- What follows from the name of a drive: its key file stands directly in the key directory, and the
listing recognises that file as the key of this drive. -/
structure Named (paths : Paths) (id : String) : Prop where
  name : Path.IsName id
  child : Path.components (paths.keyFile id) =
    Path.components paths.keys ++ [.name (keyFileName id)]
  recognised : ∀ name, keyFileId? name = some id ↔ name = keyFileName id
  listed : ∀ t names, t.list paths.keys = .ok names → ∃ ids, keyIds paths t = .ok ids ∧
    (id ∈ ids ↔ keyFileName id ∈ names)

theorem named (h : Path.IsName id) : Named paths id where
  name := h
  child := components_keyFile h
  recognised name := by simp [keyFileId?_eq_some_iff, h.ne_empty]
  listed t names hlist := ⟨_, keyIds_eq hlist, mem_listed.trans (and_iff_left h.ne_empty)⟩

/-- Whether two drives share nothing, unless their paths are the same. -/
structure Apart (paths : Paths) (device device' id id' : String) : Prop where
  key_file : paths.keyFile id = paths.keyFile id' ↔ Path.same device device' = true
  key_place : Path.same (paths.keyFile id) (paths.keyFile id') = true ↔
    Path.same device device' = true
  mapped_name : mappedName id = mappedName id' ↔ Path.same device device' = true

theorem Addresses.apart (h : Addresses paths device id) (h' : Addresses paths device' id') :
    Apart paths device device' id id' where
  key_file := by
    rw [h.same_iff h']
    have hjoin := @Path.join_inj paths.keys _ _ (isName_keyFileName h.isName)
      (isName_keyFileName h'.isName)
    exact hjoin.trans keyFileName_inj
  key_place := by
    rw [h.same_iff h', ← keyFileName_inj, Path.same, beq_iff_eq, components_keyFile h.isName,
      components_keyFile h'.isName, List.append_right_inj]
    simp
  mapped_name := by rw [h.same_iff h', mappedName_inj]

end Encryption

end Groundwork
