import Groundwork.Proofs.Encryption.Tested

/-! Which keys are tested through any number of requests. Each drive that a request reports has a key
file, and the key in it was tested on the drive, or the request that stored it is known and this one
tried no key on the drive. -/
namespace Groundwork.Encryption

variable {env : Environment} {paths : Paths} {m m₀ m' : Machine} {dir : Location}
  {device id keyText : String} {key : ByteArray} {calls calls' : List Call} {ids : List String}

/-! ### Requests -/

/-- What is asked for encrypted drives. -/
inductive Request where
  | encrypt (device : String)
  | adopt (device keyText : String)
  | decrypt

/-- Carries a request out and returns the drives that it was successful for. -/
def Request.action (env : Environment) (paths : Paths) : Request → Action (List String)
  | .encrypt device => do
    let record ← Encryption.encrypt env paths device
    return [record.deviceId]
  | .adopt device keyText => do
    importDrive env paths device keyText
    return (paths.stableId device).toOption.toList
  | .decrypt => decryptDrives env paths

/-- A request and the machine that it was made to. -/
structure Turn where
  request : Request
  machine : Machine

namespace Turn

def result (env : Environment) (paths : Paths) (turn : Turn) : Except Failure (List String) :=
  ((turn.request.action env paths).perform turn.machine).1

def after (env : Environment) (paths : Paths) (turn : Turn) : Machine :=
  ((turn.request.action env paths).perform turn.machine).2

/-- Whether a request stored the key of a drive without a test: an encryption that broke off behind
that, or an import that ran nothing as the drive is mapped already. -/
def LeavesUntested (env : Environment) (paths : Paths) (turn : Turn) (id : String)
    (key : ByteArray) : Prop :=
  (turn.after env paths).files.read (paths.keyFile id) = .ok key ∧
  match turn.request with
  | .encrypt device => paths.stableId device = .ok id ∧ (∃ e, turn.result env paths = .error e) ∧
      turn.machine.files.read (paths.keyFile id) ≠ .ok key
  | .adopt device keyText => paths.stableId device = .ok id ∧ decodeKey keyText = .ok key ∧
      (∃ ids, turn.result env paths = .ok ids) ∧
      (turn.after env paths).calls = turn.machine.calls ∧
      (turn.after env paths).files.has (paths.mappedDevice id) = true
  | .decrypt => False

end Turn

/-- Whether a key was tested, or one of the requests left it untested. -/
def Accounted (env : Environment) (paths : Paths) (turns : List Turn) (calls : List Call)
    (id : String) (key : ByteArray) : Prop :=
  Proven paths calls id key ∨ ∃ turn ∈ turns, turn.LeavesUntested env paths id key

/-- The requests that were made to a machine, one after the other. In between the files may change in
every way that leaves the keys alone. -/
inductive Served (env : Environment) (paths : Paths) (m₀ : Machine) : List Turn → Machine → Prop where
  | start : Served env paths m₀ [] m₀
  | meanwhile {turns : List Turn} {m m' : Machine} :
      Served env paths m₀ turns m → Keeps paths m m' → Served env paths m₀ turns m'
  | turn {turns : List Turn} {m : Machine} (r : Request) :
      Served env paths m₀ turns m →
      Served env paths m₀ (turns ++ [⟨r, m⟩]) ((r.action env paths).perform m).2

variable {turns turns' : List Turn}

theorem Accounted.mono (h : Accounted env paths turns calls id key) (hturns : turns ⊆ turns')
    (hcalls : calls <+: calls') : Accounted env paths turns' calls' id key := by
  rcases h with hproven | ⟨turn, hmem, hleft⟩
  · exact .inl (hproven.mono hcalls)
  · exact .inr ⟨turn, hturns hmem, hleft⟩

theorem Keyring.later (h : Keyring paths dir (Accounted env paths turns m.calls) m.files)
    (hkeeps : Keeps paths m m') (hturns : turns ⊆ turns') :
    Keyring paths dir (Accounted env paths turns' m'.calls) m'.files :=
  (h.keeps hkeeps.files).mono fun _ _ haccounted => haccounted.mono hturns hkeeps.calls

/-! ### One request -/

/-- What a request leaves: all keys are accounted for, and the drives that it reports have one that was
tested or was not tried by it. -/
structure Settled (env : Environment) (paths : Paths) (dir : Location) (turns : List Turn)
    (turn : Turn) : Prop where
  keyring : Keyring paths dir (Accounted env paths (turns ++ [turn]) (turn.after env paths).calls)
    (turn.after env paths).files
  answered : ∀ ids, turn.result env paths = .ok ids → ∀ id ∈ ids, Path.IsName id ∧
    ∃ key, (turn.after env paths).files.read (paths.keyFile id) = .ok key ∧
      (Proven paths (turn.after env paths).calls id key ∨
        Untried paths id turn.machine (turn.after env paths))

theorem Settled.of_keeps {r : Request}
    (h : Keyring paths dir (Accounted env paths turns m.calls) m.files)
    (hkeeps : Keeps paths m (Turn.after env paths ⟨r, m⟩))
    (hresult : ∃ e, Turn.result env paths ⟨r, m⟩ = .error e) : Settled env paths dir turns ⟨r, m⟩ where
  keyring := h.later hkeeps (List.subset_append_left _ _)
  answered := by
    obtain ⟨e, he⟩ := hresult
    intro ids hids
    rw [he] at hids
    cases hids

theorem settled_encrypt (htools : ToolsKeepKeys env paths)
    (h : Keyring paths dir (Accounted env paths turns m.calls) m.files) (device : String) :
    Settled env paths dir turns ⟨.encrypt device, m⟩ := by
  cases hrun : (encrypt env paths device).perform m with
  | mk r m' =>
    have hperform : ((Request.encrypt device).action env paths).perform m =
        (r.map fun record => [record.deviceId], m') := by
      rw [Request.action, Action.perform_bind_pure, hrun]
    have hafter : Turn.after env paths ⟨.encrypt device, m⟩ = m' := congrArg Prod.snd hperform
    have hresult : Turn.result env paths ⟨.encrypt device, m⟩ =
        r.map fun record => [record.deviceId] := congrArg Prod.fst hperform
    rcases encrypt_cases htools h hrun with
      ⟨⟨e, rfl⟩, hkeeps⟩ | ⟨id, key, hdrive, -, hrekeyed, hcalls, hend⟩
    · exact .of_keeps h (hafter ▸ hkeeps) ⟨e, hresult⟩
    · have hid := isName_of_stableId hdrive
      have hread := hrekeyed.read h
      refine ⟨?_, ?_⟩
      · rw [hafter]
        refine hrekeyed.keyring h ?_ ?_
        · intro other key _ haccounted
          exact haccounted.mono (List.subset_append_left _ _) hcalls
        · rintro key' ⟨⟩
          rcases hend with ⟨e, rfl⟩ | ⟨record, -, -, hproven⟩
          · by_cases hbefore : m.files.read (paths.keyFile id) = .ok key
            · exact (h.of_read hid hbefore).mono (List.subset_append_left _ _) hcalls
            · refine .inr ⟨_, List.mem_append_right _ (List.mem_singleton_self _), ?_⟩
              exact ⟨hafter ▸ hread, hdrive, ⟨e, hresult⟩, hbefore⟩
          · exact .inl hproven
      · intro ids hids other hother
        rw [hresult] at hids
        rcases hend with ⟨e, rfl⟩ | ⟨record, rfl, rfl, hproven⟩
        · cases hids
        · cases hids
          obtain rfl := List.mem_singleton.1 hother
          exact ⟨hid, key, hafter ▸ hread, .inl (hafter ▸ hproven)⟩

theorem settled_adopt (htools : ToolsKeepKeys env paths)
    (h : Keyring paths dir (Accounted env paths turns m.calls) m.files) (device keyText : String) :
    Settled env paths dir turns ⟨.adopt device keyText, m⟩ := by
  cases hrun : (importDrive env paths device keyText).perform m with
  | mk r m' =>
    have hperform : ((Request.adopt device keyText).action env paths).perform m =
        (r.map fun _ => (paths.stableId device).toOption.toList, m') := by
      rw [Request.action, Action.perform_bind_pure, hrun]
    have hafter : Turn.after env paths ⟨.adopt device keyText, m⟩ = m' :=
      congrArg Prod.snd hperform
    have hresult : Turn.result env paths ⟨.adopt device keyText, m⟩ =
        r.map fun _ => (paths.stableId device).toOption.toList := congrArg Prod.fst hperform
    rcases importDrive_cases htools h hrun with
      ⟨⟨e, rfl⟩, hkeeps⟩ | ⟨id, hdrive, hcalls, hend⟩
    · exact .of_keeps h (hafter ▸ hkeeps) ⟨e, hresult⟩
    · have hothers (other : String) (key : ByteArray) (_ : other ≠ id)
          (haccounted : Accounted env paths turns m.calls other key) :
          Accounted env paths (turns ++ [⟨.adopt device keyText, m⟩]) m'.calls other key :=
        haccounted.mono (List.subset_append_left _ _) hcalls
      rcases hend with ⟨⟨e, rfl⟩, hrekeyed⟩ | ⟨key, rfl, hkey, hrekeyed, hend⟩
      · refine ⟨?_, ?_⟩
        · rw [hafter]
          exact hrekeyed.keyring h hothers nofun
        · intro ids hids
          rw [hresult] at hids
          cases hids
      · have hread := hrekeyed.read h
        refine ⟨?_, ?_⟩
        · rw [hafter]
          refine hrekeyed.keyring h hothers ?_
          rintro key' ⟨⟩
          rcases hend with hproven | ⟨hsame, hmapped⟩
          · exact .inl hproven
          · refine .inr ⟨_, List.mem_append_right _ (List.mem_singleton_self _), ?_⟩
            exact ⟨hafter ▸ hread, hdrive, hkey, ⟨_, hresult⟩, hafter ▸ hsame, hafter ▸ hmapped⟩
        · intro ids hids other hother
          rw [hresult, hdrive] at hids
          cases hids
          obtain rfl := List.mem_singleton.1 hother
          refine ⟨isName_of_stableId hdrive, key, hafter ▸ hread, ?_⟩
          rcases hend with hproven | ⟨hsame, -⟩
          · exact .inl (hafter ▸ hproven)
          · exact .inr (untried_of_calls_eq (hafter ▸ hsame))

theorem settled_decrypt (htools : ToolsKeepKeys env paths)
    (h : Keyring paths dir (Accounted env paths turns m.calls) m.files) :
    Settled env paths dir turns ⟨.decrypt, m⟩ := by
  obtain ⟨ids, unlocked, m', hperform, hunlocks⟩ := decryptDrives_cases htools h
  have hafter : Turn.after env paths ⟨.decrypt, m⟩ = m' := congrArg Prod.snd hperform
  have hresult : Turn.result env paths ⟨.decrypt, m⟩ = .ok unlocked := congrArg Prod.fst hperform
  refine ⟨?_, ?_⟩
  · rw [hafter]
    exact h.later hunlocks.keeps (List.subset_append_left _ _)
  · intro ids' hids id hid
    rw [hresult] at hids
    cases hids
    rw [hafter]
    exact hunlocks.tested id hid

theorem settled (htools : ToolsKeepKeys env paths)
    (h : Keyring paths dir (Accounted env paths turns m.calls) m.files) (r : Request) :
    Settled env paths dir turns ⟨r, m⟩ := by
  cases r with
  | encrypt device => exact settled_encrypt htools h device
  | adopt device keyText => exact settled_adopt htools h device keyText
  | decrypt => exact settled_decrypt htools h

/-! ### All requests -/

/-- As long as requests are served, all keys are accounted for. -/
theorem Served.keyring (hserved : Served env paths m₀ turns m) (htools : ToolsKeepKeys env paths)
    (h : Keyring paths dir (Accounted env paths [] m₀.calls) m₀.files) :
    Keyring paths dir (Accounted env paths turns m.calls) m.files := by
  induction hserved with
  | start => exact h
  | meanwhile _ hkeeps ih => exact ih.later hkeeps (List.Subset.refl _)
  | turn r _ ih => exact (settled htools ih r).keyring

/-- From an empty key directory on, the key of each drive that a request reports was tested on the drive
while its file held it, or an earlier or this request left it untested and this one tried none. -/
theorem reported_key_accounted (hempty : m₀.files.list paths.keys = .ok [])
    (hsound : m₀.files.Sound) (htools : ToolsKeepKeys env paths)
    (hserved : Served env paths m₀ turns m) {r : Request}
    (hperform : (r.action env paths).perform m = (.ok ids, m')) :
    ∀ id ∈ ids, ∃ key, m'.files.read (paths.keyFile id) = .ok key ∧
      (Proven paths m'.calls id key ∨
        (∃ turn ∈ turns ++ [⟨r, m⟩], turn.LeavesUntested env paths id key) ∧
        Untried paths id m m') := by
  obtain ⟨dir, hstart⟩ := Keyring.of_empty hsound hempty
  have hturn := settled htools (hserved.keyring htools hstart) r
  have hafter : Turn.after env paths ⟨r, m⟩ = m' := congrArg Prod.snd hperform
  have hresult : Turn.result env paths ⟨r, m⟩ = .ok ids := congrArg Prod.fst hperform
  intro id hid
  obtain ⟨hname, key, hread, hfate⟩ := hturn.answered ids hresult id hid
  have haccounted := hturn.keyring.of_read hname hread
  rw [hafter] at hread hfate haccounted
  refine ⟨key, hread, ?_⟩
  rcases hfate with hproven | huntried
  · exact .inl hproven
  · rcases haccounted with hproven | hleft
    · exact .inl hproven
    · exact .inr ⟨hleft, huntried⟩

/-! ### Keys without a test -/

/-- No drive can be formatted. -/
def busyEnvironment : Environment :=
  Script.environment {
    registry := fun _ => .sample
    answers := [(⟨"cryptsetup", ["luksFormat"]⟩,
      ⟨some 5, "", "Cannot format device in use."⟩)] } "/usr/bin/strata"

/-- A machine with a drive that is mapped, and without keys. -/
def mappedMachine : Machine :=
  ⟨⟨[(["dev"], .directory), (["dev", "disk"], .directory), (["dev", "disk", "by-id"], .directory),
    (["dev", "disk", "by-id", "disk"], .file .empty FileTree.defaultMode),
    (["dev", "mapper"], .directory),
    (["dev", "mapper", "luks-disk"], .file .empty FileTree.defaultMode),
    (["var"], .directory), (["var", "lib"], .directory),
    (["var", "lib", "strata"], .directory)], []⟩, [], []⟩

theorem list_mappedMachine : mappedMachine.files.list ({} : Paths).keys = .ok [] := by
  have hbelow : mappedMachine.files.below ["var", "lib", "strata"] = [] := by decide
  refine FileTree.list_eq_ok.2 ⟨["var", "lib", "strata"], rfl, ?_⟩
  rw [hbelow, List.mergeSort_nil]

theorem sound_mappedMachine : mappedMachine.files.Sound where
  grounded := by
    refine FileTree.grounded_of_nodes ?_
    intro e he
    simp only [mappedMachine, List.mem_cons, List.not_mem_nil, or_false] at he
    rcases he with rfl | rfl | rfl | rfl | rfl | rfl | rfl | rfl | rfl <;> rfl
  once := by decide

theorem toolsKeepKeys_busyEnvironment : ToolsKeepKeys busyEnvironment {} := by
  intro m c o t h
  cases h
  exact .refl _ _

/-- Whether a request reports a drive whose key was never tested. -/
def ReportsUntested (env : Environment) (paths : Paths) (r : Request) (m : Machine) (id : String) :
    Prop :=
  ∃ ids m' key, (r.action env paths).perform m = (.ok ids, m') ∧ id ∈ ids ∧
    m'.files.read (paths.keyFile id) = .ok key ∧ ¬ Proven paths m'.calls id key

theorem reportsUntested_of_calls {r : Request} (h : (match (r.action env paths).perform m with
    | (.ok ids, m') => ids.contains id && (m'.files.read (paths.keyFile id)).isOk &&
        m'.calls.all fun call => call.command.program != "cryptsetup" || call.output.status != some 0
    | (.error _, _) => false) = true) : ReportsUntested env paths r m id := by
  split at h
  · next ids m' hrun =>
    obtain ⟨hreported, hcalls⟩ := Bool.and_eq_true_iff.1 h
    obtain ⟨hmem, hread⟩ := Bool.and_eq_true_iff.1 hreported
    cases hkey : m'.files.read (paths.keyFile id) with
    | error e =>
      rw [hkey] at hread
      cases hread
    | ok key =>
      refine ⟨ids, m', key, hrun, List.contains_iff_mem.1 hmem, hkey, ?_⟩
      rintro ⟨call, hcall, ⟨device, -, hcommand⟩, hsucceeds, -⟩
      have hfailed := List.all_eq_true.1 hcalls call hcall
      rcases hcommand with hcommand | hcommand <;> rw [hcommand, hsucceeds] at hfailed <;>
        cases hfailed
  · cases h

theorem adopt_mappedMachine : ReportsUntested busyEnvironment {}
    (.adopt "/dev/disk/by-id/disk" zeroKey) mappedMachine "disk" :=
  reportsUntested_of_calls (by decide +kernel)

theorem decrypt_mappedMachine : ReportsUntested busyEnvironment {} .decrypt
    (Turn.after busyEnvironment {} ⟨.encrypt "/dev/disk/by-id/disk", mappedMachine⟩) "disk" :=
  reportsUntested_of_calls (by decide +kernel)

/-- Of a drive that is mapped already, an import reports a key that nothing was done with, and so does
unlocking with the key of an encryption that failed. -/
theorem mapped_drive_hides_untested_key :
    mappedMachine.files.list ({} : Paths).keys = .ok [] ∧ mappedMachine.files.Sound ∧
    ToolsKeepKeys busyEnvironment {} ∧
    ReportsUntested busyEnvironment {} (.adopt "/dev/disk/by-id/disk" zeroKey) mappedMachine
      "disk" ∧
    ReportsUntested busyEnvironment {} .decrypt
      (Turn.after busyEnvironment {} ⟨.encrypt "/dev/disk/by-id/disk", mappedMachine⟩) "disk" :=
  ⟨list_mappedMachine, sound_mappedMachine, toolsKeepKeys_busyEnvironment, adopt_mappedMachine,
    decrypt_mappedMachine⟩

theorem reported_key_accounted_mappedMachine :
    let turn : Turn := ⟨.encrypt "/dev/disk/by-id/disk", mappedMachine⟩
    let m := turn.after busyEnvironment {}
    ∃ ids m', (Request.decrypt.action busyEnvironment {}).perform m = (.ok ids, m') ∧
      "disk" ∈ ids ∧ ∀ id ∈ ids, ∃ key, m'.files.read (({} : Paths).keyFile id) = .ok key ∧
        (Proven {} m'.calls id key ∨
          (∃ turn' ∈ [turn, ⟨.decrypt, m⟩], turn'.LeavesUntested busyEnvironment {} id key) ∧
          Untried {} id m m') := by
  obtain ⟨ids, m', key, hrun, hmem, -⟩ := decrypt_mappedMachine
  have hserved := Served.turn (.encrypt "/dev/disk/by-id/disk")
    (@Served.start busyEnvironment {} mappedMachine)
  exact ⟨ids, m', hrun, hmem, reported_key_accounted list_mappedMachine sound_mappedMachine
    toolsKeepKeys_busyEnvironment hserved hrun⟩

end Groundwork.Encryption
