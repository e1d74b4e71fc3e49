import Groundwork.Proofs.Base64
import Groundwork.Proofs.Dict
import Groundwork.Proofs.Encryption.Requests

/-! What the written keys of a machine are good for. The keys that requests have stored are all listed,
and importing them in any order makes the same key files on another machine. -/
namespace Groundwork.Encryption

open FileTree (CanHold)
open Paths (keyFileName)

variable {env env' : Environment} {paths paths' : Paths} {m m₀ m₁ m' : Machine} {t : FileTree}
  {dir : Location} {device id keyText : String} {key : ByteArray} {names ids : List String}
  {turns : List Turn} {P : String → ByteArray → Prop}

/-! ### Keys that were stored -/

/-- The keys that requests store for a drive: one that an encryption has drawn, and one that an import
has brought. -/
inductive Stored (env : Environment) (paths : Paths) (id : String) : ByteArray → Prop
  | fresh (device : String) (m : Machine) (hdrive : paths.stableId device = .ok id) :
      Stored env paths id (drawn env m)
  | brought {key : ByteArray} (device keyText : String) (hdrive : paths.stableId device = .ok id)
      (hkey : decodeKey keyText = .ok key) : Stored env paths id key

theorem size_of_decodeKey (h : decodeKey keyText = .ok key) : key.size = keyLength := by
  unfold decodeKey at h
  split at h
  · cases h
  · split at h
    · next hsize =>
      cases h
      exact hsize
    · cases h

/-- A key comes back from its written form. -/
theorem decodeKey_encode (h : key.size = keyLength) : decodeKey (Base64.encode key) = .ok key := by
  rw [decodeKey, Base64.decode?_encode]
  exact if_pos h

theorem Stored.size (h : Stored env paths id key) : key.size = keyLength := by
  cases h with
  | fresh device m => exact size_drawn env m
  | brought device keyText _ hkey => exact size_of_decodeKey hkey

theorem Stored.isName (h : Stored env paths id key) : Path.IsName id := by
  cases h with
  | fresh device m hdrive => exact isName_of_stableId hdrive
  | brought device keyText hdrive => exact isName_of_stableId hdrive

/-- One request leaves keys that requests store. -/
theorem Keyring.stored_after (htools : ToolsKeepKeys env paths)
    (h : Keyring paths dir (Stored env paths) m.files) (r : Request) :
    Keyring paths dir (Stored env paths) (Turn.after env paths ⟨r, m⟩).files := by
  have hothers {id : String} (other : String) (key : ByteArray) (_ : other ≠ id)
      (hstored : Stored env paths other key) : Stored env paths other key := hstored
  cases r with
  | encrypt device =>
    have hafter : Turn.after env paths ⟨.encrypt device, m⟩ =
        ((encrypt env paths device).perform m).2 := by
      rw [Turn.after, Request.action, Action.perform_bind_pure]
    rw [hafter]
    rcases encrypt_cases htools h rfl with
      ⟨-, hkeeps⟩ | ⟨id, key, hdrive, ⟨m₁, rfl⟩, hrekeyed, -⟩
    · exact h.keeps hkeeps.files
    · refine hrekeyed.keyring h hothers ?_
      rintro _ ⟨⟩
      exact .fresh device m₁ hdrive
  | adopt device keyText =>
    have hafter : Turn.after env paths ⟨.adopt device keyText, m⟩ =
        ((importDrive env paths device keyText).perform m).2 := by
      rw [Turn.after, Request.action, Action.perform_bind_pure]
    rw [hafter]
    rcases importDrive_cases htools h rfl with
      ⟨-, hkeeps⟩ | ⟨id, hdrive, -, ⟨-, hrekeyed⟩ | ⟨key, -, hkey, hrekeyed, -⟩⟩
    · exact h.keeps hkeeps.files
    · refine hrekeyed.keyring h hothers ?_
      rintro _ ⟨⟩
    · refine hrekeyed.keyring h hothers ?_
      rintro _ ⟨⟩
      exact .brought device keyText hdrive hkey
  | decrypt =>
    obtain ⟨ids, unlocked, m', hperform, hunlocks⟩ := decryptDrives_cases htools h
    have hafter : Turn.after env paths ⟨.decrypt, m⟩ = m' := congrArg Prod.snd hperform
    rw [hafter]
    exact h.keeps hunlocks.keeps.files

theorem Served.after (h : Served env paths m₀ turns m) (r : Request) :
    Served env paths m₀ (turns ++ [⟨r, m⟩]) (Turn.after env paths ⟨r, m⟩) := h.turn r

/-- As long as requests are served, every key file holds a key that one of them stored. -/
theorem Served.stored (hserved : Served env paths m₀ turns m) (htools : ToolsKeepKeys env paths)
    (h : Keyring paths dir (Stored env paths) m₀.files) :
    Keyring paths dir (Stored env paths) m.files := by
  induction hserved with
  | start => exact h
  | meanwhile _ hkeeps ih => exact ih.keeps hkeeps.files
  | turn r _ ih => exact ih.stored_after htools r

/-! ### Key files -/

/-- Whether a machine has a key file for a drive, and the key in it. -/
def KeyFile (paths : Paths) (t : FileTree) (id : String) (key : ByteArray) : Prop :=
  id ≠ "" ∧ (∃ names, t.list paths.keys = .ok names ∧ "luks." ++ id ++ ".key" ∈ names) ∧
    t.read (Path.join paths.keys ("luks." ++ id ++ ".key")) = .ok key

theorem keyFile_iff (hlist : t.list paths.keys = .ok names) : KeyFile paths t id key ↔
    (keyFileName id ∈ names ∧ id ≠ "") ∧ t.read (paths.keyFile id) = .ok key := by
  constructor
  · rintro ⟨hne, ⟨names', hlist', hmem⟩, hread⟩
    cases hlist.symm.trans hlist'
    exact ⟨⟨hmem, hne⟩, hread⟩
  · rintro ⟨⟨hmem, hne⟩, hread⟩
    exact ⟨hne, ⟨names, hlist, hmem⟩, hread⟩

theorem Keyring.keyFile_iff (h : Keyring paths dir P t) : KeyFile paths t id key ↔
    ∃ mode, t.node? (dir ++ [keyFileName id]) = some (.file key mode) := by
  have hlist : t.list paths.keys = .ok ((t.below dir).mergeSort (· ≤ ·)) :=
    FileTree.list_eq_ok.2 ⟨dir, h.room, rfl⟩
  rw [Encryption.keyFile_iff hlist, List.mem_mergeSort]
  constructor
  · rintro ⟨⟨hmem, -⟩, hread⟩
    obtain ⟨n, hn⟩ := FileTree.exists_node?_of_mem_below hmem
    obtain ⟨hname, -⟩ := h.keys id n hn
    exact (h.read_eq_ok_iff hname).1 hread
  · rintro ⟨mode, hn⟩
    obtain ⟨hname, -⟩ := h.keys id _ hn
    exact ⟨⟨FileTree.mem_below_of_node? hn, hname.ne_empty⟩, (h.read_eq_ok_iff hname).2 ⟨mode, hn⟩⟩

/-! ### The written keys -/

/-- If all key files can be read, the written keys are those in them, in the order of the drives. -/
theorem driveKeys_of_read (hsound : m.files.Sound) (hlist : m.files.list paths.keys = .ok names)
    (hread : ∀ id, keyFileName id ∈ names → id ≠ "" → ∃ key, m.files.read (paths.keyFile id) = .ok key) :
    ∃ backup, (driveKeys paths).perform m = (.ok backup, m) ∧
      keyIds paths m.files = .ok backup.keys ∧ backup.keys.Pairwise (· < ·) ∧
      ∀ id text, backup.get? id = some text ↔
        ∃ key, KeyFile paths m.files id key ∧ text = Base64.encode key := by
  obtain ⟨ids, hids, hascending, hmem⟩ := keyIds_of_list hsound hlist
  obtain ⟨keyOf, hkeyOf⟩ : ∃ keyOf : String → ByteArray,
      ∀ id ∈ ids, m.files.read (paths.keyFile id) = .ok (keyOf id) := by
    refine ⟨fun id => (m.files.read (paths.keyFile id)).toOption.getD .empty, ?_⟩
    intro id hid
    obtain ⟨hname, hne⟩ := (hmem id).1 hid
    obtain ⟨key, hkey⟩ := hread id hname hne
    simp only [hkey]
    rfl
  have hrecords : (records paths).perform m =
      (.ok (ids.map fun id => ⟨id, paths.keyFile id, keyOf id⟩), m) := by
    have hall : ids.mapM (recordOf paths m.files) =
        .ok (ids.map fun id => ⟨id, paths.keyFile id, keyOf id⟩) := by
      apply Action.mapM_eq_ok
      intro id hid
      rw [recordOf, hkeyOf id hid]
      rfl
    rw [records, Action.perform_bind_of_ok _ (Action.perform_get m), Action.perform_ofExcept,
      keyRecords, hids, Action.ok_bind, hall]
  have hpairs : (ids.map fun id => (id, Base64.encode (keyOf id))).Pairwise fun a b => a.1 < b.1 :=
    hascending.map _ fun a b h => h
  have hkeys : (Dict.mk _ hpairs).keys = ids := by simp [Dict.keys, Function.comp_def]
  refine ⟨⟨_, hpairs⟩, ?_, by rw [hkeys, hids], by rwa [hkeys], ?_⟩
  · rw [driveKeys, Action.perform_bind_of_ok _ hrecords, ← Dict.ofList_entries ⟨_, hpairs⟩]
    simp [Function.comp_def, KeyRecord.encodedKey]
  · intro id text
    rw [Dict.get?_eq_some, List.mem_map]
    constructor
    · rintro ⟨id', hid, hsame⟩
      cases hsame
      exact ⟨keyOf id, (keyFile_iff hlist).2 ⟨(hmem id).1 hid, hkeyOf id hid⟩, rfl⟩
    · rintro ⟨key, hkey, rfl⟩
      obtain ⟨hnamed, hread⟩ := (keyFile_iff hlist).1 hkey
      have hid := (hmem id).2 hnamed
      cases hread.symm.trans (hkeyOf id hid)
      exact ⟨id, hid, rfl⟩

/-- The keys of a directory that is in order can be written out. -/
theorem Keyring.driveKeys (h : Keyring paths dir P m.files) :
    ∃ backup, (driveKeys paths).perform m = (.ok backup, m) ∧
      keyIds paths m.files = .ok backup.keys ∧ backup.keys.Pairwise (· < ·) ∧
      ∀ id text, backup.get? id = some text ↔
        ∃ key, KeyFile paths m.files id key ∧ text = Base64.encode key := by
  refine driveKeys_of_read h.sound (FileTree.list_eq_ok.2 ⟨dir, h.room, rfl⟩) ?_
  intro id hmem _
  obtain ⟨n, hn⟩ := FileTree.exists_node?_of_mem_below (List.mem_mergeSort.1 hmem)
  obtain ⟨hname, -, key, mode, rfl, -⟩ := h.keys id n hn
  exact ⟨key, (h.read_eq_ok_iff hname).2 ⟨mode, hn⟩⟩

/-! ### Bringing keys back -/

/-- An import on a machine on which all unlocking succeeds. -/
theorem importDrive_of_unlocks (htools : ToolsKeepKeys env paths)
    (hunlock : ∀ m, ((unlock env paths (Path.join paths.byId id) id).perform m).1 = .ok ())
    (h : Keyring paths dir P m.files) (hid : Path.IsName id)
    (hcan : CanHold paths.keys (keyFileName id)) (hkey : decodeKey keyText = .ok key) :
    ∃ m', (importDrive env paths (Path.join paths.byId id) keyText).perform m = (.ok (), m') ∧
      Rekeyed paths dir id (some key) m.files m'.files := by
  obtain ⟨m₁, hwrite, hrekeyed⟩ := h.writeKey_of_canHold hid hcan key
  have hdrive : (Action.ofExcept (paths.stableId (Path.join paths.byId id))).perform m =
      (.ok id, m) := by rw [Action.perform_ofExcept, stableId_join hid]
  have hdecoded : (Action.ofExcept (decodeKey keyText)).perform m = (.ok key, m) := by
    rw [Action.perform_ofExcept, hkey]
  have hkeeps := within_unlock htools (Path.join paths.byId id) id m₁
  have hopened := hunlock m₁
  rw [importDrive_eq, Action.perform_bind_of_ok _ hdrive, Action.perform_bind_of_ok _ hdecoded,
    Action.perform_bind_of_ok _ hwrite, trial,
    Action.perform_bind_of_ok _ (Action.perform_attempt _ m₁), hopened]
  exact ⟨_, rfl, hrekeyed.after hkeeps.files⟩

/-- Imports one after the other, on each drive one at most: every drive has the key that was brought
for it, and the others have what they had. -/
theorem importDrives_of_unlocks (htools : ToolsKeepKeys env paths)
    (hunlock : ∀ id m, ((unlock env paths (Path.join paths.byId id) id).perform m).1 = .ok ())
    {pairs : List (String × String)} (honce : (pairs.map (·.1)).Nodup)
    (hpairs : ∀ pair ∈ pairs, Path.IsName pair.1 ∧ CanHold paths.keys (keyFileName pair.1) ∧
      ∃ key, decodeKey pair.2 = .ok key)
    (h : Keyring paths dir P m.files) :
    ∃ m', (pairs.forM fun pair => importDrive env paths (Path.join paths.byId pair.1) pair.2).perform
        m = (.ok (), m') ∧ Keyring paths dir (fun _ _ => True) m'.files ∧
      (∀ pair ∈ pairs, ∃ key, decodeKey pair.2 = .ok key ∧
        m'.files.node? (dir ++ [keyFileName pair.1]) = some (.file key keyMode)) ∧
      ∀ id, id ∉ pairs.map (·.1) →
        m'.files.node? (dir ++ [keyFileName id]) = m.files.node? (dir ++ [keyFileName id]) := by
  induction pairs generalizing m P with
  | nil => exact ⟨m, rfl, h.mono fun _ _ _ => trivial, by simp, fun _ _ => rfl⟩
  | cons pair pairs ih =>
    obtain ⟨hnew, honce⟩ := List.nodup_cons.1 honce
    obtain ⟨hname, hcan, key, hkey⟩ := hpairs pair List.mem_cons_self
    obtain ⟨m₁, hfirst, hrekeyed⟩ := importDrive_of_unlocks htools (hunlock pair.1) h hname hcan hkey
    obtain ⟨m', hrest, hring, hbrought, hothers⟩ :=
      ih honce (fun p hp => hpairs p (.tail _ hp)) (hrekeyed.inOrder h)
    refine ⟨m', (Action.perform_bind_of_ok _ hfirst).trans hrest, hring, ?_, ?_⟩
    · intro p hp
      rcases List.mem_cons.1 hp with rfl | hp
      · exact ⟨key, hkey, by rw [hothers _ hnew, hrekeyed.own, Option.map_some]⟩
      · exact hbrought p hp
    · intro id hid
      rw [List.map_cons, List.mem_cons, not_or] at hid
      rw [hothers id hid.2, hrekeyed.others id hid.1]

/-- An empty key directory has exactly the keys that are brought into it. -/
theorem importDrives_keyFile_iff (hsound : m₁.files.Sound)
    (hempty : m₁.files.list paths.keys = .ok []) (htools : ToolsKeepKeys env paths)
    (hunlock : ∀ id m, ((unlock env paths (Path.join paths.byId id) id).perform m).1 = .ok ())
    {pairs : List (String × String)} (honce : (pairs.map (·.1)).Nodup)
    (hpairs : ∀ pair ∈ pairs, Path.IsName pair.1 ∧ CanHold paths.keys (keyFileName pair.1) ∧
      ∃ key, decodeKey pair.2 = .ok key) :
    ∃ m' dir, (pairs.forM fun pair => importDrive env paths (Path.join paths.byId pair.1) pair.2).perform
        m₁ = (.ok (), m') ∧ Keyring paths dir (fun _ _ => True) m'.files ∧
      ∀ id key, KeyFile paths m'.files id key ↔
        ∃ keyText, (id, keyText) ∈ pairs ∧ decodeKey keyText = .ok key := by
  obtain ⟨dir, hring⟩ := Keyring.of_empty (P := fun _ _ => False) hsound hempty
  obtain ⟨m', hrun, hring', hbrought, hothers⟩ :=
    importDrives_of_unlocks htools hunlock honce hpairs hring
  refine ⟨m', dir, hrun, hring', ?_⟩
  intro id key
  rw [hring'.keyFile_iff]
  constructor
  · rintro ⟨mode, hn⟩
    by_cases hid : id ∈ pairs.map (·.1)
    · obtain ⟨⟨_, keyText⟩, hmem, rfl⟩ := List.mem_map.1 hid
      obtain ⟨key', hkey, hn'⟩ := hbrought _ hmem
      cases hn.symm.trans hn'
      exact ⟨keyText, hmem, hkey⟩
    · rw [hothers id hid] at hn
      obtain ⟨-, -, _, _, _, hnone⟩ := hring.keys id _ hn
      exact hnone.elim
  · rintro ⟨keyText, hmem, hkey⟩
    obtain ⟨key', hkey', hn⟩ := hbrought _ hmem
    cases hkey.symm.trans hkey'
    exact ⟨keyMode, hn⟩

/-! ### There and back -/

/-- A tree whose key files hold keys that requests stored. Anything may stand under other names, and a
key file may be a link. -/
structure Written (env : Environment) (paths : Paths) (t : FileTree) : Prop where
  sound : t.Sound
  listed : ∃ names, t.list paths.keys = .ok names
  stored : ∀ names id, t.list paths.keys = .ok names → "luks." ++ id ++ ".key" ∈ names → id ≠ "" →
    ∃ key, t.read (Path.join paths.keys ("luks." ++ id ++ ".key")) = .ok key ∧ Stored env paths id key

theorem Keyring.written (h : Keyring paths dir (Stored env paths) t) : Written env paths t where
  sound := h.sound
  listed := ⟨_, FileTree.list_eq_ok.2 ⟨dir, h.room, rfl⟩⟩
  stored names id hlist hmem _ := by
    obtain ⟨place, hfind, rfl⟩ := FileTree.list_eq_ok.1 hlist
    cases h.room.symm.trans hfind
    obtain ⟨n, hn⟩ := FileTree.exists_node?_of_mem_below (List.mem_mergeSort.1 hmem)
    obtain ⟨hname, -, key, mode, rfl, hstored⟩ := h.keys id n hn
    exact ⟨key, (h.read_eq_ok_iff hname).2 ⟨mode, hn⟩, hstored⟩

namespace Written

theorem of_keyFile (h : Written env paths t) (hkey : KeyFile paths t id key) :
    Stored env paths id key := by
  obtain ⟨names, hlist⟩ := h.listed
  obtain ⟨⟨hmem, hne⟩, hread⟩ := (keyFile_iff hlist).1 hkey
  obtain ⟨key', hread', hstored⟩ := h.stored names id hlist hmem hne
  cases hread.symm.trans hread'
  exact hstored

/-- The name of a key file fits into the directory that it is in. -/
theorem canHold (h : Written env paths t) (hkey : KeyFile paths t id key) :
    CanHold paths.keys (keyFileName id) := by
  obtain ⟨names, hlist⟩ := h.listed
  obtain ⟨-, hread⟩ := (keyFile_iff hlist).1 hkey
  obtain ⟨dir, hroom, -⟩ := FileTree.list_eq_ok.1 hlist
  obtain ⟨place, mode, hfind⟩ := FileTree.read_eq_ok.1 hread
  exact FileTree.canHold_of_locate hroom (isName_keyFileName (h.of_keyFile hkey).isName)
    (FileTree.find_eq_ok.1 hfind).1

end Written

/-- The keys of a machine are written out in the order of their drives, each once. Brought to an empty
machine on which every drive opens, in any order, they make the same key files there, and these
are written out in the same way. -/
theorem backup_restores (hwritten : Written env paths m.files) (hsound : m₁.files.Sound)
    (hempty : m₁.files.list paths'.keys = .ok []) (htools : ToolsKeepKeys env' paths')
    (hunlock : ∀ id m, ((unlock env' paths' (Path.join paths'.byId id) id).perform m).1 = .ok ())
    (hroom : ∀ name, CanHold paths.keys name → CanHold paths'.keys name) :
    ∃ backup, (driveKeys paths).perform m = (.ok backup, m) ∧
      keyIds paths m.files = .ok backup.keys ∧ backup.keys.Pairwise (· < ·) ∧
      (∀ id text, backup.get? id = some text ↔
        ∃ key, KeyFile paths m.files id key ∧ text = Base64.encode key) ∧
      (∀ id key, KeyFile paths m.files id key → key.size = 32) ∧
      ∀ pairs : List (String × String), pairs.Perm backup.entries → ∃ m',
        (pairs.forM fun pair =>
          importDrive env' paths' (Path.join paths'.byId pair.1) pair.2).perform m₁ = (.ok (), m') ∧
        (∀ id key, KeyFile paths' m'.files id key ↔ KeyFile paths m.files id key) ∧
        (driveKeys paths').perform m' = (.ok backup, m') ∧
        keyIds paths' m'.files = keyIds paths m.files := by
  obtain ⟨names, hlist⟩ := hwritten.listed
  have hread (id : String) (hmem : keyFileName id ∈ names) (hne : id ≠ "") :
      ∃ key, m.files.read (paths.keyFile id) = .ok key := by
    obtain ⟨key, hread, -⟩ := hwritten.stored names id hlist hmem hne
    exact ⟨key, hread⟩
  obtain ⟨backup, hexport, hids, hascending, hbackup⟩ :=
    driveKeys_of_read hwritten.sound hlist hread
  refine ⟨backup, hexport, hids, hascending, hbackup,
    fun id key hkey => (hwritten.of_keyFile hkey).size, ?_⟩
  intro pairs hperm
  have hpair (id text : String) : (id, text) ∈ pairs ↔
      ∃ key, KeyFile paths m.files id key ∧ text = Base64.encode key := by
    rw [hperm.mem_iff, ← Dict.get?_eq_some, hbackup]
  have honce : (pairs.map (·.1)).Nodup := (hperm.map _).nodup_iff.2 backup.nodup_keys
  have hgood : ∀ pair ∈ pairs, Path.IsName pair.1 ∧ CanHold paths'.keys (keyFileName pair.1) ∧
      ∃ key, decodeKey pair.2 = .ok key := by
    rintro ⟨id, text⟩ hmem
    obtain ⟨key, hkey, rfl⟩ := (hpair id text).1 hmem
    have hstored := hwritten.of_keyFile hkey
    exact ⟨hstored.isName, hroom _ (hwritten.canHold hkey), key, decodeKey_encode hstored.size⟩
  obtain ⟨m', dir, hrun, hring, hkeys⟩ :=
    importDrives_keyFile_iff hsound hempty htools hunlock honce hgood
  have hsame (id : String) (key : ByteArray) :
      KeyFile paths' m'.files id key ↔ KeyFile paths m.files id key := by
    rw [hkeys]
    constructor
    · rintro ⟨text, hmem, hdecoded⟩
      obtain ⟨key', hkey, rfl⟩ := (hpair id text).1 hmem
      cases hdecoded.symm.trans (decodeKey_encode (hwritten.of_keyFile hkey).size)
      exact hkey
    · intro hkey
      exact ⟨_, (hpair id _).2 ⟨key, hkey, rfl⟩, decodeKey_encode (hwritten.of_keyFile hkey).size⟩
  obtain ⟨backup', hexport', hids', -, hbackup'⟩ := hring.driveKeys
  have heq : backup' = backup := by
    apply Dict.ext_get?
    intro id
    apply Option.ext
    intro text
    simp only [hbackup, hbackup', hsame]
  subst heq
  exact ⟨m', hrun, hsame, hexport', hids'.trans hids.symm⟩

/-! ### A machine with two keys -/

theorem unlock_busyEnvironment (device id : String) (m : Machine) :
    ((unlock busyEnvironment {} device id).perform m).1 = .ok () := by
  rw [perform_unlock]
  split <;> rfl

/-- A machine to which a key was brought, and that has the key of an encryption that broke off. -/
def twiceKeyedMachine : Machine :=
  Turn.after busyEnvironment {} ⟨.encrypt "/dev/disk/by-id/disk",
    Turn.after busyEnvironment {} ⟨.adopt "/dev/disk/by-id/luks.disk.key" zeroKey, mappedMachine⟩⟩

theorem keyring_twiceKeyedMachine :
    ∃ dir, Keyring {} dir (Stored busyEnvironment {}) twiceKeyedMachine.files := by
  obtain ⟨dir, hstart⟩ := Keyring.of_empty (P := Stored busyEnvironment {}) sound_mappedMachine
    list_mappedMachine
  obtain ⟨turns, hserved⟩ :
      ∃ turns, Served busyEnvironment {} mappedMachine turns twiceKeyedMachine := by
    unfold twiceKeyedMachine
    exact ⟨_, (Served.start.after _).after _⟩
  exact ⟨dir, hserved.stored toolsKeepKeys_busyEnvironment hstart⟩

theorem keyFile_twiceKeyedMachine (hid : id = "disk" ∨ id = "luks.disk.key") :
    ∃ key, KeyFile {} twiceKeyedMachine.files id key := by
  obtain ⟨dir, hring⟩ := keyring_twiceKeyedMachine
  have hkeyed {id : String} (hname : Path.IsName id)
      (h : (twiceKeyedMachine.files.read (({} : Paths).keyFile id)).isOk = true) :
      ∃ key, KeyFile {} twiceKeyedMachine.files id key := by
    cases hread : twiceKeyedMachine.files.read (({} : Paths).keyFile id) with
    | error e =>
      rw [hread] at h
      cases h
    | ok key => exact ⟨key, hring.keyFile_iff.2 ((hring.read_eq_ok_iff hname).1 hread)⟩
  rcases hid with rfl | rfl
  · exact hkeyed ⟨by decide, by decide, by decide, by decide⟩ (by decide +kernel)
  · exact hkeyed ⟨by decide, by decide, by decide, by decide⟩ (by decide +kernel)

theorem backup_restores_mappedMachine :
    ∃ backup, (driveKeys {}).perform twiceKeyedMachine = (.ok backup, twiceKeyedMachine) ∧
      "disk" ∈ backup.keys ∧ "luks.disk.key" ∈ backup.keys ∧
      ∀ pairs : List (String × String), pairs.Perm backup.entries → ∃ m',
        (pairs.forM fun pair => importDrive busyEnvironment {}
          (Path.join ({} : Paths).byId pair.1) pair.2).perform mappedMachine = (.ok (), m') ∧
        (driveKeys {}).perform m' = (.ok backup, m') := by
  obtain ⟨dir, hring⟩ := keyring_twiceKeyedMachine
  obtain ⟨backup, hexport, -, -, hbackup, -, hrestored⟩ := backup_restores hring.written
    sound_mappedMachine list_mappedMachine toolsKeepKeys_busyEnvironment
    (fun id => unlock_busyEnvironment _ id) fun _ h => h
  have hlisted (id : String) (hid : id = "disk" ∨ id = "luks.disk.key") : id ∈ backup.keys := by
    obtain ⟨key, hkey⟩ := keyFile_twiceKeyedMachine hid
    exact Dict.mem_keys.2 ⟨_, (hbackup id _).2 ⟨key, hkey, rfl⟩⟩
  refine ⟨backup, hexport, hlisted _ (.inl rfl), hlisted _ (.inr rfl), ?_⟩
  intro pairs hperm
  obtain ⟨m', hrun, -, hexport', -⟩ := hrestored pairs hperm
  exact ⟨m', hrun, hexport'⟩

end Groundwork.Encryption
