import Groundwork.Proofs.Encryption.Import
import Groundwork.Proofs.FileTree.Ways
import Groundwork.Proofs.Text
import Mathlib.Data.List.Nodup

/-! The key files of a machine. While nothing but the steps of this program touches their directory,
every key file holds a key that was stored there, and each of those steps changes the file of one
drive at most. -/
namespace Groundwork.Encryption

open FileTree (CanHold)
open Paths (keyFileName)

variable {env : Environment} {paths : Paths} {m m' : Machine} {t t' t'' : FileTree}
  {dir : Location} {device id : String} {key : ByteArray} {P Q : String → ByteArray → Prop}

/-! ### Names of key files -/

theorem isName_keyFileName (h : Path.IsName id) : Path.IsName (keyFileName id) := by
  have htext : (keyFileName id).toList =
      Paths.keyPrefix.toList ++ (id.toList ++ Paths.keySuffix.toList) := by
    simp [keyFileName]
  have hlen : 9 ≤ (keyFileName id).toList.length := by
    have hfront : Paths.keyPrefix.toList.length = 5 := rfl
    have hends : Paths.keySuffix.toList.length = 4 := rfl
    rw [htext, List.length_append, List.length_append]
    omega
  have hne {s : String} (hs : s.toList.length < 9) : keyFileName id ≠ s := by
    rintro rfl
    omega
  refine ⟨hne (by decide), hne (by decide), hne (by decide), ?_⟩
  rw [htext]
  intro hmem
  rcases List.mem_append.1 hmem with hmem | hmem
  · exact absurd hmem (by decide)
  · rcases List.mem_append.1 hmem with hmem | hmem
    · exact h.not_mem hmem
    · exact absurd hmem (by decide)

theorem keyFileName_inj {id' : String} : keyFileName id = keyFileName id' ↔ id = id' := by
  constructor
  · intro h
    exact (String.append_right_inj Paths.keyPrefix).1 ((String.append_left_inj Paths.keySuffix).1 h)
  · rintro rfl
    rfl

/-- A drive's ID is read from the names of key files, and it is not empty. -/
theorem keyFileId?_eq_some_iff {name : String} :
    keyFileId? name = some id ↔ name = keyFileName id ∧ id ≠ "" := by
  have hname (cs : List Char) : name.toList = Paths.keyPrefix.toList ++ (cs ++ Paths.keySuffix.toList) ↔
      name = keyFileName (String.ofList cs) := by
    rw [← String.toList_inj]
    simp [keyFileName]
  unfold keyFileId?
  simp only [Option.bind_eq_bind, Option.bind_eq_some_iff, Text.after?_eq_some_iff,
    Text.before?_eq_some_iff]
  constructor
  · rintro ⟨rest, hrest, cs, rfl, h⟩
    cases cs with
    | nil => cases h
    | cons c cs =>
      cases h
      refine ⟨(hname _).1 hrest, fun hempty => ?_⟩
      have hnil := congrArg String.toList hempty
      simp at hnil
  · rintro ⟨rfl, hne⟩
    refine ⟨_, (hname id.toList).2 (by rw [String.ofList_toList]), id.toList, rfl, ?_⟩
    have hfull : id.toList.isEmpty = false := by
      rw [List.isEmpty_eq_false_iff]
      exact fun hnil => hne (String.toList_eq_nil_iff.1 hnil)
    rw [hfull, String.ofList_toList]
    rfl

theorem eq_keyFileName {name : String} (h : keyFileId? name = some id) : name = keyFileName id :=
  (keyFileId?_eq_some_iff.1 h).1

theorem mem_listed {names : List String} : id ∈ (names.filterMap keyFileId?).mergeSort (· ≤ ·) ↔
    keyFileName id ∈ names ∧ id ≠ "" := by
  simp only [List.mem_mergeSort, List.mem_filterMap, keyFileId?_eq_some_iff]
  constructor
  · rintro ⟨name, hmem, rfl, hne⟩
    exact ⟨hmem, hne⟩
  · rintro ⟨hmem, hne⟩
    exact ⟨_, hmem, rfl, hne⟩

theorem keyIds_eq {names : List String} (h : t.list paths.keys = .ok names) :
    keyIds paths t = .ok ((names.filterMap keyFileId?).mergeSort (· ≤ ·)) := by
  rw [keyIds, h]

/-- The drives with a key file are listed in ascending order, each of them once. -/
theorem keyIds_of_list {names : List String} (hsound : t.Sound)
    (hlist : t.list paths.keys = .ok names) : ∃ ids, keyIds paths t = .ok ids ∧
    ids.Pairwise (· < ·) ∧ ∀ id, id ∈ ids ↔ keyFileName id ∈ names ∧ id ≠ "" := by
  refine ⟨_, keyIds_eq hlist, ?_, fun id => mem_listed⟩
  obtain ⟨dir, -, rfl⟩ := FileTree.list_eq_ok.1 hlist
  have hnames := (List.mergeSort_perm (t.below dir) (· ≤ ·)).nodup_iff.2 (hsound.nodup_below dir)
  have honce : (((t.below dir).mergeSort (· ≤ ·)).filterMap keyFileId?).Nodup := by
    refine List.Pairwise.filterMap _ ?_ hnames
    rintro name name' hne id hname id' hname' rfl
    exact hne ((eq_keyFileName hname).trans (eq_keyFileName hname').symm)
  have hnodup := (List.mergeSort_perm _ (· ≤ ·)).nodup_iff.2 honce
  refine ((Text.ascending_mergeSort _).and hnodup).imp ?_
  rintro a b ⟨hle, hne⟩
  exact String.not_le.1 fun hge => hne (String.le_antisymm hle hge)

/-- Whether a path is that of the stable IDs and one ordinary name behind it, by its components. -/
def Addresses (paths : Paths) (device id : String) : Prop :=
  Path.components device = Path.components paths.byId ++ [.name id]

theorem stableId_eq_ok_iff : paths.stableId device = .ok id ↔ Addresses paths device id := by
  rw [Addresses, ← Path.below?_eq_some_iff]
  unfold Paths.stableId
  split
  · next name hbelow => simp [hbelow]
  · next hother =>
    constructor
    · intro hok
      cases hok
    · intro hbelow
      exact absurd hbelow (hother id)

/-- A name among the stable IDs is the ID of the drive. -/
theorem stableId_join (h : Path.IsName id) : paths.stableId (Path.join paths.byId id) = .ok id :=
  stableId_eq_ok_iff.2 (Path.components_join h _)

theorem isName_of_stableId (h : paths.stableId device = .ok id) : Path.IsName id := by
  have hwhole := stableId_eq_ok_iff.1 h
  have hmem : .name id ∈ Path.components device := hwhole ▸ List.mem_concat_self
  exact Path.isName_of_mem_components hmem

/-! ### Changes that leave the key files alone -/

/-- Whether a change leaves the key files as they are, and the way to them. -/
structure KeepsKeys (paths : Paths) (t t' : FileTree) : Prop where
  sound : t.Sound → t'.Sound
  room : ∀ dir, t.find paths.keys true = .ok (dir, .directory) →
    t'.find paths.keys true = .ok (dir, .directory)
  keys : ∀ dir, t.find paths.keys true = .ok (dir, .directory) →
    ∀ id, t'.node? (dir ++ [keyFileName id]) = t.node? (dir ++ [keyFileName id])

/-- A machine on which the key files are as before. Its calls go on from those of before. -/
structure Keeps (paths : Paths) (m m' : Machine) : Prop where
  files : KeepsKeys paths m.files m'.files
  calls : m.calls <+: m'.calls

theorem KeepsKeys.refl (paths : Paths) (t : FileTree) : KeepsKeys paths t t :=
  ⟨id, fun _ h => h, fun _ _ _ => rfl⟩

theorem KeepsKeys.trans (h : KeepsKeys paths t t') (h' : KeepsKeys paths t' t'') :
    KeepsKeys paths t t'' where
  sound := h'.sound ∘ h.sound
  room dir hdir := h'.room dir (h.room dir hdir)
  keys dir hdir id := (h'.keys dir (h.room dir hdir) id).trans (h.keys dir hdir id)

theorem chains_keeps (paths : Paths) : Machine.Chains (Keeps paths) where
  refl m := ⟨.refl paths m.files, List.prefix_rfl⟩
  trans h h' := ⟨h.files.trans h'.files, h.calls.trans h'.calls⟩

theorem keeps_logged (paths : Paths) (m : Machine) (level : Level) (text : String) :
    Keeps paths m (m.record (.logged level text)) :=
  ⟨.refl paths m.files, by simp [Machine.calls]⟩

/-- Whether tools leave the key files alone. -/
def ToolsKeepKeys (env : Environment) (paths : Paths) : Prop :=
  ∀ m c o t, env.tool m c = some (o, t) → KeepsKeys paths m.files t

theorem keeps_after (htools : ToolsKeepKeys env paths) (a : Attempt) :
    Keeps paths a.machine (a.after env) := by
  constructor
  · rcases @Attempt.files_after env a with hsame | ⟨o, ho⟩
    · rw [hsame]
      exact .refl paths _
    · exact htools _ _ o _ ho
  · rw [Attempt.calls_after]
    exact List.prefix_append _ _

theorem within_run (htools : ToolsKeepKeys env paths) (c : Command) :
    Action.Within (Keeps paths) (Action.run env c) := by
  intro m
  rw [Action.perform_run_eq]
  exact keeps_after htools ⟨m, c⟩

theorem within_runChecked (htools : ToolsKeepKeys env paths) (c : Command) :
    Action.Within (Keeps paths) (Action.runChecked env c) := by
  intro m
  rw [Action.perform_runChecked]
  exact keeps_after htools ⟨m, c⟩

theorem within_logInfo (paths : Paths) (text : String) :
    Action.Within (Keeps paths) (Action.logInfo text) := fun m => keeps_logged paths m _ text

theorem within_zap (htools : ToolsKeepKeys env paths) (device : String) :
    Action.Within (Keeps paths) (PartitionTable.zap env device) :=
  .bind (chains_keeps paths) (within_logInfo paths _) fun _ =>
    .bind (chains_keeps paths) (within_run htools _) fun _ => .of_still (chains_keeps paths) fun _ => rfl

theorem within_unlock (htools : ToolsKeepKeys env paths) (device id : String) :
    Action.Within (Keeps paths) (unlock env paths device id) := by
  intro m
  rw [perform_unlock]
  split
  · exact (chains_keeps paths).refl m
  · exact (chains_keeps paths).trans (keeps_logged paths m _ _)
      (keeps_after htools (opening paths device id m))

/-! ### Key files and what is known of the keys -/

/-- A tree whose key directory is in order: what stands under the name of a key file is a file with a
key of which something holds. -/
structure Keyring (paths : Paths) (dir : Location) (P : String → ByteArray → Prop) (t : FileTree) :
    Prop where
  sound : t.Sound
  room : t.find paths.keys true = .ok (dir, .directory)
  keys : ∀ id n, t.node? (dir ++ [keyFileName id]) = some n → Path.IsName id ∧
    CanHold paths.keys (keyFileName id) ∧ ∃ key mode, n = .file key mode ∧ P id key

namespace Keyring

/-- A key directory without the names of key files holds no keys. -/
theorem of_keyless {names : List String} (hsound : t.Sound) (h : t.list paths.keys = .ok names)
    (hnames : ∀ id, keyFileName id ∉ names) : ∃ dir, Keyring paths dir P t := by
  obtain ⟨dir, hfind, rfl⟩ := FileTree.list_eq_ok.1 h
  refine ⟨dir, hsound, hfind, ?_⟩
  intro id n hn
  have hmem := (List.mergeSort_perm (t.below dir) (· ≤ ·)).mem_iff.2
    (FileTree.mem_below_of_node? hn)
  exact absurd hmem (hnames id)

theorem of_empty (hsound : t.Sound) (h : t.list paths.keys = .ok []) :
    ∃ dir, Keyring paths dir P t := of_keyless hsound h fun _ => List.not_mem_nil

theorem mono (h : Keyring paths dir P t) (hPQ : ∀ id key, P id key → Q id key) :
    Keyring paths dir Q t := by
  refine ⟨h.sound, h.room, ?_⟩
  intro id n hn
  obtain ⟨hname, hcan, key, mode, rfl, hP⟩ := h.keys id n hn
  exact ⟨hname, hcan, key, mode, rfl, hPQ id key hP⟩

theorem keeps (h : Keyring paths dir P t) (hkeeps : KeepsKeys paths t t') :
    Keyring paths dir P t' := by
  refine ⟨hkeeps.sound h.sound, hkeeps.room dir h.room, ?_⟩
  intro id n hn
  rw [hkeeps.keys dir h.room id] at hn
  exact h.keys id n hn

theorem node?_dir (h : Keyring paths dir P t) : t.node? dir = some .directory :=
  (FileTree.find_eq_ok.1 h.room).2

theorem isEnd (h : Keyring paths dir P t) (id : String) :
    FileTree.IsEnd (t.node? (dir ++ [keyFileName id])) := by
  cases hn : t.node? (dir ++ [keyFileName id]) with
  | none => exact .inl rfl
  | some n =>
    obtain ⟨-, -, key, mode, rfl, -⟩ := h.keys id n hn
    exact .inr ⟨key, mode, rfl⟩

theorem locate_iff (h : Keyring paths dir P t) (hid : Path.IsName id) {follow : Bool}
    {place : Location} : t.locate (paths.keyFile id) follow = .ok place ↔
      CanHold paths.keys (keyFileName id) ∧ place = dir ++ [keyFileName id] :=
  FileTree.locate_join_iff h.room (isName_keyFileName hid) (.inr (h.isEnd id).ne_link)

/-- A key file is read where it stands. -/
theorem read_eq_ok_iff (h : Keyring paths dir P t) (hid : Path.IsName id) :
    t.read (paths.keyFile id) = .ok key ↔
      ∃ mode, t.node? (dir ++ [keyFileName id]) = some (.file key mode) := by
  rw [FileTree.read_eq_ok]
  constructor
  · rintro ⟨place, mode, hfind⟩
    obtain ⟨hl, hn⟩ := FileTree.find_eq_ok.1 hfind
    obtain ⟨-, rfl⟩ := (h.locate_iff hid).1 hl
    exact ⟨mode, hn⟩
  · rintro ⟨mode, hn⟩
    obtain ⟨-, hcan, -⟩ := h.keys id _ hn
    exact ⟨_, mode, FileTree.find_eq_ok.2 ⟨(h.locate_iff hid).2 ⟨hcan, rfl⟩, hn⟩⟩

theorem of_read (h : Keyring paths dir P t) (hid : Path.IsName id)
    (hread : t.read (paths.keyFile id) = .ok key) : P id key := by
  obtain ⟨mode, hn⟩ := (h.read_eq_ok_iff hid).1 hread
  obtain ⟨-, -, key', mode', hsame, hP⟩ := h.keys id _ hn
  cases hsame
  exact hP

theorem read_keeps (h : Keyring paths dir P t) (hid : Path.IsName id)
    (hkeeps : KeepsKeys paths t t') :
    t'.read (paths.keyFile id) = .ok key ↔ t.read (paths.keyFile id) = .ok key := by
  rw [h.read_eq_ok_iff hid, (h.keeps hkeeps).read_eq_ok_iff hid, hkeeps.keys dir h.room id]

end Keyring

/-! ### A key that is stored or taken away -/

/-- A tree in which the key file of one drive has a new key, or none. -/
structure Rekeyed (paths : Paths) (dir : Location) (id : String) (found : Option ByteArray)
    (t t' : FileTree) : Prop where
  name : Path.IsName id
  can_hold : CanHold paths.keys (keyFileName id)
  sound : t'.Sound
  room : t'.find paths.keys true = .ok (dir, .directory)
  own : t'.node? (dir ++ [keyFileName id]) = found.map (.file · keyMode)
  others : ∀ other, other ≠ id →
    t'.node? (dir ++ [keyFileName other]) = t.node? (dir ++ [keyFileName other])

namespace Rekeyed

variable {found again : Option ByteArray}

theorem keyring (h : Rekeyed paths dir id found t t') (ht : Keyring paths dir P t)
    (hothers : ∀ other key, other ≠ id → P other key → Q other key)
    (hown : ∀ key, found = some key → Q id key) : Keyring paths dir Q t' := by
  refine ⟨h.sound, h.room, ?_⟩
  intro other n hn
  by_cases hid : other = id
  · subst hid
    rw [h.own] at hn
    obtain ⟨key, hfound, rfl⟩ := Option.map_eq_some_iff.1 hn
    exact ⟨h.name, h.can_hold, key, keyMode, rfl, hown key hfound⟩
  · rw [h.others other hid] at hn
    obtain ⟨hname, hcan, key, mode, rfl, hP⟩ := ht.keys other n hn
    exact ⟨hname, hcan, key, mode, rfl, hothers other key hid hP⟩

/-- The key directory stays in order, whatever is known of the keys. -/
theorem inOrder (h : Rekeyed paths dir id found t t') (ht : Keyring paths dir P t) :
    Keyring paths dir (fun _ _ => True) t' :=
  h.keyring ht (fun _ _ _ _ => trivial) fun _ _ => trivial

theorem read (h : Rekeyed paths dir id (some key) t t') (ht : Keyring paths dir P t) :
    t'.read (paths.keyFile id) = .ok key :=
  ((h.inOrder ht).read_eq_ok_iff h.name).2 ⟨keyMode, h.own⟩

theorem before (h : Rekeyed paths dir id found t' t'') (hkeeps : KeepsKeys paths t t')
    (hroom : t.find paths.keys true = .ok (dir, .directory)) :
    Rekeyed paths dir id found t t'' where
  name := h.name
  can_hold := h.can_hold
  sound := h.sound
  room := h.room
  own := h.own
  others other hother := (h.others other hother).trans (hkeeps.keys dir hroom other)

theorem after (h : Rekeyed paths dir id found t t') (hkeeps : KeepsKeys paths t' t'') :
    Rekeyed paths dir id found t t'' where
  name := h.name
  can_hold := h.can_hold
  sound := hkeeps.sound h.sound
  room := hkeeps.room dir h.room
  own := (hkeeps.keys dir h.room id).trans h.own
  others other hother := (hkeeps.keys dir h.room other).trans (h.others other hother)

theorem trans (h : Rekeyed paths dir id found t t') (h' : Rekeyed paths dir id again t' t'') :
    Rekeyed paths dir id again t t'' where
  name := h'.name
  can_hold := h'.can_hold
  sound := h'.sound
  room := h'.room
  own := h'.own
  others other hother := (h'.others other hother).trans (h.others other hother)

end Rekeyed

namespace Keyring

variable {place : Location}

theorem place_ne {other : String} (hother : other ≠ id) :
    dir ++ [keyFileName other] ≠ dir ++ [keyFileName id] := by
  intro hsame
  exact hother (keyFileName_inj.1 (List.singleton_inj.1 (List.append_cancel_left hsame)))

theorem rekeyed_set (h : Keyring paths dir P t) (hid : Path.IsName id)
    (hcan : CanHold paths.keys (keyFileName id)) (key : ByteArray) :
    Rekeyed paths dir id (some key) t (t.set (dir ++ [keyFileName id]) (.file key keyMode)) where
  name := hid
  can_hold := hcan
  sound := by
    refine h.sound.set (h.isEnd id).ne_directory ?_ _
    rw [List.dropLast_concat]
    exact h.node?_dir
  room := (FileTree.sameWays_set (by simp) (h.isEnd id) key keyMode).find h.room
  own := by rw [FileTree.node?_set (by simp), if_pos rfl]; rfl
  others other hother := by rw [FileTree.node?_set (by simp), if_neg (place_ne hother)]

theorem rekeyed_cut (h : Keyring paths dir P t) (hid : Path.IsName id)
    (hcan : CanHold paths.keys (keyFileName id)) :
    Rekeyed paths dir id none t (t.cut (dir ++ [keyFileName id])) where
  name := hid
  can_hold := hcan
  sound := h.sound.cut (by simp)
  room := (FileTree.sameWays_cut h.sound.grounded (by simp) (h.isEnd id)).find h.room
  own := by
    rw [FileTree.node?_cut_of_isEnd h.sound.grounded (by simp) (h.isEnd id), if_pos rfl]
    rfl
  others other hother := by
    rw [FileTree.node?_cut_of_isEnd h.sound.grounded (by simp) (h.isEnd id),
      if_neg (place_ne hother)]

/-- There is room for a key file, so that nothing has to be made. -/
theorem perform_makeRoom (h : Keyring paths dir P m.files) (hid : Path.IsName id) :
    (makeRoom (paths.keyFile id)).perform m = (.ok (), m) := by
  obtain ⟨above, hparent, hne, hfind⟩ := FileTree.find_parent h.room (isName_keyFileName hid)
  have hroom : roomOf (paths.keyFile id) = above := by
    unfold roomOf
    rw [Paths.keyFile, hparent]
    exact if_neg hne
  have hscratch : m.files.scratch above = .ok () := by
    unfold FileTree.scratch
    rw [if_neg hne]
    dsimp only
    rw [hfind]
  unfold makeRoom
  rw [hroom, Action.perform_bind, Action.perform_makePath, FileTree.makePath_of_find hfind,
    Action.ok_mapError]
  dsimp only
  rw [Action.perform_consult, hscratch, Action.ok_mapError]

/-- A key is stored in its place, or nothing happens. -/
theorem writeKey_cases (h : Keyring paths dir P m.files) (hid : Path.IsName id) (key : ByteArray) :
    (∃ e, (writeKey (paths.keyFile id) key).perform m = (.error e, m)) ∨
    ∃ m', (writeKey (paths.keyFile id) key).perform m = (.ok (), m') ∧ m'.calls = m.calls ∧
      Rekeyed paths dir id (some key) m.files m'.files := by
  unfold writeKey
  rw [Action.perform_bind_of_ok _ (h.perform_makeRoom hid), Action.perform_alter]
  cases hreplace : m.files.replace (paths.keyFile id) key keyMode with
  | error cause => exact .inl ⟨_, rfl⟩
  | ok t =>
    obtain ⟨place, hl, -, rfl⟩ := FileTree.replace_eq_ok hreplace
    obtain ⟨hcan, rfl⟩ := (h.locate_iff hid).1 hl
    exact .inr ⟨_, rfl, Machine.calls_wrote m _ _, h.rekeyed_set hid hcan key⟩

/-- A key that the directory can hold is stored. -/
theorem writeKey_of_canHold (h : Keyring paths dir P m.files) (hid : Path.IsName id)
    (hcan : CanHold paths.keys (keyFileName id)) (key : ByteArray) :
    ∃ m', (writeKey (paths.keyFile id) key).perform m = (.ok (), m') ∧
      Rekeyed paths dir id (some key) m.files m'.files := by
  have hl : m.files.locate (paths.keyFile id) false = .ok (dir ++ [keyFileName id]) :=
    (h.locate_iff hid).2 ⟨hcan, rfl⟩
  have hnew : m.files.newPlace (dir ++ [keyFileName id]) = .ok (dir ++ [keyFileName id]) := by
    rw [FileTree.newPlace, List.dropLast_concat, h.node?_dir]
  have hreplace : m.files.replace (paths.keyFile id) key keyMode =
      .ok (m.files.set (dir ++ [keyFileName id]) (.file key keyMode)) := by
    rcases h.isEnd id with hnone | ⟨content, mode, hfile⟩
    · simp [FileTree.replace, hl, hnone, hnew, bind, Except.bind]
    · simp [FileTree.replace, hl, hfile, bind, Except.bind]
  rcases h.writeKey_cases hid key with ⟨e, hfails⟩ | ⟨m', hwrite, -, hrekeyed⟩
  · rw [writeKey, Action.perform_bind_of_ok _ (h.perform_makeRoom hid), Action.perform_alter,
      hreplace] at hfails
    cases hfails
  · exact ⟨m', hwrite, hrekeyed⟩

/-- A key file that is there is taken away. -/
theorem dropKey_cases (h : Keyring paths dir P m.files) (hid : Path.IsName id)
    (hread : m.files.read (paths.keyFile id) = .ok key) :
    ∃ m', (dropKey (paths.keyFile id)).perform m = (.ok (), m') ∧ m'.calls = m.calls ∧
      Rekeyed paths dir id none m.files m'.files := by
  obtain ⟨mode, hn⟩ := (h.read_eq_ok_iff hid).1 hread
  obtain ⟨-, hcan, -⟩ := h.keys id _ hn
  have hfind : m.files.find (paths.keyFile id) false =
      .ok (dir ++ [keyFileName id], .file key mode) :=
    FileTree.find_eq_ok.2 ⟨(h.locate_iff hid).2 ⟨hcan, rfl⟩, hn⟩
  have hunlink : m.files.unlink (paths.keyFile id) =
      .ok (m.files.cut (dir ++ [keyFileName id])) := by
    simp [FileTree.unlink, hfind, bind, Except.bind]
  obtain ⟨m', hdrop, hcalls, hfiles⟩ := perform_dropKey (paths.keyFile id) m
  refine ⟨m', hdrop, hcalls, ?_⟩
  rw [hfiles, hunlink]
  exact h.rekeyed_cut hid hcan

end Keyring

end Groundwork.Encryption
