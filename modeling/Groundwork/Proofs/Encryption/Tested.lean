import Groundwork.Proofs.Encryption.Unlock
import Groundwork.Proofs.Encryption.Order

/-! Which keys are tested by one request. A drive is formatted or opened with the key in its file; only
an import for a drive that is mapped already leaves its key untested, and an encryption that breaks off
behind the storing. -/
namespace Groundwork.Encryption

variable {env : Environment} {paths : Paths} {m m₁ m' : Machine} {t : FileTree} {dir : Location}
  {device id keyText : String} {key : ByteArray} {calls calls' : List Call}
  {P : String → ByteArray → Prop}

/-! ### Tests -/

/-- Whether a command uses the key file of a drive on that drive. -/
def Tries (paths : Paths) (id : String) (c : Command) : Prop :=
  ∃ device, paths.stableId device = .ok id ∧
    (c = ⟨"cryptsetup", ["luksFormat", "-q", device, paths.keyFile id]⟩ ∨
      c = ⟨"cryptsetup", ["open", "--type=luks", "-d", paths.keyFile id, device, "luks-" ++ id]⟩)

/-- Whether a drive was formatted or opened with a key while its key file held it. -/
def Proven (paths : Paths) (calls : List Call) (id : String) (key : ByteArray) : Prop :=
  ∃ call ∈ calls, Tries paths id call.command ∧ call.output.status = some 0 ∧
    call.files.read (paths.keyFile id) = .ok key

theorem Proven.mono (h : Proven paths calls id key) (hcalls : calls <+: calls') :
    Proven paths calls' id key := by
  obtain ⟨call, hmem, htest⟩ := h
  exact ⟨call, hcalls.subset hmem, htest⟩

theorem eq_of_tries_openCommand {other : String}
    (h : Tries paths id (openCommand paths device other)) : id = other := by
  obtain ⟨device', -, hformat | hopen⟩ := h
  · have harguments := congrArg (·.arguments.length) hformat
    cases harguments
  · exact (openCommand_inj hopen).symm

theorem proven_of_succeeds {a : Attempt} (h : a.succeeds env = true) (htries : Tries paths id a.command)
    (hread : a.machine.files.read (paths.keyFile id) = .ok key) :
    Proven paths (a.after env).calls id key := by
  unfold Attempt.succeeds at h
  rw [Attempt.calls_after, Attempt.call?]
  cases htool : env.tool a.machine a.command with
  | none =>
    rw [htool] at h
    cases h
  | some answer =>
    rw [htool] at h
    exact ⟨⟨a.command, a.machine.files, answer.1⟩, by simp, htries, eq_of_beq h, hread⟩

theorem proven_of_runChecked {c : Command} {o : Output}
    (h : (Action.runChecked env c).perform m = (.ok o, m')) (htries : Tries paths id c)
    (hread : m.files.read (paths.keyFile id) = .ok key) : Proven paths m'.calls id key := by
  rw [Action.perform_runChecked] at h
  obtain ⟨hchecked, rfl⟩ := Prod.mk.inj h
  exact proven_of_succeeds (Attempt.succeeds_of_checked hchecked) htries hread

/-- A drive that is unlocked was opened with its key, or it was mapped already and nothing happened. -/
theorem unlock_cases (htools : ToolsKeepKeys env paths) (hdrive : paths.stableId device = .ok id)
    (hread : m.files.read (paths.keyFile id) = .ok key) {r : Except Failure Unit}
    (h : (unlock env paths device id).perform m = (r, m')) :
    Keeps paths m m' ∧ (r = .ok () → Proven paths m'.calls id key ∨
      m' = m ∧ m.files.has (paths.mappedDevice id) = true) := by
  refine ⟨(within_unlock htools device id).of_eq h, ?_⟩
  rintro rfl
  unfold unlock at h
  rw [Action.perform_bind_of_ok _ (Action.perform_get m)] at h
  split at h
  · next hmapped =>
    cases h
    exact .inr ⟨rfl, hmapped⟩
  · rw [Action.perform_bind_of_ok _ (Action.perform_logInfo _ m), Action.perform_bind_eq_ok] at h
    obtain ⟨o, m₁, hopen, hdone⟩ := h
    cases hdone
    exact .inl (proven_of_runChecked hopen ⟨device, hdrive, .inr rfl⟩ hread)

/-- Whether no command of a stretch uses the key file of a drive on it. -/
def Untried (paths : Paths) (id : String) (m m' : Machine) : Prop :=
  ∃ new, m'.calls = m.calls ++ new ∧ ∀ call ∈ new, ¬ Tries paths id call.command

theorem untried_of_calls_eq (h : m'.calls = m.calls) : Untried paths id m m' :=
  ⟨[], by rw [h, List.append_nil], fun _ hcall => absurd hcall List.not_mem_nil⟩

theorem chains_untried (paths : Paths) (id : String) : Machine.Chains (Untried paths id) where
  refl m := untried_of_calls_eq rfl
  trans := by
    rintro m m₁ m' ⟨new, hcalls, hnew⟩ ⟨new', hcalls', hnew'⟩
    refine ⟨new ++ new', by rw [hcalls', hcalls, List.append_assoc], ?_⟩
    intro call hcall
    rcases List.mem_append.1 hcall with hcall | hcall
    · exact hnew call hcall
    · exact hnew' call hcall

/-- The opening of one drive tries the key of no other. -/
theorem untried_opening {other : String} (hother : other ≠ id) (device : String) (m : Machine) :
    Untried paths other m ((opening paths device id m).after env) := by
  refine ⟨((opening paths device id m).call? env).toList, ?_, ?_⟩
  · have hlogged : (opening paths device id m).machine.calls = m.calls := by
      simp [opening, Machine.calls]
    exact (Attempt.calls_after _).trans (by rw [hlogged])
  · intro call hcall htries
    obtain ⟨answer, -, rfl⟩ := Option.map_eq_some_iff.1 (Option.mem_toList.1 hcall)
    exact hother (eq_of_tries_openCommand htries)

/-! ### One request -/

/-- A fresh key is stored and the drive formatted with it, or the request failed before or behind that. -/
theorem formatAndUnlock_cases (htools : ToolsKeepKeys env paths)
    (hdrive : paths.stableId device = .ok id) (h : Keyring paths dir P m.files)
    {r : Except Failure KeyRecord}
    (hperform : (formatAndUnlock env paths device id).perform m = (r, m')) :
    ((∃ e, r = .error e) ∧ Keeps paths m m') ∨
    ∃ key, (∃ m₁, key = drawn env m₁) ∧ Rekeyed paths dir id (some key) m.files m'.files ∧
      m.calls <+: m'.calls ∧ ((∃ e, r = .error e) ∨
        ∃ record, r = .ok record ∧ record.deviceId = id ∧ Proven paths m'.calls id key) := by
  unfold formatAndUnlock at hperform
  rcases Action.perform_bind_cases hperform with ⟨e, hzap, rfl⟩ | ⟨_, m₁, hzap, hperform⟩
  · exact .inl ⟨⟨e, rfl⟩, (within_zap htools device).of_eq hzap⟩
  have hzapped : Keeps paths m m₁ := (within_zap htools device).of_eq hzap
  have hring := h.keeps hzapped.files
  rw [Action.perform_bind_of_ok _ (Action.perform_get m₁)] at hperform
  dsimp only at hperform
  obtain ⟨key, hkey⟩ : ∃ key, (⟨(env.freshKey m₁).toArray⟩ : ByteArray) = key := ⟨_, rfl⟩
  have hfresh : ∃ m₁, key = drawn env m₁ := ⟨m₁, hkey.symm⟩
  rw [hkey] at hperform
  rcases hring.writeKey_cases (isName_of_stableId hdrive) key with
    ⟨e, hwrite⟩ | ⟨m₂, hwrite, hcalls, hrekeyed⟩
  · rw [Action.perform_bind_of_error _ hwrite] at hperform
    cases hperform
    exact .inl ⟨⟨e, rfl⟩, hzapped⟩
  -- From here on the key is stored, whatever comes of the drive.
  rw [Action.perform_bind_of_ok _ hwrite,
    Action.perform_bind_of_ok _ (Action.perform_logInfo _ m₂)] at hperform
  generalize hlogged : m₂.record _ = m₃ at hperform
  have hkeeps : Keeps paths m₂ m₃ := hlogged ▸ keeps_logged paths m₂ _ _
  have hstored : Rekeyed paths dir id (some key) m.files m₃.files :=
    (hrekeyed.before hzapped.files h.room).after hkeeps.files
  have hgrown : m.calls <+: m₃.calls := (hcalls ▸ hzapped.calls).trans hkeeps.calls
  have hformatted {r : Except Failure Output} {m' : Machine}
      (hformat : (Action.runChecked env (formatCommand device (paths.keyFile id))).perform m₃ =
        (r, m')) : Keeps paths m₃ m' := (within_runChecked htools _).of_eq hformat
  rcases Action.perform_bind_cases hperform with ⟨e, hformat, rfl⟩ | ⟨_, m₄, hformat, hperform⟩
  · have hleft := hformatted hformat
    exact .inr ⟨key, hfresh, hstored.after hleft.files, hgrown.trans hleft.calls, .inl ⟨e, rfl⟩⟩
  have hproven : Proven paths m₄.calls id key :=
    proven_of_runChecked hformat ⟨device, hdrive, .inl rfl⟩ (hstored.read h)
  have hopened {r : Except Failure Unit} {m' : Machine}
      (hunlock : (unlock env paths device id).perform m₄ = (r, m')) :
      Keeps paths m₃ m' ∧ Proven paths m'.calls id key := by
    have hunlocked : Keeps paths m₄ m' := (within_unlock htools device id).of_eq hunlock
    exact ⟨(chains_keeps paths).trans (hformatted hformat) hunlocked,
      hproven.mono hunlocked.calls⟩
  rcases Action.perform_bind_cases hperform with ⟨e, hunlock, rfl⟩ | ⟨_, m₅, hunlock, hperform⟩
  · obtain ⟨hleft, -⟩ := hopened hunlock
    exact .inr ⟨key, hfresh, hstored.after hleft.files, hgrown.trans hleft.calls, .inl ⟨e, rfl⟩⟩
  · obtain ⟨hleft, hproven⟩ := hopened hunlock
    cases hperform
    exact .inr ⟨key, hfresh, hstored.after hleft.files, hgrown.trans hleft.calls,
      .inr ⟨_, rfl, rfl, hproven⟩⟩

theorem encrypt_cases (htools : ToolsKeepKeys env paths) (h : Keyring paths dir P m.files)
    {r : Except Failure KeyRecord} (hperform : (encrypt env paths device).perform m = (r, m')) :
    ((∃ e, r = .error e) ∧ Keeps paths m m') ∨
    ∃ id key, paths.stableId device = .ok id ∧ (∃ m₁, key = drawn env m₁) ∧
      Rekeyed paths dir id (some key) m.files m'.files ∧ m.calls <+: m'.calls ∧ ((∃ e, r = .error e) ∨
        ∃ record, r = .ok record ∧ record.deviceId = id ∧ Proven paths m'.calls id key) := by
  unfold encrypt at hperform
  rcases Action.perform_bind_cases hperform with ⟨e, hrefused, rfl⟩ | ⟨id, m₁, hasked, hperform⟩
  · cases (Prod.mk.inj hrefused).2
    exact .inl ⟨⟨e, rfl⟩, (chains_keeps paths).refl m⟩
  obtain ⟨hdrive, rfl⟩ := Prod.mk.inj hasked
  rw [Action.perform_bind_of_ok _ (Action.perform_logInfo _ m)] at hperform
  generalize hlogged : m.record _ = m₁ at hperform
  have hfirst : Keeps paths m m₁ := hlogged ▸ keeps_logged paths m _ _
  rcases Action.perform_bind_cases hperform with ⟨e, hwipe, rfl⟩ | ⟨_, m₂, hwipe, hperform⟩
  · exact .inl ⟨⟨e, rfl⟩,
      (chains_keeps paths).trans hfirst ((within_runChecked htools _).of_eq hwipe)⟩
  have hwiped : Keeps paths m m₂ :=
    (chains_keeps paths).trans hfirst ((within_runChecked htools _).of_eq hwipe)
  rw [Action.perform_marking] at hperform
  cases hformat : (formatAndUnlock env paths device id).perform m₂ with
  | mk r₂ m₃ =>
    rw [hformat] at hperform
    cases hperform
    rcases formatAndUnlock_cases htools hdrive (h.keeps hwiped.files) hformat with
      ⟨⟨e, rfl⟩, hkeeps⟩ | ⟨key, hfresh, hrekeyed, hcalls, hend⟩
    · exact .inl ⟨⟨_, rfl⟩, (chains_keeps paths).trans hwiped hkeeps⟩
    · refine .inr ⟨id, key, hdrive, hfresh, hrekeyed.before hwiped.files h.room,
        hwiped.calls.trans hcalls, ?_⟩
      rcases hend with ⟨e, rfl⟩ | ⟨record, rfl, hrecord⟩
      · exact .inl ⟨_, rfl⟩
      · exact .inr ⟨record, rfl, hrecord⟩

/-- A key that is brought is kept if the drive opens with it or is mapped already; otherwise it is
taken away. -/
theorem importDrive_cases (htools : ToolsKeepKeys env paths) (h : Keyring paths dir P m.files)
    {r : Except Failure Unit}
    (hperform : (importDrive env paths device keyText).perform m = (r, m')) :
    ((∃ e, r = .error e) ∧ Keeps paths m m') ∨
    ∃ id, paths.stableId device = .ok id ∧ m.calls <+: m'.calls ∧
      ((∃ e, r = .error e) ∧ Rekeyed paths dir id none m.files m'.files ∨
      ∃ key, r = .ok () ∧ decodeKey keyText = .ok key ∧
        Rekeyed paths dir id (some key) m.files m'.files ∧
        (Proven paths m'.calls id key ∨
          m'.calls = m.calls ∧ m'.files.has (paths.mappedDevice id) = true)) := by
  have hstill : Keeps paths m m := (chains_keeps paths).refl m
  rw [importDrive_eq] at hperform
  rcases Action.perform_bind_cases hperform with ⟨e, hrefused, rfl⟩ | ⟨id, m₁, hasked, hperform⟩
  · cases (Prod.mk.inj hrefused).2
    exact .inl ⟨⟨e, rfl⟩, hstill⟩
  obtain ⟨hdrive, rfl⟩ := Prod.mk.inj hasked
  rcases Action.perform_bind_cases hperform with ⟨e, hrefused, rfl⟩ | ⟨key, m₁, hdecoded, hperform⟩
  · cases (Prod.mk.inj hrefused).2
    exact .inl ⟨⟨e, rfl⟩, hstill⟩
  obtain ⟨hkey, rfl⟩ := Prod.mk.inj hdecoded
  have hid := isName_of_stableId hdrive
  rcases h.writeKey_cases hid key with ⟨e, hwrite⟩ | ⟨m₁, hwrite, hcalls, hrekeyed⟩
  · rw [Action.perform_bind_of_error _ hwrite] at hperform
    cases hperform
    exact .inl ⟨⟨e, rfl⟩, hstill⟩
  rw [Action.perform_bind_of_ok _ hwrite, trial,
    Action.perform_bind_of_ok _ (Action.perform_attempt _ m₁)] at hperform
  refine .inr ⟨id, hdrive, ?_⟩
  cases hunlock : (unlock env paths device id).perform m₁ with
  | mk r₁ m₂ =>
    obtain ⟨hunlocked, htested⟩ := unlock_cases htools hdrive (hrekeyed.read h) hunlock
    have hgrown : m.calls <+: m₂.calls := hcalls ▸ hunlocked.calls
    have hstored := hrekeyed.after hunlocked.files
    rw [hunlock] at hperform
    cases r₁ with
    | ok _ =>
      cases hperform
      refine ⟨hgrown, .inr ⟨key, rfl, hkey, hstored, ?_⟩⟩
      rcases htested rfl with hproven | ⟨rfl, hmapped⟩
      · exact .inl hproven
      · exact .inr ⟨hcalls, hmapped⟩
    | error e =>
      obtain ⟨m₃, hdrop, hcalls₃, hdropped⟩ :=
        (hstored.inOrder h).dropKey_cases hid (hstored.read h)
      simp only [Action.perform_bind_of_ok _ hdrop, Action.perform_throw] at hperform
      cases hperform
      exact ⟨hcalls₃ ▸ hgrown, .inl ⟨⟨e, rfl⟩, hstored.trans hdropped⟩⟩

/-! ### All drives -/

/-- What unlocking some drives does: the keys stay, only these drives are tried, and each of them that
is unlocked afterwards was opened with its key or not tried. -/
structure Unlocks (paths : Paths) (ids unlocked : List String) (m m' : Machine) : Prop where
  keeps : Keeps paths m m'
  among : unlocked ⊆ ids
  others : ∀ other, other ∉ ids → Untried paths other m m'
  tested : ∀ id ∈ unlocked, Path.IsName id ∧ ∃ key,
    m'.files.read (paths.keyFile id) = .ok key ∧
      (Proven paths m'.calls id key ∨ Untried paths id m m')

/-- Some drives are unlocked and then other ones. -/
theorem Unlocks.append {ids ids' unlocked unlocked' : List String}
    (h : Unlocks paths ids unlocked m m₁) (h' : Unlocks paths ids' unlocked' m₁ m')
    (hring : Keyring paths dir P m.files) (hdisjoint : ∀ id ∈ ids, id ∉ ids') :
    Unlocks paths (ids ++ ids') (unlocked ++ unlocked') m m' where
  keeps := (chains_keeps paths).trans h.keeps h'.keeps
  among := by
    intro id hid
    rcases List.mem_append.1 hid with hid | hid
    · exact List.mem_append_left _ (h.among hid)
    · exact List.mem_append_right _ (h'.among hid)
  others := by
    intro other hother
    rw [List.mem_append, not_or] at hother
    exact (chains_untried paths other).trans (h.others other hother.1) (h'.others other hother.2)
  tested := by
    intro id hid
    rcases (List.mem_append.1 hid).symm with hid | hid
    · obtain ⟨hname, key, hread, hfate⟩ := h'.tested id hid
      have hfirst := h.others id fun hmem => hdisjoint id hmem (h'.among hid)
      exact ⟨hname, key, hread, hfate.imp_right ((chains_untried paths id).trans hfirst)⟩
    · obtain ⟨hname, key, hread, hfate⟩ := h.tested id hid
      have hread' := ((hring.keeps h.keeps.files).read_keeps hname h'.keeps.files).2 hread
      refine ⟨hname, key, hread', ?_⟩
      rcases hfate with hproven | huntried
      · exact .inl (hproven.mono h'.keeps.calls)
      · have hlater := h'.others id (hdisjoint id (h.among hid))
        exact .inr ((chains_untried paths id).trans huntried hlater)

theorem Visit.unlocks {found : Bool} {front : List Attempt}
    (h : Visit env paths id m found front m') (htools : ToolsKeepKeys env paths)
    (hring : Keyring paths dir P m.files) (hid : Path.IsName id)
    (hread : m.files.read (paths.keyFile id) = .ok key) :
    Unlocks paths [id] (cond found [id] []) m m' := by
  have hlogged (level : Level) (text : String) (m : Machine) (other : String) :
      Untried paths other m (m.record (.logged level text)) :=
    untried_of_calls_eq (by simp [Machine.calls])
  have hkeeps : Keeps paths m ((opening paths (drivePath paths id) id m).after env) :=
    (chains_keeps paths).trans (keeps_logged paths m _ _)
      (keeps_after htools (opening paths (drivePath paths id) id m))
  have huntried (other : String) (hother : other ∉ [id]) :
      Untried paths other m ((opening paths (drivePath paths id) id m).after env) :=
    untried_opening (mt List.mem_singleton.2 hother) _ m
  cases h with
  | absent =>
    exact ⟨keeps_logged paths m _ _, List.nil_subset _, fun other _ => hlogged _ _ m other,
      fun _ hmem => absurd hmem List.not_mem_nil⟩
  | mapped =>
    refine ⟨(chains_keeps paths).refl m, List.Subset.refl _,
      fun other _ => (chains_untried paths other).refl m, ?_⟩
    intro other hother
    obtain rfl := List.mem_singleton.1 hother
    exact ⟨hid, key, hread, .inr ((chains_untried paths other).refl m)⟩
  | opened hpresent hunmapped hopen =>
    refine ⟨hkeeps, List.Subset.refl _, huntried, ?_⟩
    intro other hother
    obtain rfl := List.mem_singleton.1 hother
    exact ⟨hid, key, (hring.read_keeps hid hkeeps.files).2 hread,
      .inl (proven_of_succeeds hopen ⟨_, stableId_join hid, .inr rfl⟩ hread)⟩
  | refused =>
    refine ⟨(chains_keeps paths).trans hkeeps (keeps_logged paths _ _ _), List.nil_subset _, ?_,
      fun _ hmem => absurd hmem List.not_mem_nil⟩
    intro other hother
    exact (chains_untried paths other).trans (huntried other hother) (hlogged _ _ _ other)

/-- The drives with a key are each listed once. -/
theorem Keyring.keyIds_eq_ok (h : Keyring paths dir P t) : ∃ ids, keyIds paths t = .ok ids ∧
    ids.Nodup ∧ ∀ id ∈ ids, Path.IsName id ∧ ∃ key, t.read (paths.keyFile id) = .ok key := by
  have hlist : t.list paths.keys = .ok ((t.below dir).mergeSort (· ≤ ·)) :=
    FileTree.list_eq_ok.2 ⟨dir, h.room, rfl⟩
  obtain ⟨ids, hids, hascending, hmem⟩ := keyIds_of_list h.sound hlist
  refine ⟨ids, hids, hascending.nodup, ?_⟩
  intro id hid
  obtain ⟨hname, -⟩ := (hmem id).1 hid
  obtain ⟨n, hn⟩ := FileTree.exists_node?_of_mem_below (List.mem_mergeSort.1 hname)
  obtain ⟨hisName, -, key, mode, rfl, -⟩ := h.keys id n hn
  exact ⟨hisName, key, (h.read_eq_ok_iff hisName).2 ⟨mode, hn⟩⟩

-- A drive that comes twice could be reported untested by its first visit and be tried, in vain, by its
-- second one.
theorem Round.unlocks {ids unlocked : List String} {as : List Attempt}
    (h : Round env paths m ids unlocked as m') (htools : ToolsKeepKeys env paths) (hids : ids.Nodup)
    (hring : Keyring paths dir P m.files)
    (hkeys : ∀ id ∈ ids, Path.IsName id ∧ ∃ key, m.files.read (paths.keyFile id) = .ok key) :
    Unlocks paths ids unlocked m m' := by
  induction h with
  | done m =>
    exact ⟨(chains_keeps paths).refl m, List.Subset.refl _,
      fun other _ => (chains_untried paths other).refl m, nofun⟩
  | @visit id ids unlocked found front as m m₁ m' first rest ih =>
    obtain ⟨hnew, hids⟩ := List.nodup_cons.1 hids
    obtain ⟨hid, key, hread⟩ := hkeys id List.mem_cons_self
    have hunlocks := first.unlocks htools hring hid hread
    have hkeys₁ : ∀ id ∈ ids, Path.IsName id ∧ ∃ key,
        m₁.files.read (paths.keyFile id) = .ok key := by
      intro other hother
      obtain ⟨hname, key, hread⟩ := hkeys other (.tail _ hother)
      exact ⟨hname, key, (hring.read_keeps hname hunlocks.keeps.files).2 hread⟩
    have hdisjoint : ∀ other ∈ [id], other ∉ ids := by
      intro other hother
      rwa [List.mem_singleton.1 hother]
    have hboth := hunlocks.append (ih hids (hring.keeps hunlocks.keeps.files) hkeys₁) hring hdisjoint
    cases found <;> exact hboth

theorem decryptDrives_cases (htools : ToolsKeepKeys env paths) (h : Keyring paths dir P m.files) :
    ∃ ids unlocked m', (decryptDrives env paths).perform m = (.ok unlocked, m') ∧
      Unlocks paths ids unlocked m m' := by
  obtain ⟨ids, hids, hnodup, hkeys⟩ := h.keyIds_eq_ok
  obtain ⟨unlocked, as, m', hrun, hround⟩ := round_decryptDrives env hids
  exact ⟨ids, unlocked, m', hrun, hround.unlocks htools hnodup h hkeys⟩

end Groundwork.Encryption
