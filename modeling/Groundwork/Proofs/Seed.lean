import Groundwork.Reset
import Groundwork.Proofs.Archive.RoundTrip
import Groundwork.Proofs.Action
import Groundwork.Proofs.Dict
import Groundwork.Proofs.FileTree

/-! Bundles of seeds. A request that is in order changes the files of its own seeds alone, and a
bundle that is written is read back as it was if and only if the archive keeps all of its names. -/
namespace Groundwork

variable {b base after : Bundle} {request : ResetRequest} {seed seed' file extension : String}
  {payload archive found : ByteArray}

namespace Seed

theorem stem_fileName (he : '.' ∉ extension.toList) :
    (fileName seed extension).toList.reverse.dropWhile (· ≠ '.') = '.' :: seed.toList.reverse := by
  have hsplit : (fileName seed extension).toList.reverse =
      extension.toList.reverse ++ '.' :: seed.toList.reverse := by
    simp [fileName]
  rw [hsplit, List.dropWhile_append_of_pos]
  · simp
  · intro c hc
    have hne : c ≠ '.' := fun h => he (h ▸ List.mem_reverse.1 hc)
    simpa using hne

theorem fileName_inj {e e' : String} (he : '.' ∉ e.toList) (he' : '.' ∉ e'.toList)
    (h : fileName seed e = fileName seed' e') : seed = seed' := by
  have hstem := @stem_fileName seed e he
  rw [h, stem_fileName he'] at hstem
  exact String.toList_inj.1 (List.reverse_inj.1 (List.cons.inj hstem).2.symm)

theorem not_mem_extension (h : extension ∈ extensions) : '.' ∉ extension.toList := by
  revert extension
  decide

/-- The file name of a seed that may be written is kept by an archive that takes it. -/
theorem storedName_fileName (hvalid : validateName seed = .ok ())
    (hok : (Archive.storedName (fileName seed extension)).isOk) (he : '/' ∉ extension.toList) :
    Archive.storedName (fileName seed extension) = .ok (fileName seed extension) := by
  have hseed : seed ≠ "" ∧ ∀ c ∈ seed.toList, c ≠ '/' ∧ c ≠ '.' := by
    unfold validateName at hvalid
    split at hvalid
    · cases hvalid
    · next hproper => simpa using hproper
  obtain ⟨hempty, hchars⟩ := hseed
  have hname : (fileName seed extension).toList = seed.toList ++ '.' :: extension.toList := by
    simp [fileName]
  obtain ⟨c, cs, hcs⟩ := List.exists_cons_of_ne_nil (fun h => hempty (String.toList_inj.1 h))
  have hc := hchars c (hcs ▸ List.mem_cons_self)
  have hdots {s : String} (hs : s.toList.head? = some '.') : fileName seed extension ≠ s := by
    rintro rfl
    rw [hname, hcs] at hs
    exact hc.2 (Option.some.inj hs)
  have hnone : fileName seed extension ≠ "" := by
    intro hnone
    rw [hnone] at hname
    simp at hname
  have hslash : '/' ∉ (fileName seed extension).toList := by
    rw [hname]
    intro hmem
    rcases List.mem_append.1 hmem with hmem | hmem
    · exact (hchars _ hmem).1 rfl
    · rcases List.mem_cons.1 hmem with hmem | hmem
      · cases hmem
      · exact he hmem
  have hplain : Path.IsName (fileName seed extension) := ⟨hnone, hdots rfl, hdots rfl, hslash⟩
  exact Archive.storedName_of_isNormal hplain.isNormal hok

/-- An empty object will do for any seed. -/
theorem validatePayload_object (seed : String) : validatePayload seed "{}".toUTF8 = .ok () := by
  have hobject : (Json.Value.parse "{}".toUTF8.toList).toOption.any Json.Value.isObject = true := by
    decide +kernel
  unfold validatePayload
  cases hparse : Json.Value.parse "{}".toUTF8.toList with
  | error e =>
    rw [hparse] at hobject
    cases hobject
  | ok v =>
    rw [hparse] at hobject
    exact if_pos hobject

end Seed

namespace Bundle

theorem get?_foldl_erase (files : Dict ByteArray) (names : List String) (file : String) :
    (names.foldl (fun files n => files.erase n) files).get? file =
      if file ∈ names then none else files.get? file := by
  induction names generalizing files with
  | nil => simp
  | cons n names ih =>
    rw [List.foldl_cons, ih, Dict.get?_erase]
    by_cases hn : file = n <;> simp [hn]

/-- The names under which a seed may be stored. -/
def variants (seed : String) : List String :=
  ["json", "yaml", "yml"].map fun extension => seed ++ "." ++ extension

theorem variants_eq (seed : String) : variants seed = Seed.extensions.map (Seed.fileName seed) := rfl

theorem fileName_mem_variants (seed : String) : Seed.fileName seed "json" ∈ variants seed :=
  List.mem_cons_self

theorem get?_remove (b : Bundle) (seed file : String) :
    (b.remove seed).files.get? file = if file ∈ variants seed then none else b.files.get? file := by
  rw [remove, ← get?_foldl_erase, variants_eq, List.foldl_map]

theorem get?_insert (b : Bundle) (seed : String) (payload : ByteArray) (file : String) :
    (b.insert seed payload).files.get? file =
      if file = Seed.fileName seed "json" then some payload
      else if file ∈ variants seed then none else b.files.get? file := by
  rw [insert, Dict.get?_insert, get?_remove]

theorem ext_files (h : ∀ file, b.files.get? file = after.files.get? file) : b = after := by
  cases b
  cases after
  exact congrArg mk (Dict.ext_get? h)

theorem mem_keys_remove :
    file ∈ (b.remove seed).files.keys ↔ file ∈ b.files.keys ∧ file ∉ variants seed := by
  rw [Dict.mem_keys, Dict.mem_keys, get?_remove]
  by_cases hfile : file ∈ variants seed
  · simp [hfile]
  · simp [hfile]

theorem contains_eq_false_iff :
    b.contains seed = false ↔ ∀ name ∈ variants seed, name ∉ b.files.keys := by
  rw [contains, Option.isSome_eq_false_iff, Option.isNone_iff_eq_none, get?,
    List.findSome?_eq_none_iff, variants_eq, List.forall_mem_map]
  simp only [Option.map_eq_none_iff, Dict.get?_eq_none]

/-- A seed that is not there cannot be taken away. -/
theorem remove_of_not_contains (h : b.contains seed = false) : b.remove seed = b := by
  apply ext_files
  intro file
  rw [get?_remove]
  split
  · next hfile => exact (Dict.get?_eq_none.2 (contains_eq_false_iff.1 h file hfile)).symm
  · rfl

theorem eq_of_mem_variants (h : file ∈ variants seed) (h' : file ∈ variants seed') :
    seed = seed' := by
  obtain ⟨e, he, rfl⟩ := List.mem_map.1 h
  obtain ⟨e', he', hname⟩ := List.mem_map.1 h'
  exact (Seed.fileName_inj (Seed.not_mem_extension he') (Seed.not_mem_extension he) hname).symm

variable {entries : List (String × ByteArray)}

theorem get?_foldl_insert_of_not_mem (h : ∀ e ∈ entries, file ∉ variants e.1) :
    (entries.foldl (fun b (seed, payload) => b.insert seed payload) b).files.get? file =
      b.files.get? file := by
  induction entries generalizing b with
  | nil => rfl
  | cons e entries ih =>
    have he := h e List.mem_cons_self
    have hjson : file ≠ Seed.fileName e.1 "json" := by
      rintro rfl
      exact he (fileName_mem_variants e.1)
    rw [List.foldl_cons, ih fun e he => h e (.tail _ he), get?_insert, if_neg hjson, if_neg he]

/-- Induction on the entries: those behind an entry are about other seeds. -/
theorem get?_foldl_insert_of_mem (hnodup : (entries.map (·.1)).Nodup)
    (he : (seed, payload) ∈ entries) (hfile : file ∈ variants seed) :
    (entries.foldl (fun b (seed, payload) => b.insert seed payload) b).files.get? file =
      if file = Seed.fileName seed "json" then some payload else none := by
  induction entries generalizing b with
  | nil => cases he
  | cons d entries ih =>
    rw [List.map_cons, List.nodup_cons] at hnodup
    rw [List.foldl_cons]
    rcases List.mem_cons.1 he with rfl | he
    · have hothers : ∀ e ∈ entries, file ∉ variants e.1 := by
        intro e he hmem
        exact hnodup.1 (List.mem_map.2 ⟨e, he, eq_of_mem_variants hmem hfile⟩)
      rw [get?_foldl_insert_of_not_mem hothers, get?_insert, if_pos hfile]
    · exact ih hnodup.2 he

end Bundle

/-- What a request makes of a bundle: each of its seeds has one file, which holds its payload, and
the files of other seeds are as they were. -/
structure ResetRequest.Replaces (request : ResetRequest) (base after : Bundle) : Prop where
  payload : ∀ seed payload, request.seeds.get? seed = some payload →
    after.files.get? (Seed.fileName seed "json") = some payload
  variants : ∀ seed ∈ request.seeds.keys, ∀ file ∈ Bundle.variants seed,
    file ≠ Seed.fileName seed "json" → after.files.get? file = none
  others : ∀ file, (∀ seed ∈ request.seeds.keys, file ∉ Bundle.variants seed) →
    after.files.get? file = base.files.get? file

namespace ResetRequest

theorem replaces_mergeInto (request : ResetRequest) (base : Bundle) :
    request.Replaces base (request.mergeInto base) where
  payload := by
    intro seed payload hseed
    rw [mergeInto, Bundle.get?_foldl_insert_of_mem request.seeds.nodup_keys
      (Dict.get?_eq_some.1 hseed) (Bundle.fileName_mem_variants seed), if_pos rfl]
  variants := by
    intro seed hseed file hfile hjson
    obtain ⟨payload, hpayload⟩ := Dict.mem_keys.1 hseed
    rw [mergeInto, Bundle.get?_foldl_insert_of_mem request.seeds.nodup_keys
      (Dict.get?_eq_some.1 hpayload) hfile, if_neg hjson]
  others := by
    intro file hfile
    refine Bundle.get?_foldl_insert_of_not_mem ?_
    intro e he
    exact hfile e.1 (List.mem_map.2 ⟨e, he, rfl⟩)

/-- A request leaves no choice. -/
theorem Replaces.unique (h : request.Replaces base b) (h' : request.Replaces base after) :
    b = after := by
  apply Bundle.ext_files
  intro file
  by_cases hfile : ∃ seed ∈ request.seeds.keys, file ∈ Bundle.variants seed
  · obtain ⟨seed, hseed, hmem⟩ := hfile
    by_cases hjson : file = Seed.fileName seed "json"
    · obtain ⟨payload, hpayload⟩ := Dict.mem_keys.1 hseed
      rw [hjson, h.payload seed payload hpayload, h'.payload seed payload hpayload]
    · rw [h.variants seed hseed file hmem hjson, h'.variants seed hseed file hmem hjson]
  · have hothers : ∀ seed ∈ request.seeds.keys, file ∉ Bundle.variants seed :=
      fun seed hseed hmem => hfile ⟨seed, hseed, hmem⟩
    rw [h.others file hothers, h'.others file hothers]

theorem replaces_iff : request.Replaces base after ↔ after = request.mergeInto base := by
  constructor
  · intro h
    exact h.unique (request.replaces_mergeInto base)
  · rintro rfl
    exact request.replaces_mergeInto base

end ResetRequest

/-! ### Written and read again -/

namespace Bundle

variable {files : List (String × ByteArray)} {ms : List Archive.Member}

theorem toArchive_eq_none_iff :
    b.toArchive.2 = none ↔ ∀ file ∈ b.files.keys, (Archive.storedName file).isOk := by
  rw [toArchive, Archive.write_eq_none_iff, Dict.keys, List.forall_mem_map]

/-- What is left of a bundle that can be archived can be archived. -/
theorem whole_remove (h : b.toArchive.2 = none) (seed : String) :
    (b.remove seed).toArchive.2 = none := by
  rw [toArchive_eq_none_iff] at h ⊢
  intro file hfile
  exact h file (mem_keys_remove.1 hfile).1

theorem mapM_stored_cons {file : String × ByteArray} :
    (file :: files).mapM Archive.stored = .ok ms ↔ ∃ name more,
      Archive.storedName file.1 = .ok name ∧ files.mapM Archive.stored = .ok more ∧
        ms = ⟨name, file.2⟩ :: more := by
  rw [List.mapM_cons, Archive.stored]
  cases Archive.storedName file.1 with
  | error e => simp [Except.map, bind, Except.bind]
  | ok name =>
    cases files.mapM Archive.stored with
    | error e => simp [Except.map, bind, Except.bind]
    | ok more => simp [Except.map, bind, Except.bind, pure, Except.pure, eq_comm]

/-- The names in an archive are the stored names of the files. -/
theorem mem_keys_ofMembers (h : files.mapM Archive.stored = .ok ms) {name : String} :
    name ∈ (ofMembers ms).files.keys ↔ ∃ file ∈ files, Archive.storedName file.1 = .ok name := by
  rw [ofMembers, Dict.mem_keys_ofList]
  induction files generalizing ms with
  | nil =>
    cases h
    simp
  | cons file files ih =>
    obtain ⟨stored, more, hstored, hmore, rfl⟩ := mapM_stored_cons.1 h
    have hname : name = stored ↔ Archive.storedName file.1 = .ok name := by
      rw [hstored, Except.ok.injEq, eq_comm]
    simp only [List.map_cons, List.mem_cons, hname, ih hmore, exists_eq_or_imp]

theorem mapM_stored_of_kept (h : ∀ file ∈ files, Archive.storedName file.1 = .ok file.1) :
    files.mapM Archive.stored = .ok (files.map fun file => ⟨file.1, file.2⟩) := by
  apply Action.mapM_eq_ok
  intro file hfile
  rw [Archive.stored, h file hfile]
  rfl

/-- An archive is read as the bundle of its members, whatever tool has written it and whatever
stands behind its first block of zeros. -/
theorem ofBytes_joinedBytes {parts : List (ByteArray × Archive.Member)} {tail : List UInt8}
    (hparts : ∀ part ∈ parts, Archive.Encodes part.1 part.2)
    (harchive : archive.toList = Archive.joinedBytes parts ++ tail)
    (htail : List.replicate Archive.blockSize 0 <+: tail)
    (hbound : (Archive.joinedBytes parts).length < 2 ^ 64) :
    Bundle.ofBytes archive = .ok (Bundle.ofMembers (parts.map (·.2))) := by
  rw [Bundle.ofBytes, Archive.hasMagic_joinedBytes hparts harchive htail]
  cases parts with
  | nil => rfl
  | cons part parts =>
    rw [Archive.members_joinedBytes hparts harchive htail hbound]
    rfl

theorem ofBytes_rawArchive (hfits : ∀ file ∈ files, Archive.Fits file.1)
    (hsize : Archive.archiveSize files < 2 ^ 64) :
    Bundle.ofBytes (Archive.rawArchive files) = .ok ⟨Dict.ofList files⟩ := by
  have hbytes := Archive.toList_rawArchive files
  have hbound := Archive.length_joinedBytes_le hbytes
  rw [Archive.size_rawArchive hfits] at hbound
  rw [ofBytes_joinedBytes (Archive.encodes_of_mem_rawParts hfits) hbytes Archive.zeros_prefix_ending
    (Nat.lt_of_le_of_lt hbound hsize), ofMembers, Archive.rawParts, List.map_map, List.map_map]
  exact congrArg (fun files => Except.ok (mk (Dict.ofList files))) (List.map_id files)

/-- An archive that was written in full is read back, each file under its stored name, also if other
bytes follow it. -/
theorem ofBytes_toArchive (h : b.toArchive = (archive, none)) (hsize : archive.size < 2 ^ 64)
    (hfound : archive.toList <+: found.toList) :
    ∃ ms, b.files.entries.mapM Archive.stored = .ok ms ∧
      Bundle.ofBytes found = .ok (Bundle.ofMembers ms) := by
  obtain ⟨parts, hparts, hstored, harchive⟩ := Archive.write_eq_ok h
  obtain ⟨stale, hstale⟩ := hfound
  rw [harchive, List.append_assoc] at hstale
  have hbound := Nat.lt_of_le_of_lt (Archive.length_joinedBytes_le harchive) hsize
  exact ⟨_, hstored, ofBytes_joinedBytes hparts hstale.symm
    (Archive.zeros_prefix_ending.trans (List.prefix_append _ _)) hbound⟩

/-- A bundle of which every name is kept is read back as it was written. -/
theorem ofBytes_of_kept (h : b.toArchive = (archive, none)) (hsize : archive.size < 2 ^ 64)
    (hfound : archive.toList <+: found.toList)
    (hkept : ∀ file ∈ b.files.keys, Archive.storedName file = .ok file) :
    Bundle.ofBytes found = .ok b := by
  obtain ⟨ms, hms, hread⟩ := ofBytes_toArchive h hsize hfound
  have hall := mapM_stored_of_kept fun file hfile =>
    hkept file.1 (List.mem_map.2 ⟨file, hfile, rfl⟩)
  rw [hall] at hms
  cases hms
  rw [hread]
  refine congrArg Except.ok (congrArg Bundle.mk ?_)
  rw [List.map_map]
  exact (congrArg Dict.ofList (List.map_id _)).trans (Dict.ofList_entries _)

theorem exists_bound (names : List String) : ∃ bound, ∀ n ∈ names, n.length ≤ bound := by
  induction names with
  | nil => exact ⟨0, by simp⟩
  | cons n names ih =>
    obtain ⟨bound, hbound⟩ := ih
    refine ⟨max n.length bound, ?_⟩
    intro k hk
    rcases List.mem_cons.1 hk with rfl | hk
    · exact Nat.le_max_left _ _
    · exact Nat.le_trans (hbound k hk) (Nat.le_max_right _ _)

/-- A bundle is read back as it was written if and only if every name is kept. A name that is not
kept becomes a shorter one, so it could come back only from a longer one that is not kept either. -/
theorem ofBytes_toArchive_eq_self_iff (h : b.toArchive = (archive, none))
    (hsize : archive.size < 2 ^ 64) : Bundle.ofBytes archive = .ok b ↔
      ∀ file ∈ b.files.keys, Archive.storedName file = .ok file := by
  obtain ⟨ms, hms, hread⟩ := ofBytes_toArchive h hsize List.prefix_rfl
  constructor
  · intro hsame file hfile
    rw [hread] at hsame
    have hb : Bundle.ofMembers ms = b := Except.ok.inj hsame
    have hback : ∀ file ∈ b.files.keys, ∃ origin ∈ b.files.keys,
        Archive.storedName origin = .ok file := by
      intro file hfile
      rw [← hb] at hfile
      obtain ⟨origin, ho, hname⟩ := (mem_keys_ofMembers hms).1 hfile
      exact ⟨origin.1, List.mem_map.2 ⟨origin, ho, rfl⟩, hname⟩
    apply Classical.byContradiction
    intro hlost
    have hlonger : ∀ n, ∃ file ∈ b.files.keys, Archive.storedName file ≠ .ok file ∧
        n ≤ file.length := by
      intro n
      induction n with
      | zero => exact ⟨file, hfile, hlost, Nat.zero_le _⟩
      | succ n ih =>
        obtain ⟨short, hshort, hlost, hn⟩ := ih
        obtain ⟨origin, ho, hname⟩ := hback short hshort
        have hne : short ≠ origin := by
          rintro rfl
          exact hlost hname
        have hlt := Archive.storedName_length_lt hname hne
        refine ⟨origin, ho, ?_, Nat.lt_of_le_of_lt hn hlt⟩
        intro hkept
        rw [hkept] at hname
        exact hne (Except.ok.inj hname).symm
    obtain ⟨bound, hbound⟩ := exists_bound b.files.keys
    obtain ⟨long, hlong, -, hlen⟩ := hlonger (bound + 1)
    exact Nat.not_succ_le_self _ (Nat.le_trans hlen (hbound long hlong))
  · exact ofBytes_of_kept h hsize List.prefix_rfl

/-! ### On a partition -/

variable {t t' : FileTree} {partition : String}

theorem onPartition_eq_ok : onPartition t partition = .ok b ↔
    ∃ bytes, t.read partition = .ok bytes ∧ ofBytes bytes = .ok b := by
  unfold onPartition
  cases t.read partition with
  | error e => simp [bind, Except.bind]
  | ok bytes => simp [bind, Except.bind]

theorem overwrite_eq_ok : b.overwrite partition t = .ok t' ↔
    ∃ place t₁, t.create partition = .ok (place, t₁) ∧ t' = t₁.refill place b.toArchive.1 := by
  unfold overwrite
  cases hc : t.create partition with
  | error e => simp [bind, Except.bind]
  | ok r =>
    obtain ⟨place, t₁⟩ := r
    constructor
    · intro h
      exact ⟨place, t₁, rfl, (Except.ok.inj h).symm⟩
    · rintro ⟨_, _, hr, rfl⟩
      cases hr
      rfl

theorem refilled_of_overwrite (h : b.overwrite partition t = .ok t') :
    ∃ place, FileTree.Refilled t t' place b.toArchive.1 ∧ t.locate partition true = .ok place := by
  obtain ⟨place, t₁, hc, rfl⟩ := overwrite_eq_ok.1 h
  exact ⟨place, FileTree.refilled_of_create hc b.toArchive.1⟩

theorem read_overwrite (h : b.overwrite partition t = .ok t') :
    t'.read partition = .ok b.toArchive.1 := by
  obtain ⟨place, hr, hl⟩ := refilled_of_overwrite h
  exact hr.read hl

/-- Where a file can be read one can be written. -/
theorem exists_overwrite {bytes : ByteArray} (b : Bundle) (hread : t.read partition = .ok bytes) :
    ∃ t', b.overwrite partition t = .ok t' := by
  obtain ⟨place, mode, hfind⟩ := FileTree.read_eq_ok.1 hread
  obtain ⟨hl, hn⟩ := FileTree.find_eq_ok.1 hfind
  have hcreate : t.create partition = .ok (place, t.set place (.file .empty mode)) := by
    simp only [FileTree.create, hl, bind, Except.bind, hn]
  exact ⟨_, overwrite_eq_ok.2 ⟨place, _, hcreate, rfl⟩⟩

theorem onPartition_eq_of_read_eq (h : t'.read partition = t.read partition) :
    onPartition t' partition = onPartition t partition := by
  rw [onPartition, h, onPartition]

/-- The message of a write. -/
def writeText (b : Bundle) (partition : String) : String :=
  s!"Writing {b.size} seed file(s) to {partition}"

theorem perform_store (b : Bundle) (partition : String) (m : Machine) :
    (b.store partition).perform m =
      match b.overwrite partition m.files with
      | .error e => (.error (.system e), m.record (.logged .info (b.writeText partition)))
      | .ok t => (match b.toArchive.2 with
          | none => .ok ()
          | some reason => .error (.system (.badArchive reason)),
        (m.record (.logged .info (b.writeText partition))).wrote partition t) := by
  unfold store
  rw [Action.perform_bind_of_ok _ (Action.perform_logInfo _ m), Action.perform_bind,
    Action.perform_alter, Machine.files_record]
  cases b.overwrite partition m.files with
  | error e => rfl
  | ok t => cases b.toArchive.2 <;> simp <;> rfl

theorem perform_store_eq_ok {m m' : Machine} : (b.store partition).perform m = (.ok (), m') ↔
    b.toArchive.2 = none ∧ ∃ t, b.overwrite partition m.files = .ok t ∧
      m' = (m.record (.logged .info (b.writeText partition))).wrote partition t := by
  rw [perform_store]
  cases hover : b.overwrite partition m.files with
  | error e => simp
  | ok t =>
    cases hwhole : b.toArchive.2 with
    | none => simp [eq_comm]
    | some reason => simp

end Bundle

end Groundwork
