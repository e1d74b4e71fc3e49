import Groundwork.Install.Copy
import Groundwork.Proofs.Action
import Groundwork.Proofs.Bytes
import Groundwork.Proofs.FileTree

/-! Copying a file over another one. The chunks are pieces of the source, one behind the other, and to
write them one by one is to lay what they make up over the target. A copy that succeeds has brought the
whole source, and has left what the target holds beyond it. -/
namespace Groundwork.Copy

variable {env : Environment} {source target : String} {content old : ByteArray}
  {position room count size mode : Nat} {ds : List Delivery} {place : Location} {t t' : FileTree}
  {m m' : Machine}

/-! ### The chunks of a source -/

theorem extract_append_extract_of_le {i j k : Nat} (hij : i ≤ j) (hjk : j ≤ k) :
    content.extract i j ++ content.extract j k = content.extract i k := by
  rw [ByteArray.extract_append_extract, Nat.min_eq_left hij, Nat.max_eq_right hjk]

theorem extract_min (content : ByteArray) (i j : Nat) :
    content.extract i (min j content.size) = content.extract i j := by
  have htake : content.toList.take (min j content.size) = content.toList.take j :=
    List.take_eq_take_iff.2 (by rw [Bytes.length_toList]; omega)
  rw [← Bytes.toList_inj, Bytes.toList_extract, Bytes.toList_extract, htake]

theorem extract_self (content : ByteArray) (i : Nat) : content.extract i i = .empty :=
  ByteArray.extract_eq_empty_iff.2 (Nat.min_le_left _ _)

/-- A chunk is what stands from its position up to another one, and if no read comes back empty up to
the end of its room or of the source. Induction on the reads. -/
theorem fillChunk_extract (ds : List Delivery) (hposition : position ≤ content.size) :
    ∃ reached, position ≤ reached ∧ reached ≤ content.size ∧
      (fillChunk content position room ds).1 = content.extract position reached ∧
      ((∀ d ∈ ds, d ≠ .upTo 0) → reached = min (position + room) content.size ∧
        (fillChunk content position room ds).2 ⊆ ds) := by
  induction ds generalizing position room with
  | nil =>
    exact ⟨min (position + room) content.size, by omega, by omega, (extract_min ..).symm,
      fun _ => ⟨rfl, List.Subset.refl _⟩⟩
  | cons d ds ih =>
    unfold fillChunk
    split
    · next hroom =>
      exact ⟨position, Nat.le_refl _, hposition, (extract_self ..).symm,
        fun _ => ⟨by omega, List.Subset.refl _⟩⟩
    · cases d with
      | interrupted =>
        obtain ⟨reached, hfrom, hto, hchunk, hfull⟩ := @ih position room hposition
        refine ⟨reached, hfrom, hto, hchunk, fun hds => ?_⟩
        obtain ⟨hreached, hleft⟩ := hfull fun d hd => hds d (.tail _ hd)
        exact ⟨hreached, List.subset_cons_of_subset _ hleft⟩
      | upTo count =>
        -- the piece that this read brings ends in the middle of the chunk
        dsimp only
        rw [← extract_min content position (position + min count room)]
        generalize hmiddle : min (position + min count room) content.size = middle
        have hsize : (content.extract position middle).size = middle - position := by
          rw [ByteArray.size_extract]
          omega
        rw [hsize]
        split
        · refine ⟨position, Nat.le_refl _, hposition, (extract_self ..).symm, fun hds => ?_⟩
          have hcount : count ≠ 0 := fun hzero => hds _ List.mem_cons_self (congrArg _ hzero)
          exact ⟨by omega, List.subset_cons_self _ _⟩
        · rw [show position + (middle - position) = middle by omega]
          obtain ⟨reached, hfrom, hto, hchunk, hfull⟩ :=
            @ih middle (room - (middle - position)) (by omega)
          refine ⟨reached, by omega, hto, ?_, fun hds => ?_⟩
          · dsimp only
            rw [hchunk, extract_append_extract_of_le (by omega) hfrom]
          · obtain ⟨hreached, hleft⟩ := hfull fun d hd => hds d (.tail _ hd)
            exact ⟨by omega, List.subset_cons_of_subset _ hleft⟩

/-- Chunks after one another. -/
def joined (cs : List ByteArray) : ByteArray := cs.foldr (· ++ ·) .empty

/-- The chunks make up what stands from their position up to another one, and if no read comes back
empty up to the end of the source. Induction on the chunks. -/
theorem joined_chunks (hposition : position ≤ content.size) :
    ∃ reached, position ≤ reached ∧ reached ≤ content.size ∧
      joined (chunks content position ds) = content.extract position reached ∧
      ((∀ d ∈ ds, d ≠ .upTo 0) → reached = content.size) := by
  fun_induction chunks content position ds with
  | case1 position ds hnone =>
    refine ⟨position, Nat.le_refl _, hposition, (extract_self ..).symm, fun hds => ?_⟩
    obtain ⟨reached, hfrom, hto, hchunk, hfull⟩ := @fillChunk_extract content position chunkSize ds hposition
    obtain ⟨hreached, -⟩ := hfull hds
    have hroom : 0 < chunkSize := by decide
    rw [hchunk, ByteArray.size_extract] at hnone
    omega
  | case2 position ds hsome ih =>
    obtain ⟨next, hfrom, hto, hchunk, hfull⟩ := @fillChunk_extract content position chunkSize ds hposition
    have hsize : position + (fillChunk content position chunkSize ds).1.size = next := by
      rw [hchunk, ByteArray.size_extract]
      omega
    rw [hsize] at ih ⊢
    obtain ⟨reached, hfrom', hto', hrest, hfull'⟩ := ih hto
    refine ⟨reached, by omega, hto', ?_, fun hds => ?_⟩
    · change (fillChunk content position chunkSize ds).1 ++ joined _ = _
      rw [hchunk, hrest, extract_append_extract_of_le hfrom hfrom']
    · exact hfull' fun d hd => hds d ((hfull hds).2 hd)

/-- Reads of which none comes back empty bring the whole source. -/
theorem joined_chunks_of_delivers (hds : ∀ d ∈ ds, d ≠ .upTo 0) :
    joined (chunks content 0 ds) = content := by
  obtain ⟨reached, -, -, hjoined, hfull⟩ := @joined_chunks content 0 ds (Nat.zero_le _)
  rw [hjoined, hfull hds, ByteArray.extract_zero_size]

/-! ### What is written -/

theorem toList_overwritten (old : ByteArray) (position : Nat) (bytes : ByteArray) :
    (overwritten old position bytes).toList = old.toList.take position ++ bytes.toList ++
      old.toList.drop (position + bytes.size) := by
  rw [overwritten, Bytes.toList_append, Bytes.toList_append, Bytes.toList_extract,
    Bytes.toList_extract, ← Bytes.length_toList old, List.take_length, List.drop_zero]

theorem overwritten_empty (old : ByteArray) (position : Nat) :
    overwritten old position .empty = old := by
  have hempty : ByteArray.empty.toList = [] := Bytes.toList_toByteArray []
  rw [← Bytes.toList_inj, toList_overwritten, hempty, ByteArray.size_empty, List.append_nil,
    Nat.add_zero, List.take_append_drop]

/-- Bytes that are written behind others are written with them. -/
theorem overwritten_overwritten (hposition : position ≤ old.size) (bytes more : ByteArray) :
    overwritten (overwritten old position bytes) (position + bytes.size) more =
      overwritten old position (bytes ++ more) := by
  have hfront : (old.toList.take position ++ bytes.toList).length = position + bytes.size := by
    rw [List.length_append, List.length_take, Bytes.length_toList, Bytes.length_toList]
    omega
  rw [← Bytes.toList_inj]
  simp only [toList_overwritten, Bytes.toList_append, ByteArray.size_append]
  rw [List.take_left' hfront, ← List.drop_drop, List.drop_left' hfront, List.drop_drop,
    ← List.append_assoc, Nat.add_assoc]

theorem size_overwritten_le (hposition : position ≤ old.size) (bytes : ByteArray) :
    position + bytes.size ≤ (overwritten old position bytes).size := by
  rw [← Bytes.length_toList (overwritten old position bytes), toList_overwritten]
  simp only [List.length_append, List.length_take, Bytes.length_toList]
  omega

/-- The first bytes of one content, then what another content has beyond them. -/
def overlay (source target : ByteArray) (count : Nat) : ByteArray :=
  source.extract 0 count ++ target.extract count target.size

/-- What a copy over a longer file leaves. -/
theorem overlay_size (content old : ByteArray) :
    overlay content old content.size = content ++ old.extract content.size old.size := by
  simp [overlay]

theorem overwritten_zero (content old : ByteArray) :
    overwritten old 0 content = overlay content old content.size := by
  rw [overlay_size, overwritten, extract_self, ByteArray.empty_append, Nat.zero_add]

/-- What is left of a file that is not longer. -/
theorem append_extract_of_le (h : old.size ≤ content.size) :
    content ++ old.extract content.size old.size = content := by
  rw [ByteArray.extract_eq_empty_iff.2 (by omega), ByteArray.append_empty]

theorem writeAt_eq_ok {bytes : ByteArray} : writeAt target position bytes t = .ok t' ↔
    ∃ place old mode, t.openExisting target = .ok (place, old, mode) ∧
      t' = t.refill place (overwritten old position bytes) := by
  unfold writeAt
  cases t.openExisting target with
  | error e => simp [bind, Except.bind]
  | ok opened =>
    obtain ⟨place, old, mode⟩ := opened
    constructor
    · intro h
      exact ⟨place, old, mode, rfl, (Except.ok.inj h).symm⟩
    · rintro ⟨_, _, _, h, rfl⟩
      cases h
      rfl

theorem refilled_of_writeAt {bytes : ByteArray} (h : writeAt target position bytes t = .ok t') :
    ∃ place old new, FileTree.Refilled t t' place new ∧ t.locate target true = .ok place ∧
      t.read target = .ok old := by
  obtain ⟨place, old, mode, hopen, rfl⟩ := writeAt_eq_ok.1 h
  obtain ⟨hr, hl⟩ := FileTree.refilled_of_openExisting hopen (overwritten old position bytes)
  exact ⟨place, old, _, hr, hl,
    FileTree.read_eq_ok.2 ⟨place, mode, FileTree.openExisting_eq_ok.1 hopen⟩⟩

/-! ### The loop -/

/-- The report that comes after a number of chunks, if any does. -/
def reported (size position count : Nat) : List Event :=
  if count % chunksPerReport = 0 then [.told (.progress position size)] else []

theorem perform_report (size position count : Nat) (m : Machine) :
    (report size position count).perform m =
      (.ok (), { m with history := m.history ++ reported size position count }) := by
  unfold report reported
  split
  · rfl
  · rw [List.append_nil, Action.perform_pure]

/-- What happens while chunks are written. -/
def course (target : String) (size : Nat) : (position count : Nat) → List ByteArray → List Event
  | _, _, [] => []
  | position, count, chunk :: rest =>
    .wrote target :: (reported size (position + chunk.size) (count + 1) ++
      course target size (position + chunk.size) (count + 1) rest)

/-- To write chunks one by one is to write what they make up. Induction on the chunks: those that are
left are written behind the one that was written before them. -/
theorem perform_writeChunks (cs : List ByteArray)
    (hopen : m.files.openExisting target = .ok (place, old, mode)) (hposition : position ≤ old.size) :
    (writeChunks target size position count cs).perform m =
      (.ok (position + (joined cs).size), {
        m with
        files := m.files.refill place (overwritten old position (joined cs))
        history := m.history ++ course target size position count cs }) := by
  induction cs generalizing m old position count with
  | nil =>
    have hsame : m.files.refill place (overwritten old position .empty) = m.files := by
      rw [overwritten_empty, FileTree.refill_self hopen]
    simp [writeChunks, joined, course, hsame, Action.perform_pure]
  | cons chunk rest ih =>
    have hwrite : (Action.alter target (writeAt target position chunk)).perform m =
        (.ok (), m.wrote target (m.files.refill place (overwritten old position chunk))) :=
      Action.perform_alter_eq_ok.2 ⟨_, writeAt_eq_ok.2 ⟨place, old, mode, hopen, rfl⟩, rfl⟩
    have hrest (m₁ : Machine)
        (hfiles : m₁.files = m.files.refill place (overwritten old position chunk)) :=
      @ih (overwritten old position chunk) (position + chunk.size) (count + 1) m₁
        (hfiles ▸ FileTree.openExisting_refill hopen _) (size_overwritten_le hposition chunk)
    rw [writeChunks, Action.perform_bind_of_ok _ hwrite, Action.perform_bind_of_ok _ (perform_report ..),
      hrest _ rfl]
    simp [joined, course, Machine.wrote, Machine.record, Nat.add_assoc, FileTree.refill_refill hopen,
      overwritten_overwritten hposition]

/-- A copy between files that are there brings as much as its chunks make up. -/
theorem perform_contents_eq (hread : m.files.read source = .ok content)
    (hopen : m.files.openExisting target = .ok (place, old, mode)) :
    (contents env source target).perform m =
      let cs := chunks content 0 (env.deliveries source)
      (if (joined cs).size < content.size then
          .error (.incompleteCopy source (joined cs).size content.size) else .ok (), {
        m with
        files := m.files.refill place (overlay (joined cs) old (joined cs).size)
        history := m.history ++ course target content.size 0 0 cs }) := by
  obtain ⟨place', mode', hfind⟩ := FileTree.read_eq_ok.1 hread
  unfold contents
  rw [Action.perform_bind_of_ok _ (Action.perform_consult_eq_ok.2 ⟨hfind, rfl⟩),
    Action.perform_bind_of_ok _ (Action.perform_consult_eq_ok.2 ⟨hopen, rfl⟩),
    Action.perform_bind_of_ok _ (Action.perform_consult_eq_ok.2 ⟨hread, rfl⟩),
    Action.perform_bind_of_ok _ (perform_writeChunks _ hopen (Nat.zero_le _)), overwritten_zero,
    Nat.zero_add]
  dsimp only
  split <;> rfl

/-- A copy that succeeds leaves the source's content over the old one. -/
theorem contents_eq_ok (h : (contents env source target).perform m = (.ok (), m')) :
    ∃ content place old mode, m.files.read source = .ok content ∧
      m.files.openExisting target = .ok (place, old, mode) ∧
      m'.files = m.files.refill place (overlay content old content.size) := by
  have hwhole := h
  unfold contents at h
  obtain ⟨_, _, hfind, h⟩ := Action.perform_bind_eq_ok.1 h
  obtain ⟨⟨place, old, mode⟩, _, hopen, h⟩ := Action.perform_bind_eq_ok.1 h
  obtain ⟨content, _, hread, -⟩ := Action.perform_bind_eq_ok.1 h
  obtain ⟨-, rfl⟩ := Action.perform_consult_eq_ok.1 hfind
  obtain ⟨hopen, rfl⟩ := Action.perform_consult_eq_ok.1 hopen
  obtain ⟨hread, rfl⟩ := Action.perform_consult_eq_ok.1 hread
  rw [perform_contents_eq hread hopen] at hwhole
  obtain ⟨hresult, rfl⟩ := Prod.mk.inj hwhole
  obtain ⟨reached, -, hto, hjoined, -⟩ := @joined_chunks content 0 (env.deliveries source)
    (Nat.zero_le _)
  split at hresult
  · cases hresult
  · next hall =>
    have hreached : reached = content.size := by
      rw [hjoined, ByteArray.size_extract] at hall
      omega
    rw [hreached, ByteArray.extract_zero_size] at hjoined
    exact ⟨content, place, old, mode, hread, hopen, by rw [hjoined]⟩

/-- A copy between files that are there succeeds if no read comes back empty. -/
theorem perform_contents (hdeliveries : ∀ d ∈ env.deliveries source, d ≠ .upTo 0)
    (hread : m.files.read source = .ok content)
    (hopen : m.files.openExisting target = .ok (place, old, mode)) :
    (contents env source target).perform m = (.ok (), {
      m with
      files := m.files.refill place (overlay content old content.size)
      history := m.history ++
        course target content.size 0 0 (chunks content 0 (env.deliveries source)) }) := by
  rw [perform_contents_eq hread hopen]
  simp [joined_chunks_of_delivers hdeliveries]

theorem yields_contents (hdeliveries : ∀ d ∈ env.deliveries source, d ≠ .upTo 0)
    (hread : t.read source = .ok content)
    (hopen : t.openExisting target = .ok (place, old, mode)) :
    Action.Yields t (contents env source target) ()
      (t.refill place (overlay content old content.size)) := by
  rintro m rfl
  exact ⟨_, perform_contents hdeliveries hread hopen, rfl⟩


/-- A target that is not there is not made. -/
theorem perform_contents_of_not_has (h : m.files.has target = false) :
    ∃ e, (contents env source target).perform m = (.error e, m) := by
  unfold contents
  cases hsource : m.files.find source true with
  | error e =>
    refine ⟨.system e, Action.perform_bind_of_error _ ?_⟩
    rw [Action.perform_consult, hsource]
    rfl
  | ok found =>
    rw [Action.perform_bind_of_ok _ (Action.perform_consult_eq_ok.2 ⟨hsource, rfl⟩)]
    cases htarget : m.files.openExisting target with
    | error e =>
      refine ⟨.system e, Action.perform_bind_of_error _ ?_⟩
      rw [Action.perform_consult, htarget]
      rfl
    | ok opened =>
      obtain ⟨place, old, mode⟩ := opened
      rw [FileTree.has, FileTree.openExisting_eq_ok.1 htarget] at h
      cases h

end Groundwork.Copy
