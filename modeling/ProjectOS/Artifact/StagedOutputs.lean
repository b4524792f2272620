import ProjectOS.Artifact.Repository

/-! What is read back of staged outputs after a sequence of writes. The content
lies in a file of its slot, the manifest in one file of the whole work item. -/
namespace ProjectOS.Artifact.Repository
open Base
variable {repo repo' : Repository}

/-- Calls of `write_staged` that all succeed. -/
def writeAll (repo : Repository) : List StagedWrite → Result Repository
  | [] => .ok repo
  | write :: rest => do
      let repo ← repo.writeStaged write
      writeAll repo rest

theorem writeStaged_eq_ok {write : StagedWrite} (h : repo.writeStaged write = .ok repo') :
    (∃ name, filenameFor write.artifactKey = .ok name) ∧
      repo'.outputs =
        repo.outputs.set (write.traceId, write.workItemId, write.slot) write.content ∧
      ∃ manifest, repo'.manifests = repo.manifests.set (write.traceId, write.workItemId) manifest ∧
        manifest.artifactKey = write.artifactKey ∧
        manifest.digest = Sha256.sha256 write.content := by
  unfold writeStaged at h
  simp only [bind_eq_ok, Except.ok.injEq] at h
  obtain ⟨name, hname, _, _, _, _, _, _, _, _, _, _, rfl⟩ := h
  exact ⟨⟨name, hname⟩, rfl, _, rfl, rfl, rfl⟩

namespace StagedWrite

def sameItem (write other : StagedWrite) : Bool :=
  other.traceId = write.traceId && other.workItemId = write.workItemId

def sameFile (write other : StagedWrite) : Bool := write.sameItem other && other.slot = write.slot

def sameRef (write other : StagedWrite) : Bool :=
  write.sameFile other && other.artifactKey = write.artifactKey

/-- The write that is in force for a kind of file after later writes. -/
def lastOf (kind : StagedWrite → StagedWrite → Bool) (write : StagedWrite)
    (later : List StagedWrite) : StagedWrite := (later.filter (kind write)).getLastD write

theorem lastOf_cons {kind : StagedWrite → StagedWrite → Bool} {write next : StagedWrite}
    (hkind : kind write next = true → kind next = kind write) (later : List StagedWrite) :
    lastOf kind write (next :: later) =
      if kind write next then lastOf kind next later else lastOf kind write later := by
  unfold lastOf
  split
  · rename_i hnext
    rw [List.filter_cons_of_pos hnext, List.getLastD_cons, hkind hnext]
  · rename_i hnext
    rw [List.filter_cons_of_neg hnext]

theorem sameItem_congr {write next : StagedWrite} (h : write.sameItem next = true) :
    next.sameItem = write.sameItem := by
  simp only [sameItem, Bool.and_eq_true, decide_eq_true_eq] at h
  funext other
  rw [sameItem, sameItem, h.1, h.2]

theorem sameFile_congr {write next : StagedWrite} (h : write.sameFile next = true) :
    next.sameFile = write.sameFile := by
  simp only [sameFile, Bool.and_eq_true, decide_eq_true_eq] at h
  funext other
  rw [sameFile, sameFile, sameItem_congr h.1, h.2]

/-- The manifest of the work item records this write. -/
def Recorded (write : StagedWrite) (repo : Repository) : Prop :=
  ∃ manifest, repo.manifests.get? (write.traceId, write.workItemId) = some manifest ∧
    manifest.artifactKey = write.artifactKey ∧ manifest.digest = Sha256.sha256 write.content

/-- The file of the slot holds the content of this write. -/
def Stored (write : StagedWrite) (repo : Repository) : Prop :=
  repo.outputs.get? (write.traceId, write.workItemId, write.slot) = some write.content

theorem stored_of_writeStaged {write : StagedWrite} (h : repo.writeStaged write = .ok repo') :
    write.Stored repo' ∧ write.Recorded repo' := by
  obtain ⟨-, houtputs, manifest, hmanifests, hkey, hdigest⟩ := writeStaged_eq_ok h
  constructor
  · rw [Stored, houtputs, Dict.get?_set, if_pos rfl]
  · exact ⟨manifest, by rw [hmanifests, Dict.get?_set, if_pos rfl], hkey, hdigest⟩

theorem stored_step {write next : StagedWrite} (h : repo.writeStaged next = .ok repo')
    (hother : write.sameFile next = false) (hstored : write.Stored repo) : write.Stored repo' := by
  obtain ⟨-, houtputs, -⟩ := writeStaged_eq_ok h
  rw [Stored, houtputs, Dict.get?_set, if_neg]
  · exact hstored
  · intro hsame
    simp only [Prod.mk.injEq] at hsame
    simp [sameFile, sameItem, hsame.1, hsame.2.1, hsame.2.2] at hother

theorem recorded_step {write next : StagedWrite} (h : repo.writeStaged next = .ok repo')
    (hother : write.sameItem next = false) (hrecorded : write.Recorded repo) :
    write.Recorded repo' := by
  obtain ⟨manifest, hget, hkey, hdigest⟩ := hrecorded
  obtain ⟨-, -, _, hmanifests, -⟩ := writeStaged_eq_ok h
  refine ⟨manifest, ?_, hkey, hdigest⟩
  rw [hmanifests, Dict.get?_set, if_neg]
  · exact hget
  · intro hsame
    simp only [Prod.mk.injEq] at hsame
    simp [sameItem, hsame.1, hsame.2] at hother

theorem stored_writeAll {write : StagedWrite} {later : List StagedWrite}
    (h : repo.writeAll later = .ok repo') (hstored : write.Stored repo) :
    (lastOf sameFile write later).Stored repo' := by
  induction later generalizing repo write with
  | nil =>
    cases h
    exact hstored
  | cons next later ih =>
    simp only [writeAll, bind_eq_ok] at h
    obtain ⟨middle, hnext, hlater⟩ := h
    rw [lastOf_cons sameFile_congr]
    split
    · exact ih hlater (stored_of_writeStaged hnext).1
    · rename_i hother
      exact ih hlater (stored_step hnext (Bool.not_eq_true _ ▸ hother) hstored)

theorem recorded_writeAll {write : StagedWrite} {later : List StagedWrite}
    (h : repo.writeAll later = .ok repo') (hrecorded : write.Recorded repo) :
    (lastOf sameItem write later).Recorded repo' := by
  induction later generalizing repo write with
  | nil =>
    cases h
    exact hrecorded
  | cons next later ih =>
    simp only [writeAll, bind_eq_ok] at h
    obtain ⟨middle, hnext, hlater⟩ := h
    rw [lastOf_cons sameItem_congr]
    split
    · exact ih hlater (stored_of_writeStaged hnext).2
    · rename_i hother
      exact ih hlater (recorded_step hnext (Bool.not_eq_true _ ▸ hother) hrecorded)

theorem lastOf_kind {kind : StagedWrite → StagedWrite → Bool} {write : StagedWrite}
    (hself : kind write write = true) (later : List StagedWrite) :
    kind write (lastOf kind write later) = true := by
  unfold lastOf
  rcases List.eq_nil_or_concat (later.filter (kind write)) with hnil | ⟨front, last, hlast⟩
  · rw [hnil, List.getLastD_nil, hself]
  · have hmem : last ∈ later.filter (kind write) := by
      rw [hlast]
      simp
    rw [hlast, List.concat_eq_append, List.getLastD_eq_getLast?, List.getLast?_concat,
      Option.getD_some]
    exact (List.mem_filter.mp hmem).2

def ref (write : StagedWrite) : Result ArtifactRef :=
  ArtifactRef.staged write.artifactKey write.traceId write.workItemId write.slot

/-- What is stored and recorded still belongs to this write. -/
def Undisturbed (write : StagedWrite) (later : List StagedWrite) : Prop :=
  (lastOf sameItem write later).artifactKey = write.artifactKey ∧
    Sha256.sha256 (lastOf sameItem write later).content =
      Sha256.sha256 (Text.readText write.content) ∧
    Text.readText (lastOf sameFile write later).content = Text.readText write.content

end StagedWrite
open StagedWrite

theorem loadRef_of_stored {write file item : StagedWrite} {ref : ArtifactRef} {name : String}
    (href : write.ref = .ok ref) (hname : filenameFor write.artifactKey = .ok name)
    (hfile : write.sameFile file = true) (hitem : write.sameItem item = true)
    (hstored : file.Stored repo) (hrecorded : item.Recorded repo) (content : String) :
    repo.loadRef ref = .ok content ↔
      item.artifactKey = write.artifactKey ∧
        Sha256.sha256 item.content = Sha256.sha256 (Text.readText file.content) ∧
        Text.readText file.content = content := by
  have hfields := ArtifactRef.create_eq_ok.mp href
  simp only [sameFile, sameItem, Bool.and_eq_true, decide_eq_true_eq] at hfile hitem
  obtain ⟨manifest, hmanifest, hkey, hdigest⟩ := hrecorded
  rw [hitem.1, hitem.2] at hmanifest
  rw [Stored, hfile.1.1, hfile.1.2, hfile.2] at hstored
  have hlayer : ref.layer = "staged" := by rw [hfields]
  unfold loadRef loadStaged
  rw [if_neg (by rw [hlayer]; decide)]
  simp only [hfields, hname, ok_bind, Option.getD_some, hmanifest, hstored, hkey, hdigest]
  by_cases hsame : item.artifactKey = write.artifactKey <;>
    by_cases hcontent : Sha256.sha256 item.content = Sha256.sha256 (Text.readText file.content) <;>
    simp [hsame, hcontent]

theorem writeAll_append {front later : List StagedWrite}
    (h : repo.writeAll (front ++ later) = .ok repo') :
    ∃ middle, repo.writeAll front = .ok middle ∧ middle.writeAll later = .ok repo' := by
  induction front generalizing repo with
  | nil => exact ⟨repo, rfl, h⟩
  | cons first front ih =>
    simp only [List.cons_append, writeAll, bind_eq_ok] at h
    obtain ⟨next, hnext, hrest⟩ := h
    obtain ⟨middle, hfront, hlater⟩ := ih hrest
    exact ⟨middle, by rw [writeAll, hnext, ok_bind, hfront], hlater⟩

/-- Of a reference and the writes after its last one, exactly when the last
content is read back. -/
theorem loadRef_writeAll {front later : List StagedWrite} {write : StagedWrite} {ref : ArtifactRef}
    (h : repo.writeAll (front ++ write :: later) = .ok repo') (href : write.ref = .ok ref) :
    repo'.loadRef ref = .ok (Text.readText write.content) ↔ write.Undisturbed later := by
  obtain ⟨middle, -, hmiddle⟩ := writeAll_append h
  simp only [writeAll, bind_eq_ok] at hmiddle
  obtain ⟨next, hwrite, hlater⟩ := hmiddle
  obtain ⟨⟨name, hname⟩, -⟩ := writeStaged_eq_ok hwrite
  obtain ⟨hstored, hrecorded⟩ := stored_of_writeStaged hwrite
  rw [loadRef_of_stored href hname (lastOf_kind (by simp [sameFile, sameItem]) later)
    (lastOf_kind (by simp [sameItem]) later) (stored_writeAll hlater hstored)
    (recorded_writeAll hlater hrecorded), Undisturbed]
  constructor
  · rintro ⟨hkey, hdigest, hcontent⟩
    exact ⟨hkey, hcontent ▸ hdigest, hcontent⟩
  · rintro ⟨hkey, hdigest, hcontent⟩
    exact ⟨hkey, hcontent ▸ hdigest, hcontent⟩

/-- Every reference that was written loads as the last content written to it. -/
def ReadsBack (writes : List StagedWrite) (repo : Repository) : Prop :=
  ∀ front write later ref, writes = front ++ write :: later → later.all (!write.sameRef ·) →
    write.ref = .ok ref → repo.loadRef ref = .ok (Text.readText write.content)

theorem writeStaged_ref {write : StagedWrite} (h : repo.writeStaged write = .ok repo') :
    ∃ ref, write.ref = .ok ref := by
  unfold writeStaged at h
  simp only [bind_eq_ok] at h
  obtain ⟨_, _, _, _, _, _, ref, href, _⟩ := h
  exact ⟨ref, href⟩

/-- Staged outputs read back exactly where no later write disturbs the last one
to a reference. -/
theorem readsBack_iff {writes : List StagedWrite} (h : repo.writeAll writes = .ok repo') :
    ReadsBack writes repo' ↔ ∀ front write later, writes = front ++ write :: later →
      later.all (!write.sameRef ·) → write.Undisturbed later := by
  constructor
  · intro hreads front write later hsplit hlast
    subst hsplit
    obtain ⟨middle, -, hmiddle⟩ := writeAll_append h
    simp only [writeAll, bind_eq_ok] at hmiddle
    obtain ⟨_, hwrite, -⟩ := hmiddle
    obtain ⟨ref, href⟩ := writeStaged_ref hwrite
    exact (loadRef_writeAll h href).mp (hreads front write later ref rfl hlast href)
  · intro hundisturbed front write later ref hsplit hlast href
    subst hsplit
    exact (loadRef_writeAll h href).mpr (hundisturbed front write later rfl hlast)

/-- The output of one slot of a work item. -/
def slotWrite (slot content : String) : StagedWrite where
  traceId := "t"
  workItemId := "w"
  artifactKey := "architecture"
  slot := slot
  content := content

theorem readsBack_single : ∃ repo', (({} : Repository).writeAll [slotWrite "a" "A"] = .ok repo') ∧
    ReadsBack [slotWrite "a" "A"] repo' := by
  refine ⟨_, rfl, (readsBack_iff rfl).mpr ?_⟩
  intro front write later hsplit hlast
  cases front with
  | nil =>
    cases hsplit
    exact ⟨rfl, by decide +kernel, rfl⟩
  | cons first front =>
    cases front <;> cases hsplit

/-- The second slot takes over the manifest of the first one. -/
theorem slots_disturb_each_other :
    ¬ ∀ (writes : List StagedWrite) (repo' : Repository),
      ({} : Repository).writeAll writes = .ok repo' → ReadsBack writes repo' := by
  intro h
  have hreads := h [slotWrite "a" "A", slotWrite "b" "B"] _ rfl [] (slotWrite "a" "A")
    [slotWrite "b" "B"] _ rfl (by decide) rfl
  have hfails : ∀ content, (Except.ok content : Result String) ≠
      .error (.runtimeError "暂存产物清单校验失败: staged:t:w:a") := nofun
  refine hfails _ (hreads.symm.trans ?_)
  decide +kernel

end ProjectOS.Artifact.Repository
