import ProjectOS.Artifact.Repository

/-! Publication over whole runs. Staging, candidates, promotions and promotions cut
short at any write leave the revisions and `current.json` consistent. -/
namespace ProjectOS.Artifact
open Base

namespace Repository
variable {repo repo' : Repository} {artifactKey : String}

/-- What `current.json` may say. -/
def Recorded (repo : Repository) (artifactKey : String) (record : CurrentRecord) : Prop :=
  (∃ text, (repo.revisions artifactKey).get? record.revisionId = some text ∧
    Sha256.sha256 text = record.digest) ∧
  ∃ candidate, repo.loadCandidate artifactKey record.candidateId = .ok candidate ∧
    candidate.digest = record.digest ∧ candidate.report.isReady = true

/-- Revisions are numbered from one and read back as written, the current record
names one of them, and a candidate carries its own id and artifact. -/
structure Consistent (repo : Repository) : Prop where
  numbered : ∀ key, (repo.revisions key).keys =
    (List.range (repo.revisions key).entries.length).map fun i => revisionId (i + 1)
  readable : ∀ key id text, (repo.revisions key).get? id = some text → Text.readText text = text
  current : ∀ key record, repo.current.get? key = some record → repo.Recorded key record
  named : ∀ key id files, repo.candidates.get? (key, id) = some files →
    files.record.id = id ∧ files.record.artifactKey = key

/-- Every revision file is still there, with the same content. -/
def Keeps (repo repo' : Repository) : Prop :=
  ∀ key id text, (repo.revisions key).get? id = some text → (repo'.revisions key).get? id = some text

theorem Keeps.refl (repo : Repository) : Keeps repo repo := fun _ _ _ h => h

theorem Keeps.trans {repo'' : Repository} (h : Keeps repo repo') (h' : Keeps repo' repo'') :
    Keeps repo repo'' := fun key id text hget => h' key id text (h key id text hget)

/-- What a candidate is read from. -/
theorem loadCandidate_eq_ok {candidateId : String} {candidate : ArtifactCandidate} :
    repo.loadCandidate artifactKey candidateId = .ok candidate ↔
      (filenameFor artifactKey).isOk = true ∧ safeId candidateId = true ∧
        ∃ files, repo.candidates.get? (artifactKey, candidateId) = some files ∧
          files.record.digest = Sha256.sha256 (Text.readText files.content) ∧
          candidate = { files.record with content := Text.readText files.content } := by
  unfold loadCandidate
  cases hname : filenameFor artifactKey with
  | error error => simp [Except.isOk, Except.toBool]
  | ok name =>
    cases hfiles : repo.candidates.get? (artifactKey, candidateId) with
    | none => simp [validateId]
    | some files =>
      by_cases hdigest : files.record.digest = Sha256.sha256 (Text.readText files.content)
      · simp [validateId, Except.isOk, Except.toBool, hdigest, eq_comm (a := candidate)]
      · simp [validateId, hdigest]

theorem loadCandidate_mono {candidateId : String} {candidate : ArtifactCandidate}
    (h : repo.loadCandidate artifactKey candidateId = .ok candidate)
    (hcandidates : ∀ id files, repo.candidates.get? id = some files →
      repo'.candidates.get? id = some files) :
    repo'.loadCandidate artifactKey candidateId = .ok candidate := by
  obtain ⟨hname, hid, files, hfiles, hrest⟩ := loadCandidate_eq_ok.mp h
  exact loadCandidate_eq_ok.mpr ⟨hname, hid, files, hcandidates _ _ hfiles, hrest⟩

theorem revisionId_injective : Function.Injective revisionId := by
  intro a b h
  apply Text.zeroPadded_injective 3
  exact String.ofList_injective (Text.append_left_injective "rev-" h)

/-- The next number is not taken. -/
theorem Consistent.next_not_mem (h : repo.Consistent) :
    revisionId ((repo.revisions artifactKey).entries.length + 1) ∉
      (repo.revisions artifactKey).keys := by
  rw [h.numbered]
  simp only [List.mem_map, List.mem_range, not_exists, not_and]
  intro i hi heq
  have := revisionId_injective heq
  omega

/-- A write a promotion may make. -/
def Write.Good (repo : Repository) (artifactKey : String) : Write → Prop
  | .revision revisionId content =>
      revisionId = Repository.revisionId ((repo.revisions artifactKey).entries.length + 1) ∧
        Text.readText content = content
  | .current record => repo.Recorded artifactKey record
  | .projection _ => True

/-- Every write is good where it is made. -/
def AllGood (artifactKey : String) : Repository → List Write → Prop
  | _, [] => True
  | repo, w :: ws => w.Good repo artifactKey ∧ AllGood artifactKey (write artifactKey repo w) ws

theorem AllGood.take {writes : List Write} (h : AllGood artifactKey repo writes) (n : Nat) :
    AllGood artifactKey repo (writes.take n) := by
  induction writes generalizing repo n with
  | nil => simpa using h
  | cons w ws ih =>
    cases n with
    | zero => trivial
    | succ n => exact ⟨h.1, ih h.2 n⟩

theorem revisions_write_revision {id content key : String} :
    (write artifactKey repo (.revision id content)).revisions key =
      if key = artifactKey then (repo.revisions artifactKey).set id content
      else repo.revisions key := Function.update_apply ..

theorem Consistent.keeps_write (h : repo.Consistent) {w : Write} (hgood : w.Good repo artifactKey) :
    Keeps repo (write artifactKey repo w) := by
  cases w with
  | revision id content =>
    intro key other text hget
    rw [revisions_write_revision]
    split
    · rename_i hkey
      subst hkey
      have hne : other ≠ id := by
        rintro rfl
        have hmem := Dict.mem_keys_iff.mpr ⟨text, hget⟩
        rw [hgood.1] at hmem
        exact h.next_not_mem hmem
      rw [Dict.get?_set, if_neg hne]
      exact hget
    · exact hget
  | current record => exact Keeps.refl repo
  | projection content => exact Keeps.refl repo

theorem Recorded.mono {record : CurrentRecord} {key : String} (h : repo.Recorded key record)
    (hkeeps : Keeps repo repo') (hcandidates : ∀ id files, repo.candidates.get? id = some files →
      repo'.candidates.get? id = some files) : repo'.Recorded key record := by
  obtain ⟨⟨text, hget, hdigest⟩, candidate, hload, hrest⟩ := h
  exact ⟨⟨text, hkeeps _ _ _ hget, hdigest⟩, candidate, loadCandidate_mono hload hcandidates, hrest⟩

theorem Consistent.write (h : repo.Consistent) {w : Write} (hgood : w.Good repo artifactKey) :
    (write artifactKey repo w).Consistent := by
  have hkeeps := h.keeps_write hgood
  cases w with
  | revision id content =>
    obtain ⟨hid, hcontent⟩ := hgood
    refine ⟨fun key => ?_, fun key other text hget => ?_, fun key record hrecord => ?_, h.named⟩
    · rw [revisions_write_revision]
      split
      · have hfresh : id ∉ (repo.revisions artifactKey).keys := hid ▸ h.next_not_mem
        rw [Dict.keys_set_of_not_mem hfresh, Dict.entries_set_of_not_mem hfresh,
          h.numbered artifactKey, hid]
        simp [List.range_succ]
      · exact h.numbered key
    · rw [revisions_write_revision] at hget
      split at hget
      · rw [Dict.get?_set] at hget
        split at hget
        · cases hget
          exact hcontent
        · exact h.readable _ _ _ hget
      · exact h.readable _ _ _ hget
    · exact (h.current key record hrecord).mono hkeeps fun _ _ hfiles => hfiles
  | current record =>
    refine ⟨h.numbered, h.readable, fun key other hother => ?_, h.named⟩
    have hget : (repo.current.set artifactKey record).get? key = some other := hother
    rw [Dict.get?_set] at hget
    split at hget
    · rename_i hkey
      cases hget
      subst hkey
      exact hgood
    · exact h.current key other hget
  | projection content => exact ⟨h.numbered, h.readable, h.current, h.named⟩

/-- Whatever part of good writes is made. -/
theorem Consistent.writes (h : repo.Consistent) {writes : List Write}
    (hgood : AllGood artifactKey repo writes) :
    (writes.foldl (Repository.write artifactKey) repo).Consistent ∧
      Keeps repo (writes.foldl (Repository.write artifactKey) repo) := by
  induction writes generalizing repo with
  | nil => exact ⟨h, Keeps.refl repo⟩
  | cons w ws ih =>
    obtain ⟨hconsistent, hkeeps⟩ := ih (h.write hgood.1) hgood.2
    exact ⟨hconsistent, (h.keeps_write hgood.1).trans hkeeps⟩

theorem republish_eq_ok {candidate : ArtifactCandidate} {record : CurrentRecord}
    {promotion : Promotion} :
    repo.republish candidate artifactKey record = .ok promotion ↔
      ∃ ref, ArtifactRef.published artifactKey (some record.revisionId) = .ok ref ∧
        record.digest = candidate.digest ∧
        (∃ content, repo.loadRef ref = .ok content ∧ Sha256.sha256 content = candidate.digest) ∧
        promotion = ⟨[.projection candidate.content], .ok ref⟩ := by
  unfold republish
  cases href : ArtifactRef.published artifactKey (some record.revisionId) with
  | error error => simp
  | ok ref =>
    by_cases hdigest : record.digest = candidate.digest
    · cases hload : repo.loadRef ref with
      | error error => simp [hdigest, hload]
      | ok content =>
        by_cases hcontent : Sha256.sha256 content = candidate.digest
        · simp [hdigest, hload, hcontent, eq_comm (a := promotion)]
        · simp [hdigest, hload, hcontent]
    · simp [hdigest]

/-- A promotion of the current candidate only writes the projection again. -/
theorem promotion_eq_ok {candidateId promotedAt : String} {promotion : Promotion}
    (h : repo.promotion candidateId artifactKey promotedAt = .ok promotion) :
    ∃ candidate, repo.loadCandidate artifactKey candidateId = .ok candidate ∧
      candidate.report.isReady = true ∧ repo.verifyCandidateSources candidate = .ok () ∧
      ((∃ record, repo.current.get? artifactKey = some record ∧
          record.candidateId = candidate.id ∧
          repo.republish candidate artifactKey record = .ok promotion) ∨
        (∀ record, repo.current.get? artifactKey = some record →
          record.candidateId ≠ candidate.id) ∧
          promotion = repo.publish candidate artifactKey promotedAt) := by
  unfold Repository.promotion at h
  obtain ⟨candidate, hload, h⟩ := bind_eq_ok.mp h
  refine ⟨candidate, hload, ?_⟩
  cases hready : candidate.report.isReady with
  | false => simp [hready] at h
  | true =>
    simp only [hready, Bool.not_true, Bool.false_eq_true, if_false, check_bind_eq_ok] at h
    obtain ⟨hverify, h⟩ := h
    refine ⟨rfl, hverify, ?_⟩
    cases hcurrent : repo.current.get? artifactKey with
    | none =>
      simp only [hcurrent, Except.ok.injEq] at h
      refine .inr ⟨?_, h.symm⟩
      intro record hget
      cases hget
    | some record =>
      simp only [hcurrent] at h
      split at h
      · rename_i hsame
        exact .inl ⟨record, rfl, hsame, h⟩
      · rename_i hother
        refine .inr ⟨?_, (Except.ok.inj h).symm⟩
        intro other hget
        cases hget
        exact hother

theorem Consistent.loaded_id (h : repo.Consistent) {candidateId : String}
    {candidate : ArtifactCandidate}
    (hload : repo.loadCandidate artifactKey candidateId = .ok candidate) :
    candidate.id = candidateId ∧ candidate.artifactKey = artifactKey := by
  obtain ⟨_, _, files, hfiles, _, rfl⟩ := loadCandidate_eq_ok.mp hload
  exact h.named _ _ _ hfiles

theorem loaded_content {candidateId : String} {candidate : ArtifactCandidate}
    (hload : repo.loadCandidate artifactKey candidateId = .ok candidate) :
    Text.readText candidate.content = candidate.content ∧
      Sha256.sha256 candidate.content = candidate.digest := by
  obtain ⟨_, _, files, _, hdigest, rfl⟩ := loadCandidate_eq_ok.mp hload
  exact ⟨Text.readText_readText _, hdigest.symm⟩

/-- The revision is written before the record that names it. -/
theorem Consistent.promotion_good (h : repo.Consistent) {candidateId promotedAt : String}
    {promotion : Promotion}
    (hpromotion : repo.promotion candidateId artifactKey promotedAt = .ok promotion) :
    AllGood artifactKey repo promotion.writes := by
  obtain ⟨candidate, hload, hready, _, hcase⟩ := promotion_eq_ok hpromotion
  obtain ⟨hread, hdigest⟩ := loaded_content hload
  rcases hcase with ⟨record, _, _, hrepublish⟩ | ⟨_, rfl⟩
  · obtain ⟨ref, _, _, _, rfl⟩ := republish_eq_ok.mp hrepublish
    exact ⟨trivial, trivial⟩
  · refine ⟨⟨rfl, hread⟩, ⟨⟨candidate.content, ?_, hdigest⟩, candidate, ?_, rfl, hready⟩,
      trivial, trivial⟩
    · rw [revisions_write_revision, if_pos rfl, Dict.get?_set, if_pos rfl]
    · rw [(h.loaded_id hload).1]
      exact hload

/-- The calls of a run, among them promotions killed after some of their writes. -/
inductive Operation where
  | writeStaged (staged : StagedWrite)
  | createCandidate (draft : CandidateDraft) (candidateId : String)
  | promote (candidateId artifactKey promotedAt : String)
  | crash (candidateId artifactKey promotedAt : String) (written : Nat)

/-- A refused call leaves the files as they are. -/
def orElse (repo : Repository) : Result Repository → Repository
  | .ok changed => changed
  | .error _ => repo

def step (repo : Repository) : Operation → Repository
  | .writeStaged staged => repo.orElse (repo.writeStaged staged)
  | .createCandidate draft candidateId => repo.orElse (repo.createCandidate draft candidateId)
  | .promote candidateId artifactKey promotedAt =>
      (repo.promoteCandidate candidateId artifactKey promotedAt).2
  | .crash candidateId artifactKey promotedAt written =>
      repo.crashedPromotion candidateId artifactKey promotedAt written

def run (repo : Repository) (ops : List Operation) : Repository := ops.foldl step repo

/-- `write_staged` touches neither candidates nor publications. -/
theorem writeStaged_frame {staged : StagedWrite} (h : repo.writeStaged staged = .ok repo') :
    repo'.candidates = repo.candidates ∧ repo'.revisions = repo.revisions ∧
      repo'.current = repo.current ∧ repo'.projections = repo.projections := by
  unfold writeStaged at h
  simp only [bind_eq_ok, Except.ok.injEq] at h
  obtain ⟨_, _, _, _, _, _, _, _, _, _, _, _, rfl⟩ := h
  exact ⟨rfl, rfl, rfl, rfl⟩

/-- A candidate is only ever added, in a new directory. -/
theorem createCandidate_eq_ok {draft : CandidateDraft} {candidateId : String}
    (h : repo.createCandidate draft candidateId = .ok repo') :
    ∃ checked, repo.candidates.get? (draft.artifactKey, candidateId) = none ∧
      repo' = { repo with
        candidates := repo.candidates.set (draft.artifactKey, candidateId)
          ⟨draft.content, candidateRecord draft candidateId checked⟩ } := by
  unfold createCandidate at h
  simp only [bind_eq_ok] at h
  obtain ⟨_, _, _, _, _, _, _, _, checked, _, _, _, h⟩ := h
  split at h
  · cases h
  · rename_i hnew
    exact ⟨checked, by simpa using hnew, (Except.ok.inj h).symm⟩

theorem writes_frame (artifactKey : String) (writes : List Write) (repo : Repository) :
    (writes.foldl (write artifactKey) repo).candidates = repo.candidates ∧
      (writes.foldl (write artifactKey) repo).outputs = repo.outputs ∧
      (writes.foldl (write artifactKey) repo).manifests = repo.manifests := by
  induction writes generalizing repo with
  | nil => exact ⟨rfl, rfl, rfl⟩
  | cons w ws ih =>
    obtain ⟨hcandidates, houtputs, hmanifests⟩ := ih (write artifactKey repo w)
    cases w with
    | revision | current | projection => exact ⟨hcandidates, houtputs, hmanifests⟩

/-- Nothing happens, an output or a candidate is added, or the first writes of a
promotion are made. -/
theorem step_cases (repo : Repository) (op : Operation) :
    repo.step op = repo ∨
      (∃ staged, repo.writeStaged staged = .ok (repo.step op)) ∨
      (∃ draft candidateId, repo.createCandidate draft candidateId = .ok (repo.step op)) ∨
      ∃ candidateId artifactKey promotedAt written promotion,
        (op = .promote candidateId artifactKey promotedAt ∨
          op = .crash candidateId artifactKey promotedAt written) ∧
        repo.promotion candidateId artifactKey promotedAt = .ok promotion ∧
        repo.step op = (promotion.writes.take written).foldl (write artifactKey) repo := by
  cases op with
  | writeStaged staged =>
    cases hwrite : repo.writeStaged staged with
    | error error => exact .inl (by simp [step, hwrite, orElse])
    | ok changed => exact .inr (.inl ⟨staged, by simp [step, hwrite, orElse]⟩)
  | createCandidate draft candidateId =>
    cases hcreate : repo.createCandidate draft candidateId with
    | error error => exact .inl (by simp [step, hcreate, orElse])
    | ok changed =>
      exact .inr (.inr (.inl ⟨draft, candidateId, by simp [step, hcreate, orElse]⟩))
  | promote candidateId artifactKey promotedAt =>
    cases hpromotion : repo.promotion candidateId artifactKey promotedAt with
    | error error => exact .inl (by simp [step, promoteCandidate, hpromotion])
    | ok promotion =>
      refine .inr (.inr (.inr ⟨candidateId, artifactKey, promotedAt, promotion.writes.length,
        promotion, .inl rfl, hpromotion, ?_⟩))
      simp [step, promoteCandidate, hpromotion]
  | crash candidateId artifactKey promotedAt written =>
    cases hpromotion : repo.promotion candidateId artifactKey promotedAt with
    | error error => exact .inl (by simp [step, crashedPromotion, hpromotion])
    | ok promotion =>
      refine .inr (.inr (.inr ⟨candidateId, artifactKey, promotedAt, written,
        promotion, .inr rfl, hpromotion, ?_⟩))
      simp [step, crashedPromotion, hpromotion]

/-- Candidates are immutable. -/
theorem candidates_step {op : Operation} {id : String × String} {files : CandidateFiles}
    (h : repo.candidates.get? id = some files) :
    (repo.step op).candidates.get? id = some files := by
  rcases step_cases repo op with hsame | ⟨staged, hwrite⟩ | ⟨draft, candidateId, hcreate⟩ |
    ⟨candidateId, artifactKey, promotedAt, written, promotion, _, _, hwrites⟩
  · rw [hsame]
    exact h
  · rw [(writeStaged_frame hwrite).1]
    exact h
  · obtain ⟨checked, hnew, heq⟩ := createCandidate_eq_ok hcreate
    rw [heq]
    have hne : id ≠ (draft.artifactKey, candidateId) := by
      rintro rfl
      rw [hnew] at h
      cases h
    exact (Dict.get?_set ..).trans ((if_neg hne).trans h)
  · rw [hwrites, (writes_frame ..).1]
    exact h

theorem Consistent.step (h : repo.Consistent) (op : Operation) :
    (repo.step op).Consistent ∧ Keeps repo (repo.step op) := by
  rcases step_cases repo op with hsame | ⟨staged, hwrite⟩ | ⟨draft, candidateId, hcreate⟩ |
    ⟨candidateId, artifactKey, promotedAt, written, promotion, _, hpromotion, hwrites⟩
  · rw [hsame]
    exact ⟨h, Keeps.refl repo⟩
  · obtain ⟨hcandidates, hrevisions, hcurrent, _⟩ := writeStaged_frame hwrite
    have hkeeps : Keeps repo (repo.step op) := by
      intro key id text hget
      rw [hrevisions]
      exact hget
    refine ⟨⟨?_, ?_, fun key record hrecord => ?_, ?_⟩, hkeeps⟩
    · rw [hrevisions]
      exact h.numbered
    · rw [hrevisions]
      exact h.readable
    · exact (h.current key record (hcurrent ▸ hrecord)).mono hkeeps fun _ _ => candidates_step
    · rw [hcandidates]
      exact h.named
  · obtain ⟨checked, _, heq⟩ := createCandidate_eq_ok hcreate
    have hkeeps : Keeps repo (repo.step op) := by
      rw [heq]
      exact Keeps.refl repo
    refine ⟨⟨?_, ?_, fun key record hrecord => ?_, fun key id files hfiles => ?_⟩, hkeeps⟩
    · rw [heq]
      exact h.numbered
    · rw [heq]
      exact h.readable
    · rw [heq] at hrecord
      exact (h.current key record hrecord).mono hkeeps fun _ _ => candidates_step
    · rw [heq] at hfiles
      have hget := (Dict.get?_set ..).symm.trans hfiles
      split at hget
      · rename_i hid
        cases hid
        cases hget
        exact ⟨rfl, rfl⟩
      · exact h.named key id files hget
  · rw [hwrites]
    exact h.writes ((h.promotion_good hpromotion).take written)

theorem Consistent.run (h : repo.Consistent) (ops : List Operation) :
    (repo.run ops).Consistent ∧ Keeps repo (repo.run ops) := by
  induction ops generalizing repo with
  | nil => exact ⟨h, Keeps.refl repo⟩
  | cons op ops ih =>
    obtain ⟨hstep, hkeeps⟩ := h.step op
    obtain ⟨hrun, hrest⟩ := ih hstep
    exact ⟨hrun, hkeeps.trans hrest⟩

/-- Nothing was published before; staged outputs and projections may exist. -/
structure Fresh (repo : Repository) : Prop where
  candidates : repo.candidates = ∅
  revisions : repo.revisions = fun _ => ∅
  current : repo.current = ∅

theorem Fresh.consistent (h : repo.Fresh) : repo.Consistent where
  numbered := by simp [h.revisions]
  readable := by simp [h.revisions]
  current := by simp [h.current]
  named := by simp [h.candidates]

/-- The publication of a candidate is complete. -/
structure Published (repo : Repository) (candidate : ArtifactCandidate) (ref : ArtifactRef) :
    Prop where
  loads : repo.loadCandidate candidate.artifactKey candidate.id = .ok candidate
  ready : candidate.report.isReady = true
  current : ∃ record, repo.current.get? candidate.artifactKey = some record ∧
    record.candidateId = candidate.id ∧ record.digest = candidate.digest ∧
    ArtifactRef.published candidate.artifactKey (some record.revisionId) = .ok ref
  projection : repo.projections.get? candidate.artifactKey = some candidate.content

/-- The call does not publish another candidate of the artifact. -/
def Operation.Spares (candidate : ArtifactCandidate) : Operation → Prop
  | .writeStaged _ => True
  | .createCandidate _ _ => True
  | .promote candidateId artifactKey _ =>
      artifactKey = candidate.artifactKey → candidateId = candidate.id
  | .crash candidateId artifactKey _ _ =>
      artifactKey = candidate.artifactKey → candidateId = candidate.id

/-- The writes of a promotion stay within its artifact. -/
theorem writes_other {key : String} (hkey : key ≠ artifactKey) (writes : List Write)
    (repo : Repository) :
    (writes.foldl (write artifactKey) repo).current.get? key = repo.current.get? key ∧
      (writes.foldl (write artifactKey) repo).projections.get? key = repo.projections.get? key := by
  induction writes generalizing repo with
  | nil => exact ⟨rfl, rfl⟩
  | cons w ws ih =>
    obtain ⟨hcurrent, hprojection⟩ := ih (write artifactKey repo w)
    rw [List.foldl_cons, hcurrent, hprojection]
    cases w with
    | revision => exact ⟨rfl, rfl⟩
    | current record => exact ⟨(Dict.get?_set ..).trans (if_neg hkey), rfl⟩
    | projection content => exact ⟨rfl, (Dict.get?_set ..).trans (if_neg hkey)⟩

/-- A reference to a revision reads the revision file. -/
theorem Consistent.loadRef_published (h : repo.Consistent) {revisionId text : String}
    {ref : ArtifactRef} (hname : (filenameFor artifactKey).isOk = true)
    (href : ArtifactRef.published artifactKey (some revisionId) = .ok ref)
    (hget : (repo.revisions artifactKey).get? revisionId = some text) :
    repo.loadRef ref = .ok text := by
  have hfields := ArtifactRef.create_eq_ok.mp href
  have hkey : ref.artifactKey = artifactKey := congrArg RefFields.artifactKey hfields
  have hlayer : ref.layer = "published" := congrArg RefFields.layer hfields
  have hrevision : ref.revisionId = some revisionId := congrArg RefFields.revisionId hfields
  obtain ⟨name, hname⟩ := exists_of_isOk hname
  simp [loadRef, loadPublished, hkey, hlayer, hrevision, hname, hget, h.readable _ _ _ hget]

/-- A promotion of the current candidate finds its revision and keeps the record. -/
theorem Consistent.promotion_again (h : repo.Consistent) {record : CurrentRecord}
    {candidate : ArtifactCandidate} (promotedAt : String)
    (hcurrent : repo.current.get? artifactKey = some record)
    (hload : repo.loadCandidate artifactKey record.candidateId = .ok candidate)
    (hverify : repo.verifyCandidateSources candidate = .ok ()) :
    repo.promotion record.candidateId artifactKey promotedAt =
      (ArtifactRef.published artifactKey (some record.revisionId)).map fun ref =>
        ⟨[.projection candidate.content], .ok ref⟩ := by
  obtain ⟨⟨text, hget, hdigest⟩, other, hother, hcandidate, hready⟩ := h.current _ _ hcurrent
  cases hother.symm.trans hload
  have hid : record.candidateId = candidate.id := (h.loaded_id hload).1.symm
  have hname := (loadCandidate_eq_ok.mp hload).1
  have hrepublish : repo.promotion record.candidateId artifactKey promotedAt =
      repo.republish candidate artifactKey record := by
    unfold Repository.promotion
    rw [hload, ok_bind, hready, hverify, ok_bind, hcurrent]
    exact if_pos hid
  rw [hrepublish]
  cases href : ArtifactRef.published artifactKey (some record.revisionId) with
  | error error => simp [republish, href, Except.map]
  | ok ref =>
    exact republish_eq_ok.mpr ⟨ref, href, hcandidate.symm,
      ⟨text, h.loadRef_published hname href hget, hdigest.trans hcandidate.symm⟩, rfl⟩

/-- No revision is added for the candidate that is already current. -/
theorem Consistent.revisions_again (h : repo.Consistent) {record : CurrentRecord}
    (promotedAt : String) (hcurrent : repo.current.get? artifactKey = some record) :
    (repo.promoteCandidate record.candidateId artifactKey promotedAt).2.revisions =
      repo.revisions := by
  unfold promoteCandidate
  cases hpromotion : repo.promotion record.candidateId artifactKey promotedAt with
  | error error => rfl
  | ok promotion =>
    obtain ⟨candidate, hload, _, _, hcase⟩ := promotion_eq_ok hpromotion
    rcases hcase with ⟨other, _, _, hrepublish⟩ | ⟨hother, _⟩
    · obtain ⟨ref, _, _, _, rfl⟩ := republish_eq_ok.mp hrepublish
      rfl
    · exact absurd (h.loaded_id hload).1.symm (hother record hcurrent)

/-- A promotion that returns has published its candidate. -/
theorem Consistent.published (h : repo.Consistent) {candidateId promotedAt : String}
    {ref : ArtifactRef}
    (hpromote : (repo.promoteCandidate candidateId artifactKey promotedAt).1 = .ok ref) :
    ∃ candidate, repo.loadCandidate artifactKey candidateId = .ok candidate ∧
      repo.verifyCandidateSources candidate = .ok () ∧
      (repo.promoteCandidate candidateId artifactKey promotedAt).2.Published candidate ref := by
  unfold promoteCandidate at hpromote ⊢
  cases hpromotion : repo.promotion candidateId artifactKey promotedAt with
  | error error => simp [hpromotion] at hpromote
  | ok promotion =>
    simp only [hpromotion] at hpromote
    obtain ⟨candidate, hload, hready, hverify, hcase⟩ := promotion_eq_ok hpromotion
    obtain ⟨hid, hkey⟩ := h.loaded_id hload
    subst hid hkey
    refine ⟨candidate, hload, hverify, ?_, hready, ?_, ?_⟩
    · apply loadCandidate_mono hload
      intro id files hfiles
      rw [(writes_frame ..).1]
      exact hfiles
    · rcases hcase with ⟨record, hcurrent, hsame, hrepublish⟩ | ⟨_, rfl⟩
      · obtain ⟨other, hother, hdigest, _, rfl⟩ := republish_eq_ok.mp hrepublish
        exact ⟨record, hcurrent, hsame, hdigest, hother.trans hpromote⟩
      · exact ⟨_, (Dict.get?_set ..).trans (if_pos rfl), rfl, rfl, hpromote⟩
    · rcases hcase with ⟨record, _, _, hrepublish⟩ | ⟨_, rfl⟩
      · obtain ⟨other, _, _, _, rfl⟩ := republish_eq_ok.mp hrepublish
        exact (Dict.get?_set ..).trans (if_pos rfl)
      · exact (Dict.get?_set ..).trans (if_pos rfl)

/-- Calls that spare a candidate leave it published. -/
theorem Published.step {candidate : ArtifactCandidate} {ref : ArtifactRef}
    (h : repo.Published candidate ref) {op : Operation} (hspares : op.Spares candidate) :
    (repo.step op).Published candidate ref := by
  obtain ⟨hload, hready, hcurrent, hprojection⟩ := h
  have hload' : (repo.step op).loadCandidate candidate.artifactKey candidate.id = .ok candidate :=
    loadCandidate_mono hload fun _ _ => candidates_step
  obtain ⟨record, hrecord, hid, hrest⟩ := hcurrent
  suffices hkept : (repo.step op).current.get? candidate.artifactKey =
        repo.current.get? candidate.artifactKey ∧
      (repo.step op).projections.get? candidate.artifactKey = some candidate.content from
    ⟨hload', hready, ⟨record, hkept.1.trans hrecord, hid, hrest⟩, hkept.2⟩
  rcases step_cases repo op with hsame | ⟨staged, hwrite⟩ | ⟨draft, candidateId, hcreate⟩ |
    ⟨candidateId, artifactKey, promotedAt, written, promotion, hop, hpromotion, hwrites⟩
  · rw [hsame]
    exact ⟨rfl, hprojection⟩
  · obtain ⟨_, _, hcurrent, hprojections⟩ := writeStaged_frame hwrite
    rw [hcurrent, hprojections]
    exact ⟨rfl, hprojection⟩
  · obtain ⟨checked, _, heq⟩ := createCandidate_eq_ok hcreate
    rw [heq]
    exact ⟨rfl, hprojection⟩
  · rw [hwrites]
    by_cases hkey : artifactKey = candidate.artifactKey
    · have hsame : candidateId = candidate.id := by
        rcases hop with rfl | rfl
        · exact hspares hkey
        · exact hspares hkey
      subst hkey hsame
      obtain ⟨other, hother, _, _, hcase⟩ := promotion_eq_ok hpromotion
      cases hother.symm.trans hload
      rcases hcase with ⟨_, _, _, hrepublish⟩ | ⟨hnot, _⟩
      · obtain ⟨_, _, _, _, rfl⟩ := republish_eq_ok.mp hrepublish
        cases written with
        | zero => exact ⟨rfl, hprojection⟩
        | succ written =>
          rw [List.take_of_length_le (by simp)]
          exact ⟨rfl, (Dict.get?_set ..).trans (if_pos rfl)⟩
      · exact absurd hid (hnot record hrecord)
    · obtain ⟨hcurrent, hprojections⟩ := writes_other (Ne.symm hkey)
        (promotion.writes.take written) repo
      exact ⟨hcurrent, hprojections.trans hprojection⟩

theorem Published.run {candidate : ArtifactCandidate} {ref : ArtifactRef}
    (h : repo.Published candidate ref) {ops : List Operation}
    (hspares : ∀ op ∈ ops, op.Spares candidate) : (repo.run ops).Published candidate ref := by
  induction ops generalizing repo with
  | nil => exact h
  | cons op ops ih =>
    exact ih (h.step (hspares op List.mem_cons_self)) fun op hop =>
      hspares op (List.mem_cons_of_mem _ hop)

theorem verifyCandidateSources_congr {candidate : ArtifactCandidate}
    (hsources : ∀ source ∈ candidate.sourceRefs, repo'.loadRef source = repo.loadRef source) :
    repo'.verifyCandidateSources candidate = repo.verifyCandidateSources candidate := by
  unfold verifyCandidateSources
  split
  · rfl
  · apply forEach_congr
    intro source hsource
    unfold verifyDigest
    rw [hsources _ (List.of_mem_zip hsource).1]

/-- A published candidate whose sources still verify passes the verification. -/
theorem Published.verified {candidate : ArtifactCandidate} {ref : ArtifactRef}
    (h : repo.Published candidate ref) (hconsistent : repo.Consistent)
    (hverify : repo.verifyCandidateSources candidate = .ok ()) :
    repo.verifyPublishedCandidate candidate = .ok ref := by
  obtain ⟨record, hrecord, hid, hdigest, href⟩ := h.current
  obtain ⟨⟨text, hget, htext⟩, _⟩ := hconsistent.current _ _ hrecord
  obtain ⟨hread, hcontent⟩ := loaded_content h.loads
  have hname := (loadCandidate_eq_ok.mp h.loads).1
  have hloaded := hconsistent.loadRef_published hname href hget
  obtain ⟨name, hname⟩ := exists_of_isOk hname
  have hprojection : repo.loadProjection candidate.artifactKey = .ok candidate.content := by
    simp [loadProjection, hname, h.projection, hread]
  simp [verifyPublishedCandidate, hverify, h.ready, hrecord, hid, hdigest, href, hloaded,
    hprojection, htext, hcontent]

theorem isAsciiDigit_of_mem_zeroPadded {width number : Nat} {c : Char}
    (h : c ∈ Text.zeroPadded width number) : Text.isAsciiDigit c = true := by
  rcases List.mem_append.mp h with hzero | hdigit
  · rw [List.eq_of_mem_replicate hzero]
    rfl
  · have := Nat.isDigit_of_mem_toDigits (by omega) (by omega) hdigit
    unfold Char.isDigit at this
    simpa [Text.isAsciiDigit, Char.le_def] using this

/-- The identifier of a revision is a safe one up to 124 digits. -/
theorem safeId_revisionId {number : Nat} (h : number < 10 ^ 124) :
    safeId (revisionId number) = true := by
  have hlength : (Text.zeroPadded 3 number).length ≤ 124 := by
    have := (Nat.length_toDigits_le_iff (b := 10) (k := 124) (by omega) (by omega)).mpr h
    simp only [Text.zeroPadded, List.length_append, List.length_replicate]
    omega
  have hsafe : (Text.zeroPadded 3 number).all Text.isSafeChar = true := by
    rw [List.all_eq_true]
    intro c hc
    have := isAsciiDigit_of_mem_zeroPadded hc
    unfold Text.isAsciiDigit at this
    simp [Text.isSafeChar, this]
  have hlist : (revisionId number).toList = 'r' :: 'e' :: 'v' :: '-' :: Text.zeroPadded 3 number := by
    simp [revisionId]
  simp only [safeId, hlist, List.length_cons, List.all_cons, hsafe]
  simp only [Bool.and_true, Bool.and_eq_true, decide_eq_true_eq]
  exact ⟨⟨by decide, by omega⟩, by decide⟩

theorem safeId_of_filename (h : (filenameFor artifactKey).isOk = true) :
    safeId artifactKey = true := by
  obtain ⟨name, hname⟩ := exists_of_isOk h
  unfold filenameFor at hname
  split at hname
  · rename_i hlookup
    have hknown : ∀ entry ∈ filenames, safeId entry.1 = true := by decide
    obtain ⟨before, after, hentries, _⟩ := List.lookup_eq_some_iff.mp hlookup
    exact hknown (artifactKey, _) (hentries ▸ List.mem_append_cons_self)
  · cases hname

/-- The reference to the current revision can be built. -/
theorem Consistent.current_ref (h : repo.Consistent) {record : CurrentRecord}
    (hcurrent : repo.current.get? artifactKey = some record)
    (hcount : (repo.revisions artifactKey).entries.length < 10 ^ 124) :
    ∃ ref, ArtifactRef.published artifactKey (some record.revisionId) = .ok ref := by
  obtain ⟨⟨text, hget, _⟩, candidate, hload, _⟩ := h.current _ _ hcurrent
  have hkey := safeId_of_filename (loadCandidate_eq_ok.mp hload).1
  have hmem := Dict.mem_keys_iff.mpr ⟨text, hget⟩
  rw [h.numbered, List.mem_map] at hmem
  obtain ⟨i, hi, hid⟩ := hmem
  have hrevision : safeId record.revisionId = true := by
    rw [← hid]
    apply safeId_revisionId
    have := List.mem_range.mp hi
    omega
  apply ArtifactRef.create_isOk_iff.mpr
  simp [RefFields.postInit, validateId, hkey, hrevision]

/-- What may be relied on between two calls: revision files stay as they are, the
current record names one with its digest, its candidate is not published twice, and
what a promotion returned is confirmed. -/
structure Sound (repo : Repository) : Prop where
  kept : ∀ more, Keeps repo (repo.run more)
  current : ∀ key record, repo.current.get? key = some record →
    ∃ text, (repo.revisions key).get? record.revisionId = some text ∧
      Sha256.sha256 text = record.digest
  again : ∀ key record promotedAt, repo.current.get? key = some record →
    (repo.promoteCandidate record.candidateId key promotedAt).2.revisions = repo.revisions ∧
      ∃ candidate, repo.loadCandidate key record.candidateId = .ok candidate ∧
        (repo.verifyCandidateSources candidate = .ok () →
          (repo.promoteCandidate record.candidateId key promotedAt).1 =
            ArtifactRef.published key (some record.revisionId))
  referable : ∀ key record, repo.current.get? key = some record →
    (repo.revisions key).entries.length < 10 ^ 124 →
      ∃ ref, ArtifactRef.published key (some record.revisionId) = .ok ref
  verified : ∀ candidateId key promotedAt ref,
    (repo.promoteCandidate candidateId key promotedAt).1 = .ok ref →
      ∃ candidate, repo.loadCandidate key candidateId = .ok candidate ∧
        ∀ more : List Operation, (∀ op ∈ more, op.Spares candidate) →
          let later := (repo.promoteCandidate candidateId key promotedAt).2.run more
          (∀ source ∈ candidate.sourceRefs, later.loadRef source = repo.loadRef source) →
            later.verifyPublishedCandidate candidate = .ok ref

/-- Every run over a repository that had published nothing keeps to this. -/
theorem publication_sound {start : Repository} (hstart : start.Fresh) (ops : List Operation) :
    (start.run ops).Sound := by
  have h := (hstart.consistent.run ops).1
  refine ⟨fun more => (h.run more).2, fun key record hrecord => (h.current key record hrecord).1,
    fun key record promotedAt hrecord => ⟨h.revisions_again promotedAt hrecord, ?_⟩,
    fun _ _ hrecord hcount => h.current_ref hrecord hcount, ?_⟩
  · obtain ⟨_, candidate, hload, _⟩ := h.current key record hrecord
    refine ⟨candidate, hload, fun hverify => ?_⟩
    unfold promoteCandidate
    rw [h.promotion_again promotedAt hrecord hload hverify]
    cases ArtifactRef.published key (some record.revisionId) with
    | error error => rfl
    | ok ref => rfl
  · intro candidateId key promotedAt ref hpromote
    obtain ⟨candidate, hload, hverify, hpublished⟩ := h.published hpromote
    refine ⟨candidate, hload, fun more hspares hsources => ?_⟩
    have hafter : ((start.run ops).promoteCandidate candidateId key promotedAt).2.Consistent :=
      (h.step (.promote candidateId key promotedAt)).1
    apply (hpublished.run hspares).verified (hafter.run more).1
    rw [verifyCandidateSources_congr hsources]
    exact hverify

def reviewOutput : StagedWrite where
  traceId := "t"
  workItemId := "w"
  artifactKey := "review"
  slot := "out"
  content := "ok"

def reviewDraft : CandidateDraft where
  traceId := "t"
  workItemId := "w"
  artifactKey := "review"
  content := "ok"
  sourceRefs := [⟨{
    artifactKey := "review"
    layer := "staged"
    traceId := some "t"
    workItemId := some "w"
    slot := some "out" }, by decide⟩]

/-- A review is published by a promotion that is killed before the projection and
then repeated. -/
def publishReview : List Operation := [
  .writeStaged reviewOutput,
  .createCandidate reviewDraft "c1",
  .crash "c1" "review" "now" 2,
  .promote "c1" "review" "later"]

theorem publishReview_sound : (run {} publishReview).Sound ∧
    ((run {} publishReview).revisions "review").keys = ["rev-001"] ∧
    ((run {} publishReview).current.get? "review").map (·.revisionId) = some "rev-001" :=
  ⟨publication_sound ⟨rfl, rfl, rfl⟩ publishReview, by decide +kernel, by decide +kernel⟩

end Repository
end ProjectOS.Artifact
