import ProjectOS.ToolManager.GrantMeaning
import ProjectOS.ToolManager.GrantRace

/-! No update of a grant is lost as long as each write finds the active entries that its
call read. -/
namespace ProjectOS.ToolManager
open Base CapabilityGrant CapabilityGrantStore

/-- The grants a file is for. -/
def GrantFile.Home : GrantFile → CapabilityGrant → Prop
  | .project => InProject
  | .trace traceId => InTrace traceId

theorem home_iff {grant : CapabilityGrant} {file : GrantFile} :
    file.Home grant ↔ grant.home = file := by
  unfold CapabilityGrant.home
  cases file with
  | project =>
    change grant.scope = .project ↔ _
    split
    · exact iff_of_true ‹_› rfl
    · exact iff_of_false ‹_› nofun
  | trace traceId =>
    change grant.scope ≠ .project ∧ grant.traceId = traceId ↔ _
    split
    · exact iff_of_false (fun h => h.1 ‹_›) nofun
    · rw [GrantFile.trace.injEq]
      exact and_iff_right ‹_›

@[simp] theorem home_reread (grant : CapabilityGrant) : grant.reread.home = grant.home := rfl

theorem ActiveAt.earlier {calendar : Calendar} {now later : Int} {grant : CapabilityGrant}
    (hlater : now ≤ later) (h : grant.ActiveAt calendar later) : grant.ActiveAt calendar now :=
  ⟨h.1, lapsed_mono hlater h.2⟩

/-- The content without the target, as far as entries are active. -/
def Trims (calendar : Calendar) (now : Int) (target : Option String)
    (seen next : List CapabilityGrant) : Prop :=
  ∀ entry, entry.ActiveAt calendar now → (entry ∈ next ↔ entry ∈ seen ∧ target ≠ some entry.grantId)

theorem trims_filter {calendar : Calendar} {now : Int} {seen : List CapabilityGrant}
    {keep : CapabilityGrant → Bool} (h : ∀ entry, entry.ActiveAt calendar now → keep entry = true) :
    Trims calendar now none seen (seen.filter keep) := by
  intro entry hactive
  rw [List.mem_filter, and_iff_left (h entry hactive), and_iff_left nofun]

theorem trims_mark {calendar : Calendar} {now : Int} {seen : List CapabilityGrant}
    {grantId : String} : Trims calendar now (some grantId) seen (mark grantId seen) := by
  intro entry hactive
  constructor
  · intro hentry
    obtain ⟨hmem, hne⟩ := mark_active hentry hactive.1
    exact ⟨hmem, fun heq => hne (Option.some.inj heq).symm⟩
  · rintro ⟨hmem, hne⟩
    exact mem_mark hmem fun heq => hne (congrArg some heq.symm)

namespace Race
variable {ι : Type} {calendar : Calendar} {calls : ι → StoreCall} {race race' : Race ι}
  {before seen : List CapabilityGrant} {call : StoreCall} {ledger : Ledger} {traceId : String}

/-- The grants of the file that were there before, and are neither revoked nor over. -/
def Expects (calendar : Calendar) (calls : ι → StoreCall) (race : Race ι)
    (before : List CapabilityGrant) (file : GrantFile) (seen : List CapabilityGrant) : Prop :=
  ∀ grant ∈ before, grant.home = file → ¬ race.Revoking calls grant.grantId →
    lapsed calendar race.now grant.expiresAt = false → grant ∈ seen

/-- The two files as a store of the trace may have read them. -/
structure Reads (calendar : Calendar) (calls : ι → StoreCall) (race : Race ι) (traceId : String)
    (before : List CapabilityGrant) (seen : Ledger) : Prop where
  project : Holding race.made InProject seen.project
  trace : Holding race.made (InTrace traceId) seen.trace
  expectsProject : race.Expects calendar calls before .project seen.project
  expectsTrace : race.Expects calendar calls before (.trace traceId) seen.trace
  made : ∀ grant ∈ before, grant ∈ race.made

/-- What the answer of a call says about the grants. -/
def Answered (calendar : Calendar) (calls : ι → StoreCall) (race : Race ι) (traceId : String)
    (before : List CapabilityGrant) : Answer → Prop
  | .listed grants => ∀ grant ∈ before, grant.home = .project ∨ grant.home = .trace traceId →
      ¬ race.Revoking calls grant.grantId → lapsed calendar race.now grant.expiresAt = false →
        grant ∈ grants
  | .granted grant => ∃ made ∈ race.made, made.grantId = grant.grantId ∧ made.home = grant.home ∧
      ∀ now, lapsed calendar now made.expiresAt = lapsed calendar now grant.expiresAt
  | .revoked _ => True

/-- What the call revokes was made, for a file that it writes. -/
def Known (race : Race ι) (call : StoreCall) : Prop :=
  ∀ grantId, call.target = some grantId → ∃ grant ∈ race.made, grant.grantId = grantId ∧
    (grant.home = .project ∨ grant.home = .trace call.traceId)

/-- What a call is about to write. -/
structure Rewrites (calendar : Calendar) (calls : ι → StoreCall) (race : Race ι) (call : StoreCall)
    (before : List CapabilityGrant) (seen next : Ledger) (answer : Answer) : Prop where
  project : Holding race.made InProject next.project
  trace : Holding race.made (InTrace call.traceId) next.trace
  trimsProject : Trims calendar race.now call.target seen.project next.project
  trimsTrace : Trims calendar race.now call.target seen.trace next.trace
  answered : race.Answered calendar calls call.traceId before answer
  known : race.Known call

/-- A grant on its way to its file. -/
def Pending (call : StoreCall) (grant : CapabilityGrant) : Prop :=
  ∃ traceId made, call = .grant traceId made ∧ grant.grantId = "grant-" ++ made.hex ∧
    grant.status = .active

def PhaseSound (calendar : Calendar) (calls : ι → StoreCall) (race : Race ι) (call : StoreCall) :
    Phase → Prop
  | .idle => True
  | .readProject before project =>
      Holding race.made InProject project ∧ race.Expects calendar calls before .project project ∧
        ∀ grant ∈ before, grant ∈ race.made
  | .readBoth before seen => race.Reads calendar calls call.traceId before seen
  | .rewriteProject before seen next answer =>
      race.Rewrites calendar calls call before seen next answer
  | .rewriteTrace before seen next answer =>
      race.Rewrites calendar calls call before seen next answer
  | .readTarget _ grant => Pending call grant
  | .append _ grant seen => Pending call grant ∧ Holding race.made grant.home.Home seen
  | .returned before answer =>
      race.Answered calendar calls call.traceId before answer ∧ race.Known call
  | .raised => ∀ traceId includeInactive, call ≠ .list traceId includeInactive

/-- A later race: more grants are made or revoked, and time has passed. -/
structure Later (calls : ι → StoreCall) (race race' : Race ι) : Prop where
  made : ∃ added, race'.made = race.made ++ added
  now : race.now ≤ race'.now
  revoking : ∀ grantId, race.Revoking calls grantId → race'.Revoking calls grantId

theorem Later.mem_made (h : Later calls race race') {grant : CapabilityGrant}
    (hgrant : grant ∈ race.made) : grant ∈ race'.made := by
  obtain ⟨added, hadded⟩ := h.made
  rw [hadded]
  exact List.mem_append_left _ hgrant

theorem Later.holding (h : Later calls race race') {home : CapabilityGrant → Prop}
    (hholding : Holding race.made home seen) : Holding race'.made home seen := by
  obtain ⟨added, hadded⟩ := h.made
  rw [hadded]
  exact hholding.grow added

theorem Later.expects (h : Later calls race race') {file : GrantFile}
    (hexpects : race.Expects calendar calls before file seen) :
    race'.Expects calendar calls before file seen := by
  intro grant hgrant hhome hrevoking hlapsed
  exact hexpects grant hgrant hhome (fun hold => hrevoking (h.revoking _ hold))
    (lapsed_mono h.now hlapsed)

theorem Later.trims (h : Later calls race race') {target : Option String}
    {next : List CapabilityGrant} (htrims : Trims calendar race.now target seen next) :
    Trims calendar race'.now target seen next :=
  fun entry hactive => htrims entry (ActiveAt.earlier h.now hactive)

theorem Later.known (h : Later calls race race') (hknown : race.Known call) : race'.Known call := by
  intro grantId htarget
  obtain ⟨grant, hgrant, hrest⟩ := hknown grantId htarget
  exact ⟨grant, h.mem_made hgrant, hrest⟩

theorem Later.answered (h : Later calls race race') {answer : Answer}
    (hanswered : race.Answered calendar calls traceId before answer) :
    race'.Answered calendar calls traceId before answer := by
  cases answer with
  | listed grants =>
    intro grant hgrant hhome hrevoking hlapsed
    exact hanswered grant hgrant hhome (fun hold => hrevoking (h.revoking _ hold))
      (lapsed_mono h.now hlapsed)
  | granted grant =>
    obtain ⟨made, hmade, hrest⟩ := hanswered
    exact ⟨made, h.mem_made hmade, hrest⟩
  | revoked grant => trivial

theorem Later.rewrites (h : Later calls race race') {next : Ledger} {answer : Answer}
    (hrewrites : race.Rewrites calendar calls call before ledger next answer) :
    race'.Rewrites calendar calls call before ledger next answer :=
  ⟨h.holding hrewrites.project, h.holding hrewrites.trace, h.trims hrewrites.trimsProject,
    h.trims hrewrites.trimsTrace, h.answered hrewrites.answered, h.known hrewrites.known⟩

theorem Later.phaseSound (h : Later calls race race') {phase : Phase}
    (hphase : race.PhaseSound calendar calls call phase) :
    race'.PhaseSound calendar calls call phase := by
  cases phase with
  | idle => trivial
  | readProject before project => exact ⟨h.holding hphase.1, h.expects hphase.2.1, fun grant hgrant => h.mem_made (hphase.2.2 grant hgrant)⟩
  | readBoth before seen =>
    exact ⟨h.holding hphase.project, h.holding hphase.trace, h.expects hphase.expectsProject,
      h.expects hphase.expectsTrace, fun grant hgrant => h.mem_made (hphase.made grant hgrant)⟩
  | rewriteProject before seen next answer => exact h.rewrites hphase
  | rewriteTrace before seen next answer => exact h.rewrites hphase
  | readTarget before grant => exact hphase
  | append before grant seen => exact ⟨hphase.1, h.holding hphase.2⟩
  | returned before answer => exact ⟨h.answered hphase.1, h.known hphase.2⟩
  | raised => exact hphase

/-- A store of the trace finds what it expects in one file or the other. -/
theorem Reads.mem (h : race.Reads calendar calls traceId before ledger) {grant : CapabilityGrant}
    (hgrant : grant ∈ before) (hhome : grant.home = .project ∨ grant.home = .trace traceId)
    (hrevoking : ¬ race.Revoking calls grant.grantId)
    (hlapsed : lapsed calendar race.now grant.expiresAt = false) :
    grant ∈ ledger.project ++ ledger.trace := by
  rcases hhome with hhome | hhome
  · exact List.mem_append_left _ (h.expectsProject grant hgrant hhome hrevoking hlapsed)
  · exact List.mem_append_right _ (h.expectsTrace grant hgrant hhome hrevoking hlapsed)

/-- The phase that a decision leads to. -/
def DecisionSound (calendar : Calendar) (calls : ι → StoreCall) (race : Race ι) (call : StoreCall)
    (before : List CapabilityGrant) (seen : Ledger) : Decision → Prop
  | .raised => ∀ traceId includeInactive, call ≠ .list traceId includeInactive
  | .returned answer => race.Answered calendar calls call.traceId before answer ∧ call.target = none
  | .rewrite next answer => race.Rewrites calendar calls call before seen next answer
  | .add grant => Pending call grant

theorem list_sound (hids : Minted race.made)
    (hzoned : ∀ grant ∈ race.made, Zoned calendar grant.expiresAt)
    (h : race.Reads calendar calls traceId before ledger) (includeInactive : Bool) :
    race.DecisionSound calendar calls (.list traceId includeInactive) before ledger
      ((StoreCall.list traceId includeInactive).decide calendar race.now ledger) := by
  have hsound : CapabilityGrantStore.Sound race.made traceId ledger := ⟨hids, h.project, h.trace⟩
  obtain ⟨written, hlist, hkept⟩ := @CapabilityGrantStore.Sound.list_eq _ _ _ _ race.now hsound hzoned includeInactive
  have hanswered : race.Answered calendar calls traceId before (.listed
      (if includeInactive then ledger.project ++ ledger.trace
        else (ledger.project ++ ledger.trace).filter fun entry =>
          entry.status = .active && !lapsed calendar race.now entry.expiresAt)) := by
    intro grant hgrant hhome hrevoking hlapsed
    have hmem := h.mem hgrant hhome hrevoking hlapsed
    split
    · exact hmem
    · exact List.mem_filter.mpr ⟨hmem, by simp [hids.active grant (h.made grant hgrant), hlapsed]⟩
  unfold StoreCall.decide
  dsimp only
  rw [hlist]
  cases written with
  | none => exact ⟨hanswered, rfl⟩
  | some kept =>
    have hkeeps (entry : CapabilityGrant) (hactive : entry.ActiveAt calendar race.now) :
        (entry.status = .active && !lapsed calendar race.now entry.expiresAt ||
          entry.status = .revoked) = true := by
      simp [hactive.1, hactive.2]
    dsimp only
    rw [hkept kept rfl, hsound.writeAll_filter]
    exact ⟨h.project.filter _, h.trace.filter _, trims_filter hkeeps, trims_filter hkeeps,
      hanswered, nofun⟩

theorem grant_sound (hids : Minted race.made)
    (hzoned : ∀ grant ∈ race.made, Zoned calendar grant.expiresAt)
    (h : race.Reads calendar calls traceId before ledger) (made : GrantCall) :
    race.DecisionSound calendar calls (.grant traceId made) before ledger
      ((StoreCall.grant traceId made).decide calendar race.now ledger) := by
  have hsound : CapabilityGrantStore.Sound race.made traceId ledger := ⟨hids, h.project, h.trace⟩
  unfold StoreCall.decide
  dsimp only
  split
  · rename_i found hgrant
    obtain ⟨scope, -, ⟨existing, heq, hfind⟩ | ⟨_, heq, -⟩⟩ := hsound.grant_ok hzoned hgrant
    · cases heq
      have hentry := List.mem_of_find?_eq_some hfind
      have hactive := List.find?_some hfind
      simp only [Bool.and_eq_true, decide_eq_true_eq] at hactive
      have hminted : found ∈ race.made := by
        rcases List.mem_append.mp hentry with hmem | hmem
        · exact (h.project.active hmem hactive.1.1).1
        · exact (h.trace.active hmem hactive.1.1).1
      exact ⟨⟨found, hminted, rfl, rfl, fun _ => rfl⟩, rfl⟩
    · cases heq
  · rename_i added hgrant
    obtain ⟨scope, -, ⟨_, heq, -⟩ | ⟨fresh, heq, hid, hactive, -⟩⟩ := hsound.grant_ok hzoned hgrant
    · cases heq
    · cases heq
      exact ⟨traceId, made, rfl, hid, hactive⟩
  · intro _ _ heq
    cases heq

theorem revoke_sound (hids : Minted race.made)
    (hzoned : ∀ grant ∈ race.made, Zoned calendar grant.expiresAt)
    (h : race.Reads calendar calls traceId before ledger) (grantId : String) :
    race.DecisionSound calendar calls (.revoke traceId grantId) before ledger
      ((StoreCall.revoke traceId grantId).decide calendar race.now ledger) := by
  have hsound : CapabilityGrantStore.Sound race.made traceId ledger := ⟨hids, h.project, h.trace⟩
  unfold StoreCall.decide
  dsimp only
  split
  · rename_i revoked grants hrevoke
    unfold CapabilityGrantStore.revoke at hrevoke
    obtain ⟨_, hlist, hrevoke⟩ := bind_eq_ok.mp hrevoke
    obtain ⟨written, heq, -⟩ := @CapabilityGrantStore.Sound.list_eq _ _ _ _ race.now hsound hzoned true
    cases heq.symm.trans hlist
    rw [if_pos rfl] at hrevoke
    dsimp only at hrevoke
    split at hrevoke
    · rename_i found hfound
      cases hrevoke
      obtain ⟨-, -, hmark, hin⟩ := revokeFirst_eq_some hsound.nodup hfound
      dsimp only at hmark
      rw [hmark]
      change race.Rewrites calendar calls (.revoke traceId grantId) before ledger
        (writeAll (mark grantId (ledger.project ++ ledger.trace))) _
      rw [hsound.writeAll_mark]
      refine ⟨h.project.mark grantId, h.trace.mark grantId, trims_mark, trims_mark, trivial, ?_⟩
      intro id htarget
      cases htarget
      obtain ⟨entry, hentry, hid⟩ := List.mem_map.mp hin
      rcases List.mem_append.mp hentry with hmem | hmem
      · obtain ⟨grant, hgrant, hhome, hsame, -⟩ := h.project.fields hmem
        exact ⟨grant, hgrant, hsame.symm.trans hid, .inl (home_iff.mp hhome)⟩
      · obtain ⟨grant, hgrant, hhome, hsame, -⟩ := h.trace.fields hmem
        exact ⟨grant, hgrant, hsame.symm.trans hid, .inr (home_iff.mp hhome)⟩
    · cases hrevoke
  · intro _ _ heq
    cases heq

theorem decide_sound (hids : Minted race.made)
    (hzoned : ∀ grant ∈ race.made, Zoned calendar grant.expiresAt)
    (h : race.Reads calendar calls call.traceId before ledger) :
    race.DecisionSound calendar calls call before ledger
      (call.decide calendar race.now ledger) := by
  cases call with
  | list traceId includeInactive => exact list_sound hids hzoned h includeInactive
  | grant traceId made => exact grant_sound hids hzoned h made
  | revoke traceId grantId => exact revoke_sound hids hzoned h grantId

/-- The files in which the target of a call is no longer active. -/
def Cleared (traceId : String) (file : GrantFile) : Phase → Prop
  | .rewriteTrace .. => file = .project
  | .returned .. => file = .project ∨ file = .trace traceId
  | _ => False

theorem PhaseSound.known {file : GrantFile} {phase : Phase}
    (h : race.PhaseSound calendar calls call phase) (hcleared : Cleared traceId file phase) :
    race.Known call := by
  cases phase with
  | rewriteTrace before seen next answer => exact Rewrites.known h
  | returned before answer => exact h.2
  | _ => cases hcleared

structure Sound (calendar : Calendar) (calls : ι → StoreCall) (race : Race ι) : Prop where
  ids : Minted race.made
  zoned : ∀ grant ∈ race.made, Zoned calendar grant.expiresAt
  origin : ∀ grant ∈ race.made, ∃ i traceId made before answer, calls i = .grant traceId made ∧
    grant.grantId = "grant-" ++ made.hex ∧ race.phase i = .returned before answer
  files : ∀ file, Holding race.made file.Home (race.files file)
  phases : ∀ i, race.PhaseSound calendar calls (calls i) (race.phase i)
  kept : ∀ file, race.Expects calendar calls race.made file (race.files file)
  gone : ∀ i grantId, (calls i).target = some grantId → ∀ file,
    Cleared (calls i).traceId file (race.phase i) → ∀ entry ∈ race.files file,
      entry.grantId = grantId → ¬ entry.ActiveAt calendar race.now

theorem Sound.start (now : Int) : Sound calendar calls { now := now } :=
  ⟨⟨List.nodup_nil, nofun, nofun⟩, nofun, nofun, fun _ => .empty, fun _ => trivial,
    fun _ _ => nofun, fun _ _ _ _ => nofun⟩

theorem Sound.tick (h : race.Sound calendar calls) (duration : Nat) :
    (race.tick duration).Sound calendar calls := by
  have hlater : Later calls race (race.tick duration) :=
    ⟨⟨[], (List.append_nil _).symm⟩, by dsimp only [Race.tick]; omega, fun _ => id⟩
  refine ⟨h.ids, h.zoned, h.origin, h.files, fun i => hlater.phaseSound (h.phases i),
    fun file => hlater.expects (h.kept file), fun i grantId htarget file hcleared entry hentry hid
      hactive => ?_⟩
  exact h.gone i grantId htarget file hcleared entry hentry hid (ActiveAt.earlier hlater.now hactive)

variable [DecidableEq ι]

/-- A file is written, grants are added, and the call is in its next phase. -/
def wrote (race : Race ι) (i : ι) (file : GrantFile) (content added : List CapabilityGrant)
    (phase : Phase) : Race ι :=
  ({ race with made := race.made ++ added }.put file content).goto i phase

theorem wrote_phase {i j : ι} {file : GrantFile} {content added : List CapabilityGrant}
    {phase : Phase} : (race.wrote i file content added phase).phase j =
      if j = i then phase else race.phase j := Function.update_apply ..

theorem wrote_files {i : ι} {file file' : GrantFile} {content added : List CapabilityGrant}
    {phase : Phase} : (race.wrote i file content added phase).files file' =
      if file' = file then content else race.files file' := Function.update_apply ..

theorem later_wrote {i : ι} {file : GrantFile} {content added : List CapabilityGrant} {phase : Phase}
    (hdecided : (race.phase i).decided = true → phase.decided = true) :
    Later calls race (race.wrote i file content added phase) := by
  refine ⟨⟨added, rfl⟩, le_refl _, ?_⟩
  rintro grantId ⟨j, htarget, hphase⟩
  refine ⟨j, htarget, ?_⟩
  rw [wrote_phase]
  split
  · rename_i hij
    exact hdecided (hij ▸ hphase)
  · exact hphase

/-- What one step of a call has to keep. -/
structure Keeps (calendar : Calendar) (calls : ι → StoreCall) (race : Race ι) (i : ι)
    (file : GrantFile) (content added : List CapabilityGrant) (phase : Phase) : Prop where
  unfinished : ∀ before answer, race.phase i ≠ .returned before answer
  decided : (race.phase i).decided = true → phase.decided = true
  ids : Minted (race.made ++ added)
  zoned : ∀ grant ∈ added, Zoned calendar grant.expiresAt
  origin : ∀ grant ∈ added, ∃ traceId made before answer, calls i = .grant traceId made ∧
    grant.grantId = "grant-" ++ made.hex ∧ phase = .returned before answer
  holding : Holding (race.made ++ added) file.Home content
  back : ∀ entry ∈ content, entry.ActiveAt calendar race.now →
    entry ∈ race.files file ∨ entry ∈ added
  forth : ∀ entry ∈ race.files file, entry.ActiveAt calendar race.now →
    (phase.decided = true → (calls i).target ≠ some entry.grantId) → entry ∈ content
  mem : ∀ grant ∈ added, grant.home = file ∧ grant ∈ content
  sound : (race.wrote i file content added phase).PhaseSound calendar calls (calls i) phase
  cleared : ∀ grantId, (calls i).target = some grantId → ∀ file',
    Cleared (calls i).traceId file' phase → ¬ Cleared (calls i).traceId file' (race.phase i) →
      file' = file ∧ ∀ entry ∈ content, entry.grantId = grantId → ¬ entry.ActiveAt calendar race.now

theorem Sound.wrote {i : ι} {file : GrantFile} {content added : List CapabilityGrant} {phase : Phase}
    (h : race.Sound calendar calls) (hkeeps : race.Keeps calendar calls i file content added phase) :
    (race.wrote i file content added phase).Sound calendar calls := by
  have hlater : Later calls race (race.wrote i file content added phase) :=
    later_wrote hkeeps.decided
  refine ⟨hkeeps.ids, fun grant hgrant => ?_, fun grant hgrant => ?_, fun file' => ?_, fun j => ?_,
    fun file' grant hgrant hhome hrevoking hlapsed => ?_,
    fun j grantId htarget file' hcleared entry hentry hid hactive => ?_⟩
  · rcases List.mem_append.mp hgrant with hold | hnew
    · exact h.zoned grant hold
    · exact hkeeps.zoned grant hnew
  · rcases List.mem_append.mp hgrant with hold | hnew
    · obtain ⟨j, traceId, made, before, answer, hcall, hid, hphase⟩ := h.origin grant hold
      refine ⟨j, traceId, made, before, answer, hcall, hid, ?_⟩
      rw [wrote_phase, if_neg, hphase]
      rintro rfl
      exact hkeeps.unfinished before answer hphase
    · obtain ⟨traceId, made, before, answer, hcall, hid, hphase⟩ := hkeeps.origin grant hnew
      exact ⟨i, traceId, made, before, answer, hcall, hid, by rw [wrote_phase, if_pos rfl, hphase]⟩
  · rw [wrote_files]
    split
    · rename_i hfile
      exact hfile ▸ hkeeps.holding
    · exact hlater.holding (h.files file')
  · rw [wrote_phase]
    split
    · rename_i hij
      exact hij ▸ hkeeps.sound
    · exact hlater.phaseSound (h.phases j)
  · have hold (hmem : grant ∈ race.made) : grant ∈ race.files file' := by
      refine h.kept file' grant hmem hhome (fun hbefore => hrevoking (hlater.revoking _ hbefore)) ?_
      exact hlapsed
    rw [wrote_files]
    rcases List.mem_append.mp hgrant with hmem | hnew
    · split
      · rename_i hfile
        refine hkeeps.forth grant (hfile ▸ hold hmem) ⟨h.ids.active grant hmem, hlapsed⟩ ?_
        intro hdecided htarget
        exact hrevoking ⟨i, htarget, by rw [wrote_phase, if_pos rfl, hdecided]⟩
      · exact hold hmem
    · obtain ⟨hfile, hcontent⟩ := hkeeps.mem grant hnew
      rw [if_pos (hhome.symm.trans hfile)]
      exact hcontent
  · -- an active entry was active before, or is new and so nobody's target
    have hstill (hcleared : Cleared (calls j).traceId file' (race.phase j)) : False := by
      have hnew : entry ∉ added := by
        intro hadded
        obtain ⟨grant, hgrant, hsame, -⟩ := (h.phases j).known hcleared grantId htarget
        have hnodup := hkeeps.ids.nodup
        rw [List.map_append, List.nodup_append] at hnodup
        exact hnodup.2.2 grant.grantId (List.mem_map_of_mem hgrant) entry.grantId
          (List.mem_map_of_mem hadded) (hsame.trans hid.symm)
      rw [wrote_files] at hentry
      split at hentry
      · rename_i hfile
        rcases hkeeps.back entry hentry hactive with hold | hadded
        · exact h.gone j grantId htarget file' hcleared entry (hfile ▸ hold) hid hactive
        · exact hnew hadded
      · exact h.gone j grantId htarget file' hcleared entry hentry hid hactive
    rw [wrote_phase] at hcleared
    split at hcleared
    · rename_i hij
      subst hij
      by_cases hbefore : Cleared (calls j).traceId file' (race.phase j)
      · exact hstill hbefore
      · obtain ⟨hfile, hcontent⟩ := hkeeps.cleared grantId htarget file' hcleared hbefore
        rw [wrote_files, if_pos hfile] at hentry
        exact hcontent entry hentry hid hactive
    · exact hstill hcleared

theorem wrote_nil (race : Race ι) (i : ι) (file : GrantFile) (content : List CapabilityGrant)
    (phase : Phase) : race.wrote i file content [] phase = (race.put file content).goto i phase := by
  rw [wrote, List.append_nil]

theorem goto_eq_wrote (race : Race ι) (i : ι) (phase : Phase) :
    race.goto i phase = race.wrote i .project (race.files .project) [] phase := by
  rw [wrote_nil, put, Function.update_eq_self]

/-- A step that writes no file. -/
theorem Sound.goto {i : ι} {phase : Phase} (h : race.Sound calendar calls)
    (hunfinished : ∀ before answer, race.phase i ≠ .returned before answer)
    (hdecided : (race.phase i).decided = true → phase.decided = true)
    (hphase : race.PhaseSound calendar calls (calls i) phase)
    (hcleared : (calls i).target = none ∨ ∀ file, ¬ Cleared (calls i).traceId file phase) :
    (race.goto i phase).Sound calendar calls := by
  rw [goto_eq_wrote]
  refine h.wrote ⟨hunfinished, hdecided, by rw [List.append_nil]; exact h.ids, nofun, nofun,
    by rw [List.append_nil]; exact h.files .project,
    fun _ hentry _ => .inl hentry, fun _ hentry _ _ => hentry, nofun,
    (later_wrote hdecided).phaseSound hphase, ?_⟩
  intro grantId htarget file hnow _
  rcases hcleared with hnone | hnever
  · exact absurd (hnone.symm.trans htarget) nofun
  · exact absurd hnow (hnever file)

/-- A file is rewritten as the call found it, its target apart. -/
theorem Sound.rewrite {i : ι} {content : List CapabilityGrant} (file : GrantFile) (phase : Phase)
    (h : race.Sound calendar calls)
    (hunfinished : ∀ before answer, race.phase i ≠ .returned before answer)
    (hdecided : phase.decided = true) (hholding : Holding race.made file.Home content)
    (htrims : Trims calendar race.now (calls i).target seen content)
    (hundisturbed : race.Undisturbed calendar file seen)
    (hphase : race.PhaseSound calendar calls (calls i) phase)
    (hcleared : ∀ file', Cleared (calls i).traceId file' phase →
      ¬ Cleared (calls i).traceId file' (race.phase i) → file' = file) :
    ((race.put file content).goto i phase).Sound calendar calls := by
  rw [← wrote_nil]
  refine h.wrote ⟨hunfinished, fun _ => hdecided, by rw [List.append_nil]; exact h.ids,
    nofun, nofun, by rw [List.append_nil]; exact hholding,
    fun entry hentry hactive => ?_, fun entry hentry hactive hother => ?_, nofun,
    (later_wrote fun _ => hdecided).phaseSound hphase,
    fun grantId htarget file' hnow hbefore => ⟨hcleared file' hnow hbefore, ?_⟩⟩
  · exact .inl ((hundisturbed entry hactive).mp ((htrims entry hactive).mp hentry).1)
  · exact (htrims entry hactive).mpr ⟨(hundisturbed entry hactive).mpr hentry, hother hdecided⟩
  · intro entry hentry hid hactive
    exact ((htrims entry hactive).mp hentry).2 (hid ▸ htarget)

/-- The ids of the calls of `grant` are their own. -/
def DistinctIds (calls : ι → StoreCall) : Prop :=
  ∀ i j traceId traceId' made made', calls i = .grant traceId made →
    calls j = .grant traceId' made' → made.hex = made'.hex → i = j

/-- A file gets a new grant. -/
theorem Sound.append {i : ι} {grant : CapabilityGrant} {before : List CapabilityGrant}
    (h : race.Sound calendar calls) (hids : DistinctIds calls)
    (hphase : race.phase i = .append before grant seen)
    (hundisturbed : race.Undisturbed calendar grant.home seen)
    (hzoned : Zoned calendar grant.expiresAt) :
    (race.wrote i grant.home (withGrant grant seen) [grant.reread]
      (.returned before (.granted grant))).Sound calendar calls := by
  have hsound := h.phases i
  rw [hphase] at hsound
  obtain ⟨⟨traceId, made, hcall, hid, hactive⟩, hholding⟩ := hsound
  have hnew : grant.grantId ∉ race.made.map (·.grantId) := by
    intro hmem
    obtain ⟨old, hold, hsame⟩ := List.mem_map.mp hmem
    obtain ⟨j, traceId', made', before', answer, hcall', hid', hdone⟩ := h.origin old hold
    have hhex := Text.append_left_injective "grant-" (hid.symm.trans (hsame.symm.trans hid'))
    obtain rfl := hids i j traceId traceId' made made' hcall hcall' hhex
    exact absurd (hphase.symm.trans hdone) nofun
  have hself : grant.reread ∈ race.made ++ [grant.reread] :=
    List.mem_append_right _ (List.mem_singleton_self _)
  have htarget : (calls i).target = none := by rw [hcall]; rfl
  refine h.wrote ⟨by simp [hphase], by simp [hphase, Phase.decided], ?_, fun minted hminted => ?_,
    fun minted hminted => ?_, ?_, fun entry hentry hlive => ?_, fun entry hentry hlive _ => ?_,
    fun minted hminted => ?_, ⟨⟨grant.reread, hself, rfl, rfl, fun now => lapsed_filter _⟩, ?_⟩, ?_⟩
  · refine ⟨?_, fun minted hminted => ?_, fun minted hminted => ?_⟩
    · rw [List.map_append, List.map_singleton, List.nodup_append_comm, List.singleton_append,
        List.nodup_cons]
      exact ⟨hnew, h.ids.nodup⟩
    · rcases List.mem_append.mp hminted with hold | hadded
      · exact h.ids.active minted hold
      · rw [List.mem_singleton.mp hadded]
        exact hactive
    · rcases List.mem_append.mp hminted with hold | hadded
      · exact h.ids.named minted hold
      · rw [List.mem_singleton.mp hadded]
        change grant.grantId ≠ ""
        rw [hid]
        simp
  · rw [List.mem_singleton.mp hminted]
    exact zoned_filter hzoned
  · rw [List.mem_singleton.mp hminted]
    exact ⟨traceId, made, before, _, hcall, hid, rfl⟩
  · exact hholding.withGrant (home_iff.mpr rfl) hnew
  · rcases of_mem_withGrant hentry with hold | rfl
    · exact .inl ((hundisturbed entry hlive).mp hold)
    · exact .inr (List.mem_singleton_self _)
  · exact mem_withGrant ((hundisturbed entry hlive).mpr hentry) hlive.1
  · rw [List.mem_singleton.mp hminted]
    exact ⟨rfl, reread_mem_withGrant seen⟩
  · intro grantId hgrantId
    exact absurd (htarget.symm.trans hgrantId) nofun
  · intro grantId hgrantId
    exact absurd (htarget.symm.trans hgrantId) nofun

/-- One step of one call. -/
theorem Sound.act {i : ι} (h : race.Sound calendar calls) (hids : DistinctIds calls)
    (hallowed : race.Permitted calendar calls i) : (race.act calendar calls i).Sound calendar calls := by
  have hphase := h.phases i
  unfold Permitted at hallowed
  unfold Race.act
  split
  · rename_i hi
    exact h.goto (by simp [hi]) (by simp [hi, Phase.decided])
      ⟨h.files .project, h.kept .project, fun _ => id⟩ (.inr nofun)
  · rename_i before project hi
    rw [hi] at hphase
    obtain ⟨hproject, hexpects, hmade⟩ := hphase
    exact h.goto (by simp [hi]) (by simp [hi, Phase.decided]) ⟨hproject, h.files (.trace _), hexpects,
      fun grant hgrant => h.kept (.trace _) grant (hmade grant hgrant), hmade⟩ (.inr nofun)
  · rename_i before seen hi
    rw [hi] at hphase
    have hdecision := decide_sound h.ids h.zoned hphase
    split
    · rename_i hraised
      rw [hraised] at hdecision
      exact h.goto (by simp [hi]) (by simp [hi, Phase.decided]) hdecision (.inr nofun)
    · rename_i answer hreturned
      rw [hreturned] at hdecision
      have hknown : race.Known (calls i) := by
        intro grantId htarget
        exact absurd (hdecision.2.symm.trans htarget) nofun
      exact h.goto (by simp [hi]) (by simp [hi, Phase.decided]) ⟨hdecision.1, hknown⟩
        (.inl hdecision.2)
    · rename_i next answer hrewrite
      rw [hrewrite] at hdecision
      exact h.goto (by simp [hi]) (fun _ => rfl) hdecision (.inr nofun)
    · rename_i grant hadd
      rw [hadd] at hdecision
      exact h.goto (by simp [hi]) (by simp [hi, Phase.decided]) hdecision (.inr nofun)
  · rename_i before seen next answer hi
    rw [hi] at hphase hallowed
    exact h.rewrite .project (.rewriteTrace before seen next answer) (by simp [hi]) rfl
      hphase.project hphase.trimsProject hallowed hphase fun file hnow _ => hnow
  · rename_i before seen next answer hi
    rw [hi] at hphase hallowed
    refine h.rewrite (.trace (calls i).traceId) (.returned before answer) (by simp [hi]) rfl
      hphase.trace hphase.trimsTrace hallowed ⟨hphase.answered, Rewrites.known hphase⟩
      fun file hnow hbefore => ?_
    rw [hi] at hbefore
    exact Or.resolve_left hnow hbefore
  · rename_i before grant hi
    rw [hi] at hphase
    exact h.goto (by simp [hi]) (by simp [hi, Phase.decided]) ⟨hphase, h.files grant.home⟩
      (.inr nofun)
  · rename_i before grant seen hi
    rw [hi] at hallowed
    exact h.append hids hi hallowed.1 hallowed.2
  · exact h
  · exact h

theorem Sound.of_reached (hids : DistinctIds calls)
    (h : Reached calendar calls (Permitted calendar calls) race) : race.Sound calendar calls := by
  induction h with
  | start now => exact .start now
  | act i _ hallowed ih => exact ih.act hids hallowed
  | tick duration _ ih => exact ih.tick duration

omit [DecidableEq ι] in
/-- In a sound race nothing is lost. -/
theorem Sound.noLostUpdate (h : race.Sound calendar calls) : race.NoLostUpdate calendar calls := by
  refine ⟨fun i traceId grantId before answer hcall hdone file entry hentry hid hactive => ?_,
    fun i traceId made before grant hcall hdone hrevoking hlapsed => ?_,
    fun i traceId includeInactive before grants hcall hdone => ?_,
    fun i traceId includeInactive hcall hraised => ?_⟩
  · have hphase := h.phases i
    rw [hdone] at hphase
    have htarget : (calls i).target = some grantId := by rw [hcall]; rfl
    obtain ⟨grant, hgrant, hsame, hplace⟩ := hphase.2 grantId htarget
    have hgone := h.gone i grantId htarget file
    rw [hdone] at hgone
    obtain ⟨hmade, hhome⟩ := (h.files file).active hentry hactive.1
    obtain rfl := h.ids.eq_of_id hmade hgrant (hid.trans hsame.symm)
    rw [home_iff.mp hhome] at hplace
    exact hgone hplace entry hentry hid hactive
  · have hphase := h.phases i
    rw [hdone] at hphase
    obtain ⟨granted, hgranted, hsame, hhome, hlasts⟩ := hphase.1
    have hkept := h.kept grant.home granted hgranted hhome (hsame ▸ hrevoking)
      ((hlasts race.now).trans hlapsed)
    exact ⟨granted, hkept, hsame, h.ids.active granted hgranted, (hlasts race.now).trans hlapsed⟩
  · have hphase := h.phases i
    rw [hdone, hcall] at hphase
    exact hphase.1
  · have hphase := h.phases i
    rw [hraised, hcall] at hphase
    exact hphase _ _ rfl

/-- No update is lost as long as every write finds the active entries that its call read. -/
theorem grants_persist (hids : DistinctIds calls)
    (h : Reached calendar calls (Permitted calendar calls) race) : race.NoLostUpdate calendar calls :=
  (Sound.of_reached hids h).noLostUpdate

omit [DecidableEq ι] in
theorem distinctIds_of_owner (owner : String → ι)
    (h : ∀ i traceId made, calls i = .grant traceId made → i = owner made.hex) :
    DistinctIds calls := by
  intro i j traceId traceId' made made' hi hj hhex
  rw [h i traceId made hi, h j traceId' made' hj, hhex]

/-- The next step finds its file as the call read it, and a new grant does not expire. -/
def unchanged (calls : ι → StoreCall) (race : Race ι) (i : ι) : Bool :=
  match race.phase i with
  | .rewriteProject _ seen _ _ => seen.project = race.files .project
  | .rewriteTrace _ seen _ _ => seen.trace = race.files (.trace (calls i).traceId)
  | .append _ grant seen => seen = race.files grant.home && grant.expiresAt = none
  | _ => true

omit [DecidableEq ι] in
theorem permitted_of_unchanged {i : ι} (h : race.unchanged calls i = true) :
    race.Permitted calendar calls i := by
  unfold unchanged at h
  unfold Permitted
  revert h
  cases race.phase i with
  | rewriteProject before seen next answer =>
    intro h entry _
    rw [of_decide_eq_true h]
  | rewriteTrace before seen next answer =>
    intro h entry _
    rw [of_decide_eq_true h]
  | append before grant seen =>
    intro h
    simp only [Bool.and_eq_true, decide_eq_true_eq] at h
    refine ⟨fun entry _ => by rw [h.1], fun text htext => ?_⟩
    rw [h.2] at htext
    cases htext
  | _ => exact fun _ => trivial

def unchangedRun (calendar : Calendar) (calls : ι → StoreCall) : Race ι → List ι → Bool
  | _, [] => true
  | race, i :: rest =>
      race.unchanged calls i && unchangedRun calendar calls (race.act calendar calls i) rest

theorem Reached.unchanged {steps : List ι} (h : Reached calendar calls (Permitted calendar calls) race)
    (hsteps : race.unchangedRun calendar calls steps = true) :
    Reached calendar calls (Permitted calendar calls) (race.run calendar calls steps) := by
  induction steps generalizing race with
  | nil => exact h
  | cons i rest ih =>
    rw [unchangedRun, Bool.and_eq_true] at hsteps
    exact ih (h.act i (permitted_of_unchanged hsteps.1)) hsteps.2

theorem Reached.run (steps : List ι) (h : Reached calendar calls (fun _ _ => True) race) :
    Reached calendar calls (fun _ _ => True) (race.run calendar calls steps) := by
  induction steps generalizing race with
  | nil => exact h
  | cons i rest ih => exact ih (h.act i trivial)

open Project (newYear)

def traceCall (capability hex : String) (expiresAt : Option String) : GrantCall where
  capability := capability
  sourceName := "search"
  expiresAt := expiresAt
  hex := hex
  approvedAt := "2024-01-01T00:00:00+00:00"

def traceGrant (capability grantId : String) (expiresAt : Option String) : CapabilityGrant where
  grantId := grantId
  traceId := "tr-1"
  workItemId := none
  capability := capability
  sourceName := "search"
  approvedAt := "2024-01-01T00:00:00+00:00"
  expiresAt := expiresAt

/-- A grant and its revocation. -/
def grantRevoke : Bool → StoreCall
  | false => .grant "tr-1" (traceCall "web_search" "1" none)
  | true => .revoke "tr-1" "grant-1"

def revokedRace : Race Bool :=
  ({} : Race Bool).run newYear grantRevoke (List.replicate 5 false ++ List.replicate 5 true)

theorem revokedRace_persists : revokedRace.NoLostUpdate newYear grantRevoke ∧
    revokedRace.phase true = .returned [traceGrant "web_search" "grant-1" none]
        (.revoked (traceGrant "web_search" "grant-1" none).revoke) := by
  have hids : DistinctIds grantRevoke := by
    refine distinctIds_of_owner (fun _ => false) fun i traceId made h => ?_
    cases i <;> cases h
    rfl
  exact ⟨grants_persist hids (.unchanged (.start 0) (by decide +kernel)), by decide +kernel⟩

/-- Two grants, a listing and the revocation of the second. -/
def listingCalls : Fin 4 → StoreCall
  | 0 => .grant "tr-1" (traceCall "web_search" "1" (some "2030-01-01T00:00:00+00:00"))
  | 1 => .grant "tr-1" (traceCall "web_fetch" "2" none)
  | 2 => .list "tr-1" false
  | 3 => .revoke "tr-1" "grant-2"

/-- Once the first grant is over, a listing reads the files, the second grant is revoked, and
the listing writes back what it read. -/
def resurrected : Race (Fin 4) :=
  (((({} : Race (Fin 4)).run newYear listingCalls [0, 0, 0, 0, 0, 1, 1, 1, 1, 1]).tick 1893456000).run
    newYear listingCalls [2, 2, 2, 3, 3, 3, 3, 3, 2, 2])

/-- Two grants for one trace, each after it has read the file without the other. -/
def grantCalls : Bool → StoreCall
  | false => .grant "tr-1" (traceCall "web_search" "1" none)
  | true => .grant "tr-1" (traceCall "web_fetch" "2" none)

def overwritten : Race Bool :=
  ({} : Race Bool).run newYear grantCalls (List.replicate 4 false ++ List.replicate 4 true ++ [false, true])

theorem distinctIds_listingCalls : DistinctIds listingCalls := by
  refine distinctIds_of_owner (fun hex => if hex = "1" then 0 else 1) fun i traceId made h => ?_
  match i with
  | 0 => cases h; rfl
  | 1 => cases h; rfl
  | 2 => cases h
  | 3 => cases h

theorem distinctIds_grantCalls : DistinctIds grantCalls := by
  refine distinctIds_of_owner (· ≠ "1") fun i traceId made h => ?_
  cases i <;> cases h <;> rfl

/-- A revoked grant is active again, and a new grant is gone. -/
theorem grants_do_not_persist :
    (Reached newYear listingCalls (fun _ _ => True) resurrected ∧ DistinctIds listingCalls ∧
      ¬ resurrected.NoLostUpdate newYear listingCalls) ∧
    Reached newYear grantCalls (fun _ _ => True) overwritten ∧ DistinctIds grantCalls ∧
      ¬ overwritten.NoLostUpdate newYear grantCalls := by
  refine ⟨⟨.run _ (.tick _ (.run _ (.start 0))), distinctIds_listingCalls, fun h => ?_⟩,
    .run _ (.start 0), distinctIds_grantCalls, fun h => ?_⟩
  · let fetch := traceGrant "web_fetch" "grant-2" none
    have hrevoked : resurrected.phase 3 = .returned
        [traceGrant "web_search" "grant-1" (some "2030-01-01T00:00:00+00:00"), fetch]
        (.revoked fetch.revoke) := by decide +kernel
    have hactive : fetch ∈ resurrected.files (.trace "tr-1") := by decide +kernel
    exact h.revoked 3 "tr-1" "grant-2" _ _ rfl hrevoked _ fetch hactive rfl ⟨rfl, rfl⟩
  · have hgranted : overwritten.phase false =
        .returned [] (.granted (traceGrant "web_search" "grant-1" none)) := by decide +kernel
    have hgone : ∀ entry ∈ overwritten.files (.trace "tr-1"), entry.grantId ≠ "grant-1" := by
      decide +kernel
    have hrevoking : ¬ overwritten.Revoking grantCalls "grant-1" := by
      rintro ⟨i, htarget, -⟩
      cases i <;> cases htarget
    obtain ⟨entry, hentry, hid, -⟩ := h.granted false "tr-1" _ _ _ rfl hgranted hrevoking rfl
    exact hgone entry hentry hid

end Race

end ProjectOS.ToolManager
