import ProjectOS.ToolManager.Grants

/-! What the ledger files hold: entries of grants that were once made, each in the file
of its scope. -/
namespace ProjectOS.ToolManager
open Base

namespace CapabilityGrant

def revoke (grant : CapabilityGrant) : CapabilityGrant := { grant with status := .revoked }

/-- The time is over, or is no time at all. -/
def lapsed (calendar : Calendar) (now : Int) (expiresAt : Option String) : Bool :=
  match expiresAt with
  | none => false
  | some text =>
      if text = "" then false
      else
        match calendar text with
        | none => true
        | some (.aware instant) => instant ≤ now
        | some .naive => false

/-- The expiry has a zone, unless it is none or no time. -/
def Zoned (calendar : Calendar) (expiresAt : Option String) : Prop :=
  ∀ text, expiresAt = some text → text ≠ "" → ∀ stamp, calendar text = some stamp →
    ∃ instant, stamp = .aware instant

variable {calendar : Calendar} {now : Int} {grant : CapabilityGrant}

theorem isActive_of_zoned (h : Zoned calendar grant.expiresAt) :
    grant.isActive calendar now =
      .ok (grant.status = .active && !lapsed calendar now grant.expiresAt) := by
  unfold isActive lapsed
  by_cases hstatus : grant.status = .active
  · rw [if_neg (not_not.mpr hstatus), hstatus]
    cases hexpires : grant.expiresAt with
    | none => rfl
    | some text =>
      by_cases hempty : text = ""
      · simp [hempty]
      · dsimp only
        rw [if_neg hempty, if_neg hempty]
        cases hstamp : calendar text with
        | none => rfl
        | some stamp =>
          obtain ⟨instant, rfl⟩ := h text hexpires hempty stamp hstamp
          simp only [decide_true, Bool.true_and, ← decide_not, not_le]
  · simp [hstatus]

theorem lapsed_filter (expiresAt : Option String) :
    lapsed calendar now (expiresAt.filter (· ≠ "")) = lapsed calendar now expiresAt := by
  cases expiresAt with
  | none => rfl
  | some text =>
    by_cases hempty : text = ""
    · simp [Option.filter, hempty, lapsed]
    · simp [Option.filter, hempty]

theorem zoned_filter {expiresAt : Option String} (h : Zoned calendar expiresAt) :
    Zoned calendar (expiresAt.filter (· ≠ "")) := by
  intro text htext
  exact h text (Option.filter_eq_some_iff.mp htext).1

/-- An expiry in the future was never over before. -/
theorem lapsed_mono {later : Int} (hlater : now ≤ later) {expiresAt : Option String}
    (h : lapsed calendar later expiresAt = false) : lapsed calendar now expiresAt = false := by
  unfold lapsed at h ⊢
  split
  · rfl
  · split
    · rfl
    · rename_i text hempty
      simp only [if_neg hempty] at h
      cases hstamp : calendar text with
      | none => simp [hstamp] at h
      | some stamp =>
        cases stamp with
        | naive => rfl
        | aware instant =>
          simp only [hstamp, decide_eq_false_iff_not] at h ⊢
          omega

end CapabilityGrant

open CapabilityGrant CapabilityGrantStore

/-- The grants made so far, under ids of their own. -/
structure Minted (minted : List CapabilityGrant) : Prop where
  nodup : (minted.map (·.grantId)).Nodup
  active : ∀ grant ∈ minted, grant.status = .active
  named : ∀ grant ∈ minted, grant.grantId ≠ ""

/-- A file holds minted grants that belong there, some of them revoked. -/
structure Holding (minted : List CapabilityGrant) (home : CapabilityGrant → Prop)
    (file : List CapabilityGrant) : Prop where
  minted : ∀ entry ∈ file, ∃ grant ∈ minted, home grant ∧ (entry = grant ∨ entry = grant.revoke)
  nodup : (file.map (·.grantId)).Nodup

/-- The homes of the grants: the file of the project and those of the traces. -/
def InProject (grant : CapabilityGrant) : Prop := grant.scope = .project

def InTrace (traceId : String) (grant : CapabilityGrant) : Prop :=
  grant.scope ≠ .project ∧ grant.traceId = traceId

variable {minted file : List CapabilityGrant} {home : CapabilityGrant → Prop}
  {grant entry : CapabilityGrant} {traceId : String}

theorem Minted.eq_of_id (h : Minted minted) {other : CapabilityGrant} (hgrant : grant ∈ minted)
    (hother : other ∈ minted) (hid : grant.grantId = other.grantId) : grant = other :=
  List.inj_on_of_nodup_map h.nodup hgrant hother hid

/-- An active entry is the minted grant itself. -/
theorem Holding.active (h : Holding minted home file) (hentry : entry ∈ file)
    (hactive : entry.status = .active) : entry ∈ minted ∧ home entry := by
  obtain ⟨grant, hgrant, hhome, rfl | rfl⟩ := h.minted entry hentry
  · exact ⟨hgrant, hhome⟩
  · cases hactive

theorem Holding.fields (h : Holding minted home file) (hentry : entry ∈ file) :
    ∃ grant ∈ minted, home grant ∧ entry.grantId = grant.grantId ∧ entry.scope = grant.scope ∧
      entry.traceId = grant.traceId ∧ entry.expiresAt = grant.expiresAt := by
  obtain ⟨grant, hgrant, hhome, rfl | rfl⟩ := h.minted entry hentry
  · exact ⟨_, hgrant, hhome, rfl, rfl, rfl, rfl⟩
  · exact ⟨_, hgrant, hhome, rfl, rfl, rfl, rfl⟩

theorem Holding.empty : Holding minted home [] := ⟨nofun, List.nodup_nil⟩

theorem Holding.grow (h : Holding minted home file) (added : List CapabilityGrant) :
    Holding (minted ++ added) home file := by
  refine ⟨fun entry hentry => ?_, h.nodup⟩
  obtain ⟨grant, hgrant, hrest⟩ := h.minted entry hentry
  exact ⟨grant, List.mem_append_left _ hgrant, hrest⟩

theorem Holding.filter (h : Holding minted home file) (keep : CapabilityGrant → Bool) :
    Holding minted home (file.filter keep) :=
  ⟨fun entry hentry => h.minted entry (List.mem_of_mem_filter hentry),
    h.nodup.sublist ((List.filter_sublist).map _)⟩

/-- The grants of a file with one of them revoked. -/
def mark (grantId : String) (file : List CapabilityGrant) : List CapabilityGrant :=
  file.map fun grant => if grant.grantId = grantId then grant.revoke else grant

theorem map_grantId_mark (grantId : String) (file : List CapabilityGrant) :
    (mark grantId file).map (·.grantId) = file.map (·.grantId) := by
  unfold mark
  rw [List.map_map]
  apply List.map_congr_left
  intro grant _
  dsimp only [Function.comp_apply]
  split <;> rfl

theorem mark_active {grantId : String} (hentry : entry ∈ mark grantId file)
    (hactive : entry.status = .active) : entry ∈ file ∧ entry.grantId ≠ grantId := by
  obtain ⟨old, hold, rfl⟩ := List.mem_map.mp hentry
  split at hactive
  · cases hactive
  · rename_i hne
    rw [if_neg hne]
    exact ⟨hold, hne⟩

theorem mem_mark {grantId : String} (hentry : entry ∈ file) (hne : entry.grantId ≠ grantId) :
    entry ∈ mark grantId file := List.mem_map.mpr ⟨entry, hentry, if_neg hne⟩

theorem mark_of_not_mem {grantId : String} (h : grantId ∉ file.map (·.grantId)) :
    mark grantId file = file := by
  unfold mark
  conv_rhs => rw [← List.map_id file]
  apply List.map_congr_left
  intro grant hgrant
  rw [if_neg, id_eq]
  exact fun hid => h (List.mem_map.mpr ⟨grant, hgrant, hid⟩)

theorem Holding.mark (h : Holding minted home file) (grantId : String) :
    Holding minted home (mark grantId file) := by
  refine ⟨fun entry hentry => ?_, by rw [map_grantId_mark]; exact h.nodup⟩
  obtain ⟨old, hold, rfl⟩ := List.mem_map.mp hentry
  obtain ⟨grant, hgrant, hhome, hentry⟩ := h.minted old hold
  refine ⟨grant, hgrant, hhome, ?_⟩
  split
  · obtain rfl | rfl := hentry
    · exact .inr rfl
    · exact .inr rfl
  · exact hentry

theorem mem_withGrant (hentry : entry ∈ file) (hactive : entry.status = .active) :
    entry ∈ withGrant grant file := by
  unfold withGrant
  split
  · exact List.mem_append_left _ hentry
  · exact List.mem_append_left _ (List.mem_filter.mpr ⟨hentry, decide_eq_true hactive⟩)

theorem of_mem_withGrant (hentry : entry ∈ withGrant grant file) :
    entry ∈ file ∨ entry = grant.reread := by
  unfold withGrant at hentry
  split at hentry
  · exact (List.mem_append.mp hentry).imp id List.mem_singleton.mp
  · exact (List.mem_append.mp hentry).imp List.mem_of_mem_filter List.mem_singleton.mp

theorem reread_mem_withGrant (file : List CapabilityGrant) :
    grant.reread ∈ withGrant grant file := by
  unfold withGrant
  split
  · exact List.mem_append_right _ (List.mem_singleton_self _)
  · exact List.mem_append_right _ (List.mem_singleton_self _)

/-- A new grant goes to its own file. -/
theorem Holding.withGrant (h : Holding minted home file) (hhome : home grant.reread)
    (hfresh : grant.grantId ∉ minted.map (·.grantId)) :
    Holding (minted ++ [grant.reread]) home (withGrant grant file) := by
  have hadd {old : List CapabilityGrant} (hold : Holding minted home old) :
      Holding (minted ++ [grant.reread]) home (old ++ [grant.reread]) := by
    refine ⟨fun entry hentry => ?_, ?_⟩
    · obtain hentry | hentry := List.mem_append.mp hentry
      · exact (hold.grow [grant.reread]).minted entry hentry
      · exact ⟨grant.reread, List.mem_append_right _ (List.mem_singleton_self _), hhome,
          .inl (List.mem_singleton.mp hentry)⟩
    · rw [List.map_append, List.map_singleton, List.nodup_append_comm, List.singleton_append,
        List.nodup_cons]
      refine ⟨fun hmem => ?_, hold.nodup⟩
      obtain ⟨entry, hentry, hid⟩ := List.mem_map.mp hmem
      obtain ⟨old, holdMinted, -, hsame, -⟩ := hold.fields hentry
      exact hfresh (List.mem_map.mpr ⟨old, holdMinted, hsame.symm.trans hid⟩)
  unfold CapabilityGrantStore.withGrant
  split
  · exact hadd h
  · exact hadd (h.filter _)

namespace CapabilityGrantStore

theorem unseen_of_nodup {seen : List String} {entries : List CapabilityGrant}
    (hnodup : (entries.map (·.grantId)).Nodup)
    (hseen : ∀ entry ∈ entries, entry.grantId ∉ seen) : unseen seen entries = entries := by
  induction entries generalizing seen with
  | nil => rfl
  | cons entry rest ih =>
    rw [List.map_cons, List.nodup_cons] at hnodup
    rw [List.forall_mem_cons] at hseen
    rw [unseen, if_neg (by simp [hseen.1]), ih hnodup.2]
    intro other hother
    have hne : other.grantId ≠ entry.grantId := by
      intro hid
      exact hnodup.1 (List.mem_map.mpr ⟨other, hother, hid⟩)
    split
    · simpa [hne] using hseen.2 other hother
    · exact hseen.2 other hother

/-- A ledger whose two files hold what belongs there. -/
structure Sound (minted : List CapabilityGrant) (traceId : String) (ledger : Ledger) : Prop where
  ids : Minted minted
  project : Holding minted InProject ledger.project
  trace : Holding minted (InTrace traceId) ledger.trace

variable {ledger : Ledger} {calendar : Calendar} {now : Int}

theorem Sound.project_scope (h : Sound minted traceId ledger) (hentry : entry ∈ ledger.project) :
    entry.scope = .project := by
  obtain ⟨grant, -, hhome, -, hscope, -⟩ := h.project.fields hentry
  exact hscope.trans hhome

theorem Sound.trace_scope (h : Sound minted traceId ledger) (hentry : entry ∈ ledger.trace) :
    entry.scope ≠ .project ∧ entry.traceId = traceId := by
  obtain ⟨grant, -, hhome, -, hscope, htrace, -⟩ := h.trace.fields hentry
  exact ⟨hscope ▸ hhome.1, htrace.trans hhome.2⟩

theorem Sound.nodup (h : Sound minted traceId ledger) :
    ((ledger.project ++ ledger.trace).map (·.grantId)).Nodup := by
  rw [List.map_append, List.nodup_append]
  refine ⟨h.project.nodup, h.trace.nodup, fun id hproject id' htrace hid => ?_⟩
  obtain ⟨first, hfirst, rfl⟩ := List.mem_map.mp hproject
  obtain ⟨second, hsecond, rfl⟩ := List.mem_map.mp htrace
  obtain ⟨grant, hgrant, hhome, hsame, -⟩ := h.project.fields hfirst
  obtain ⟨grant', hgrant', hhome', hsame', -⟩ := h.trace.fields hsecond
  obtain rfl := h.ids.eq_of_id hgrant hgrant' (hsame.symm.trans (hid.trans hsame'))
  exact hhome'.1 hhome

/-- The store sees every entry of its two files. -/
theorem Sound.grants_eq (h : Sound minted traceId ledger) :
    grants traceId ledger = ledger.project ++ ledger.trace := by
  rw [grants, unseen_of_nodup h.nodup fun _ _ => List.not_mem_nil, List.filter_eq_self]
  intro entry hentry
  obtain hentry | hentry := List.mem_append.mp hentry
  · simp [h.project_scope hentry]
  · simp [(h.trace_scope hentry).2]

theorem writeAll_append {project trace : List CapabilityGrant}
    (hproject : ∀ entry ∈ project, entry.scope = .project)
    (htrace : ∀ entry ∈ trace, entry.scope ≠ .project) :
    writeAll (project ++ trace) = ⟨project, trace⟩ := by
  have hkept : project.filter (·.scope = .project) = project :=
    List.filter_eq_self.mpr fun entry he => decide_eq_true (hproject entry he)
  have hleft : trace.filter (·.scope = .project) = [] :=
    List.filter_eq_nil_iff.mpr fun entry he => by simp [htrace entry he]
  have hgone : project.filter (·.scope ≠ .project) = [] :=
    List.filter_eq_nil_iff.mpr fun entry he => by simp [hproject entry he]
  have hrest : trace.filter (·.scope ≠ .project) = trace :=
    List.filter_eq_self.mpr fun entry he => decide_eq_true (htrace entry he)
  rw [writeAll, List.filter_append, List.filter_append, hkept, hleft, hgone, hrest, List.append_nil,
    List.nil_append]

/-- What is written back goes to the file it came from. -/
theorem Sound.writeAll_filter (h : Sound minted traceId ledger) (keep : CapabilityGrant → Bool) :
    writeAll ((ledger.project ++ ledger.trace).filter keep) =
      ⟨ledger.project.filter keep, ledger.trace.filter keep⟩ := by
  rw [List.filter_append]
  exact writeAll_append (fun _ he => h.project_scope (List.mem_of_mem_filter he))
    fun _ he => (h.trace_scope (List.mem_of_mem_filter he)).1

theorem scope_mark {grantId : String} (hentry : entry ∈ mark grantId file) :
    ∃ old ∈ file, entry.scope = old.scope := by
  obtain ⟨old, hold, rfl⟩ := List.mem_map.mp hentry
  refine ⟨old, hold, ?_⟩
  split <;> rfl

theorem Sound.writeAll_mark (h : Sound minted traceId ledger) (grantId : String) :
    writeAll (mark grantId (ledger.project ++ ledger.trace)) =
      ⟨mark grantId ledger.project, mark grantId ledger.trace⟩ := by
  have happend : mark grantId (ledger.project ++ ledger.trace) =
      mark grantId ledger.project ++ mark grantId ledger.trace := List.map_append
  rw [happend]
  apply writeAll_append
  · intro entry hentry
    obtain ⟨old, hold, hscope⟩ := scope_mark hentry
    exact hscope.trans (h.project_scope hold)
  · intro entry hentry
    obtain ⟨old, hold, hscope⟩ := scope_mark hentry
    exact hscope ▸ (h.trace_scope hold).1

theorem revokeFirst_eq_some {grantId : String} {entries : List CapabilityGrant}
    (hnodup : (entries.map (·.grantId)).Nodup) {found : CapabilityGrant × List CapabilityGrant}
    (h : revokeFirst grantId entries = some found) :
    found.1.grantId = grantId ∧ found.1 ∈ found.2 ∧ found.2 = mark grantId entries ∧
      grantId ∈ entries.map (·.grantId) := by
  induction entries generalizing found with
  | nil => cases h
  | cons entry rest ih =>
    rw [List.map_cons, List.nodup_cons] at hnodup
    rw [revokeFirst] at h
    split at h
    · rename_i hid
      cases h
      refine ⟨hid, List.mem_cons_self, ?_, by simp [hid]⟩
      have hrest := mark_of_not_mem (hid ▸ hnodup.1)
      rw [mark] at hrest
      rw [mark, List.map_cons, if_pos hid, hrest]
      rfl
    · rename_i hid
      obtain ⟨tail, htail, rfl⟩ := Option.map_eq_some_iff.mp h
      obtain ⟨hfound, hmem, hmark, hin⟩ := ih hnodup.2 htail
      refine ⟨hfound, List.mem_cons_of_mem _ hmem, ?_, List.mem_cons_of_mem _ hin⟩
      rw [mark, List.map_cons, if_neg hid, hmark]
      rfl

/-- With zones everywhere no listing raises. -/
theorem activeOr_of_zoned {also : CapabilityGrant → Bool} {entries : List CapabilityGrant}
    (h : ∀ entry ∈ entries, Zoned calendar entry.expiresAt) :
    activeOr also calendar now entries = .ok (entries.filter fun entry =>
      entry.status = .active && !lapsed calendar now entry.expiresAt || also entry) := by
  induction entries with
  | nil => rfl
  | cons entry rest ih =>
    rw [List.forall_mem_cons] at h
    rw [activeOr, isActive_of_zoned h.1, ok_bind, ih h.2, ok_bind, List.filter_cons]

/-- With zones on the minted grants no entry is without. -/
theorem Sound.zoned_entry (h : Sound minted traceId ledger)
    (hzoned : ∀ grant ∈ minted, Zoned calendar grant.expiresAt) :
    ∀ entry ∈ ledger.project ++ ledger.trace, Zoned calendar entry.expiresAt := by
  intro entry hentry
  obtain hentry | hentry := List.mem_append.mp hentry
  · obtain ⟨grant, hgrant, -, -, -, -, hexpires⟩ := h.project.fields hentry
    exact hexpires ▸ hzoned grant hgrant
  · obtain ⟨grant, hgrant, -, -, -, -, hexpires⟩ := h.trace.fields hentry
    exact hexpires ▸ hzoned grant hgrant

theorem Sound.activeOr_eq (h : Sound minted traceId ledger)
    (hzoned : ∀ grant ∈ minted, Zoned calendar grant.expiresAt) (also : CapabilityGrant → Bool) :
    activeOr also calendar now (grants traceId ledger) =
      .ok ((ledger.project ++ ledger.trace).filter fun entry =>
        entry.status = .active && !lapsed calendar now entry.expiresAt || also entry) := by
  rw [h.grants_eq]
  exact activeOr_of_zoned (h.zoned_entry hzoned)

/-- What a listing returns, and what it writes back. -/
theorem Sound.list_eq (h : Sound minted traceId ledger)
    (hzoned : ∀ grant ∈ minted, Zoned calendar grant.expiresAt) (includeInactive : Bool) :
    ∃ written, list calendar now traceId includeInactive ledger =
      .ok (if includeInactive then ledger.project ++ ledger.trace
        else (ledger.project ++ ledger.trace).filter fun entry =>
          entry.status = .active && !lapsed calendar now entry.expiresAt, written) ∧
      ∀ kept, written = some kept →
        kept = (ledger.project ++ ledger.trace).filter fun entry =>
          entry.status = .active && !lapsed calendar now entry.expiresAt ||
            entry.status = .revoked := by
  have hactive := @Sound.activeOr_eq _ _ _ _ now h hzoned fun _ => false
  simp only [Bool.or_false] at hactive
  rw [list, actives, hactive, ok_bind]
  split
  · rename_i hprune
    rw [h.activeOr_eq hzoned, ok_bind]
    simp only [Bool.and_eq_true, Bool.not_eq_true'] at hprune
    refine ⟨_, by rw [hprune.1]; rfl, ?_⟩
    intro kept hkept
    exact (Option.some.inj hkept).symm
  · exact ⟨none, by rw [h.grants_eq], nofun⟩

/-- What a call of `grant` finds or makes. -/
theorem Sound.grant_ok (h : Sound minted traceId ledger)
    (hzoned : ∀ grant ∈ minted, Zoned calendar grant.expiresAt) {call : GrantCall}
    {granted : Granted} (hgrant : CapabilityGrantStore.grant calendar now traceId call ledger =
      .ok granted) :
    ∃ scope, GrantScope.parse call.scope = .ok scope ∧
      ((∃ existing, granted = .existing existing ∧
        (ledger.project ++ ledger.trace).find? (fun existing =>
          existing.status = .active && !lapsed calendar now existing.expiresAt &&
            (existing.capability = call.capability && existing.sourceName = call.sourceName &&
              existing.workItemId = call.workItemId)) = some existing) ∨
      ∃ grant, granted = .fresh grant ∧ grant.grantId = "grant-" ++ call.hex ∧
        grant.status = .active ∧ grant.expiresAt = call.expiresAt ∧
        grant.capability = Text.strip call.capability ∧
        grant.sourceName = Text.strip call.sourceName ∧ grant.traceId = traceId ∧
        grant.scope = scope ∧ grant.workItemId = call.workItemId) := by
  unfold CapabilityGrantStore.grant at hgrant
  obtain ⟨scope, hscope, hgrant⟩ := bind_eq_ok.mp hgrant
  rw [raiseWhen_bind_eq_ok] at hgrant
  obtain ⟨_, hlist, hgrant⟩ := bind_eq_ok.mp hgrant.2
  obtain ⟨written, heq, -⟩ := @Sound.list_eq _ _ _ _ now h hzoned true
  cases heq.symm.trans hlist
  have hactive := @Sound.activeOr_eq _ _ _ _ now h hzoned fun _ => false
  rw [h.grants_eq] at hactive
  simp only [Bool.or_false] at hactive
  rw [if_pos rfl] at hgrant
  obtain ⟨active, hactive', hgrant⟩ := bind_eq_ok.mp hgrant
  obtain rfl := Except.ok.inj (hactive.symm.trans hactive')
  refine ⟨scope, hscope, ?_⟩
  rw [List.find?_filter] at hgrant
  split at hgrant
  · rename_i existing hfind
    cases hgrant
    refine .inl ⟨existing, rfl, ?_⟩
    rw [← hfind]
    congr 1
    funext entry
    simp
  · cases hgrant
    exact .inr ⟨_, rfl, rfl, rfl, rfl, rfl, rfl, rfl, rfl, rfl⟩

end CapabilityGrantStore

end ProjectOS.ToolManager
