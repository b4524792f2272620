import ProjectOS.Error
import ProjectOS.Base.Sha256
import ProjectOS.Base.Text

/-! The resolver of the dependencies: each attempt is a container that downloads straight into
the wheel cache of the declaration's digest, and a marker makes the cache usable offline. -/
namespace ProjectOS.Sandbox
open Base

inductive DependencyFailureKind where
  | storage | network | incompatible | timeout | unknown
deriving DecidableEq

namespace DependencyFailureKind

def value : DependencyFailureKind → String
  | .storage => "storage"
  | .network => "network"
  | .incompatible => "incompatible"
  | .timeout => "timeout"
  | .unknown => "unknown"

end DependencyFailureKind

structure CommandResult where
  exitCode : Int
  stdout : String := ""
  stderr : String := ""
  timedOut : Bool := false
deriving DecidableEq

structure DependencyResolutionResult where
  ok : Bool
  cachePath : Option String
  stdout : String := ""
  stderr : String := ""
  message : Option String := none
  failureKind : Option String := none
  attempts : Nat := 0
  recoveryActions : List String := []
deriving DecidableEq

/-- The children of a cache directory with their contents. -/
abbrev WheelCache := Dict String String

/-- `.sandbox/wheels`, by digest; a directory that is not there reads as an empty one. -/
abbrev Wheels := String → WheelCache

/-- What the container of one attempt did: its exit and the files it wrote to the cache. -/
structure Attempt where
  result : CommandResult
  files : WheelCache := ∅

def Attempt.succeeded (attempt : Attempt) : Bool := attempt.result.exitCode = 0

/-- The parts of the `pip download` command that the recovery decides. -/
structure DownloadCommand where
  binaryOnly : Bool
  hostTmp : Bool
  networkRetry : Bool
deriving DecidableEq

/-- What a call reads besides the cache. -/
structure ResolveContext where
  approved : Bool
  manifest : Result (Option String)
  declaration : Option String
  image : CommandResult
  indexUrlTrusted : Bool := true
  retries : Int := 3

namespace DockerDependencyResolver

def readyMarker : String := ".projectos-ready"

/-- Every child is removed, the marker included. -/
def clearPartialCache (cache : WheelCache) : WheelCache :=
  cache.keys.foldl (fun left child => left.erase child) cache

def writeFiles (files cache : WheelCache) : WheelCache :=
  files.entries.foldl (fun written file => written.set file.1 file.2) cache

def classifyFailure (result : CommandResult) : DependencyFailureKind :=
  let stderr := Text.lower result.stderr
  if Text.contains stderr "no space left" || Text.contains stderr "disk quota exceeded" then
    .storage
  else if ["ssleof", "remote disconnected", "connection aborted", "temporary failure",
      "name or service not known", "connection reset"].any (Text.contains stderr ·) then .network
  else if ["no matching distribution", "could not find a version", "resolutionimpossible",
      "conflicting dependencies", "invalid metadata"].any (Text.contains stderr ·) then .incompatible
  else if result.timedOut || result.exitCode = 124 then .timeout
  else .unknown

def recoveryAction (kind : DependencyFailureKind) (attempt : Nat) : String :=
  "attempt_" ++ toString (attempt + 1) ++ ":" ++
    match kind with
    | .storage => "clear_partial_cache_and_use_host_temp"
    | .network => "fresh_container_with_extended_network_retry"
    | .incompatible => "binary_first_then_source_fallback"
    | .timeout => "fresh_container_after_timeout"
    | .unknown => "fresh_container_retry"

def failureMessage (result : CommandResult) : String :=
  match classifyFailure result with
  | .storage => "依赖解析失败：Docker 临时存储空间不足；系统已清理半成品并切换宿主临时目录重试，Docker 存储仍不可用"
  | .network => "依赖解析失败：容器访问依赖源的网络连接不稳定；系统已使用全新容器、扩展连接重试和超时，依赖源仍不可达"
  | .incompatible => "依赖解析失败：依赖声明没有可用的兼容发行版，或版本范围无法收敛"
  | .timeout => "依赖解析失败：所有受控重试均超过依赖解析时限"
  | .unknown => "依赖解析失败：系统已完成受控重试，仍未生成可用依赖缓存"

def boundedOutput (value : String) : String :=
  let text := value.toList
  if text.length ≤ 12000 then value
  else String.ofList (text.take 6000) ++ "\n... stderr truncated by ProjectOS ...\n" ++
    String.ofList (text.drop (text.length - 6000))

/-- The local variables of the loop over the attempts. -/
structure LoopState where
  cache : WheelCache
  result : Option CommandResult := none
  failureKind : Option DependencyFailureKind := none
  recoveryActions : List String := []
  commands : List DownloadCommand := []
  attempt : Nat := 0

section Loop
variable (attemptAt : Nat → Attempt) (attempts : Nat)

/-- One round: the container of the attempt runs, into a cleared cache from the second on. -/
def runAttempt (attempt : Nat) (state : LoopState) : LoopState :=
  let useHostTmp := state.failureKind = some .storage ∨ state.failureKind = some .incompatible ∨
    attempt = attempts - 1
  { state with
    cache := writeFiles (attemptAt attempt).files
      (if attempt = 0 then state.cache else clearPartialCache state.cache)
    result := some (attemptAt attempt).result
    recoveryActions :=
      if useHostTmp then state.recoveryActions ++ ["host_backed_temp"] else state.recoveryActions
    commands := state.commands ++ [⟨attempt < attempts - 1, useHostTmp, 0 < attempt⟩]
    attempt := attempt }

def recordFailure (attempt : Nat) (state : LoopState) : LoopState :=
  let kind := classifyFailure (attemptAt attempt).result
  { state with
    failureKind := some kind
    recoveryActions := state.recoveryActions ++ [recoveryAction kind attempt] }

/-- The rounds that remain, up to the first success. -/
def runAttempts : Nat → Nat → LoopState → LoopState
  | 0, _, state => state
  | remaining + 1, attempt, state =>
      let ran := runAttempt attemptAt attempts attempt state
      if (attemptAt attempt).succeeded then ran
      else runAttempts remaining (attempt + 1) (recordFailure attemptAt attempt ran)

end Loop

/-- The answer of a call that starts no attempt, or the declaration to resolve. -/
def prepare (context : ResolveContext) : Except (Result DependencyResolutionResult) String :=
  if !context.approved then .error (.error (.permissionError "依赖解析需要项目所有者显式批准"))
  else
    match context.manifest with
    | .error e => .error (.error e)
    | .ok dependenciesFile =>
        if dependenciesFile.getD "" = "" then
          .error (.ok { ok := true, cachePath := none, message := some "当前 profile 没有第三方依赖" })
        else
          match context.declaration with
          | none => .error (.ok {
              ok := false
              cachePath := none
              message := some ("依赖声明不存在: " ++ dependenciesFile.getD "") })
          | some declaration =>
              if context.image.exitCode ≠ 0 then .error (.ok {
                ok := false
                cachePath := none
                stderr := context.image.stderr
                message := some "Docker daemon 不可用或受信任基础镜像尚未预置" })
              else if !context.indexUrlTrusted then
                .error (raise "PROJECTOS_PYPI_INDEX_URL 必须是不含凭据的 HTTPS URL")
              else .ok declaration

def attemptLimit (context : ResolveContext) : Nat := max 1 context.retries.toNat

def resolve (context : ResolveContext) (attemptAt : Nat → Attempt) (wheels : Wheels) :
    Result DependencyResolutionResult × Wheels :=
  match prepare context with
  | .error answer => (answer, wheels)
  | .ok declaration =>
      let digest := Sha256.sha256 declaration
      let attempts := attemptLimit context
      let state := runAttempts attemptAt attempts attempts 0 { cache := wheels digest }
      let result := state.result.getD ⟨0, "", "", false⟩
      let ok : Bool := result.exitCode = 0
      let cache := if ok then state.cache.set readyMarker digest else clearPartialCache state.cache
      (.ok {
        ok := ok
        cachePath := if ok then some (".sandbox/wheels/" ++ digest) else none
        stdout := result.stdout
        stderr := boundedOutput result.stderr
        message := if ok then none else some (failureMessage result)
        failureKind := if ok then none else some (classifyFailure result).value
        attempts := state.attempt + 1
        recoveryActions := dedupe state.recoveryActions },
      Function.update wheels digest cache)

/-! What one call does to the cache of its digest. -/

theorem get?_foldl_set {pairs : List (String × String)} (h : (pairs.map Prod.fst).Nodup)
    (cache : WheelCache) (name : String) :
    (pairs.foldl (fun written file => written.set file.1 file.2) cache).get? name =
      (Dict.getIn name pairs).or (cache.get? name) := by
  induction pairs generalizing cache with
  | nil => rfl
  | cons pair rest ih =>
    rw [List.map_cons, List.nodup_cons] at h
    rw [List.foldl_cons, ih h.2, Dict.get?_set, Dict.getIn]
    by_cases hname : pair.1 = name
    · have hrest : Dict.getIn name rest = none := by
        cases hget : Dict.getIn name rest with
        | none => rfl
        | some content =>
          have hmem := (Dict.getIn_eq_some_iff h.2).mp hget
          exact absurd (List.mem_map_of_mem hmem) (hname ▸ h.1)
      rw [if_pos hname, if_pos hname.symm, hrest]
      rfl
    · rw [if_neg hname, if_neg (Ne.symm hname)]

theorem get?_writeFiles (files cache : WheelCache) (name : String) :
    (writeFiles files cache).get? name = (files.get? name).or (cache.get? name) :=
  get?_foldl_set files.nodup cache name

theorem get?_foldl_erase (names : List String) (cache : WheelCache) (name : String) :
    (names.foldl (fun left child => left.erase child) cache).get? name =
      if name ∈ names then none else cache.get? name := by
  induction names generalizing cache with
  | nil => simp
  | cons first rest ih =>
    rw [List.foldl_cons, ih, Dict.get?_erase]
    by_cases hname : name = first
    · simp [hname]
    · simp [hname]

/-- Nothing is left in a cleared cache. -/
@[simp] theorem get?_clearPartialCache (cache : WheelCache) (name : String) :
    (clearPartialCache cache).get? name = none := by
  unfold clearPartialCache
  rw [get?_foldl_erase]
  split
  · rfl
  · rename_i hname
    exact Dict.get?_eq_none_iff.mpr hname

section Loop
variable {attemptAt : Nat → Attempt} {attempts : Nat}

/-- How a loop over the attempts has ended: at its first success or at its last attempt. All but
the very first attempt run into an empty cache. -/
structure Ended (attemptAt : Nat → Attempt) (first limit : Nat) (before after : LoopState) :
    Prop where
  first_le : first ≤ after.attempt
  le_limit : after.attempt ≤ limit
  failed : ∀ earlier, first ≤ earlier → earlier < after.attempt →
    (attemptAt earlier).succeeded = false
  decided : (attemptAt after.attempt).succeeded = true ∨ after.attempt = limit
  result : after.result = some (attemptAt after.attempt).result
  cache : ∀ name, after.cache.get? name = ((attemptAt after.attempt).files.get? name).or
    (if after.attempt = 0 then before.cache.get? name else none)

theorem runAttempt_ended (attempt limit : Nat) (state : LoopState) (hle : attempt ≤ limit)
    (hdecided : (attemptAt attempt).succeeded = true ∨ attempt = limit) :
    Ended attemptAt attempt limit state (runAttempt attemptAt attempts attempt state) where
  first_le := Nat.le_refl _
  le_limit := hle
  failed := fun _ hge hlt => absurd hlt (Nat.not_lt.mpr hge)
  decided := hdecided
  result := rfl
  cache := by
    intro name
    change (writeFiles _ _).get? name = _
    rw [get?_writeFiles]
    by_cases hzero : attempt = 0
    · rw [if_pos hzero, if_pos (show (runAttempt ..).attempt = 0 from hzero)]
      rfl
    · rw [if_neg hzero, if_neg (show ¬ (runAttempt ..).attempt = 0 from hzero),
        get?_clearPartialCache]
      rfl

/-- A failed attempt leaves its files to the next one, which clears them. -/
theorem Ended.of_failure {attempt limit : Nat} {state : LoopState} {after : LoopState}
    (hfailed : (attemptAt attempt).succeeded = false)
    (h : Ended attemptAt (attempt + 1) limit
      (recordFailure attemptAt attempt (runAttempt attemptAt attempts attempt state)) after) :
    Ended attemptAt attempt limit state after where
  first_le := Nat.le_of_succ_le h.first_le
  le_limit := h.le_limit
  failed := by
    intro earlier hge hlt
    rcases Nat.eq_or_lt_of_le hge with rfl | hgt
    · exact hfailed
    · exact h.failed earlier hgt hlt
  decided := h.decided
  result := h.result
  cache := by
    intro name
    have hne : after.attempt ≠ 0 := by
      have := h.first_le
      omega
    rw [h.cache, if_neg hne, if_neg hne]

variable (attemptAt attempts) in
theorem runAttempts_ended (remaining attempt : Nat) (state : LoopState) :
    Ended attemptAt attempt (attempt + remaining) state
      (runAttempts attemptAt attempts (remaining + 1) attempt state) := by
  induction remaining generalizing attempt state with
  | zero =>
    have hended : Ended attemptAt attempt attempt state
        (runAttempt attemptAt attempts attempt state) :=
      runAttempt_ended attempt attempt state (Nat.le_refl _) (.inr rfl)
    unfold runAttempts
    split
    · exact hended
    · exact ⟨hended.first_le, hended.le_limit, hended.failed, hended.decided, hended.result,
        hended.cache⟩
  | succ remaining ih =>
    unfold runAttempts
    cases hsucceeded : (attemptAt attempt).succeeded with
    | true => exact runAttempt_ended attempt _ state (Nat.le_add_right _ _) (.inl hsucceeded)
    | false =>
      have hrest := ih (attempt + 1)
        (recordFailure attemptAt attempt (runAttempt attemptAt attempts attempt state))
      rw [Nat.add_right_comm] at hrest
      exact hrest.of_failure hsucceeded

end Loop

/-! What the claim of atomicity says, and when it holds. -/

/-- The outcome of the last attempt that a call has run. -/
def lastAttempt (attemptAt : Nat → Attempt) : Result DependencyResolutionResult → Option Attempt
  | .ok answer => if answer.attempts = 0 then none else some (attemptAt (answer.attempts - 1))
  | .error _ => none

/-- The call is atomic for the cache of a digest. -/
structure Atomic (digest : String) (last : Option Attempt) (before after : WheelCache) : Prop where
  marked : readyMarker ∈ after.keys ↔
    last.any Attempt.succeeded = true ∨ readyMarker ∈ before.keys
  filled : ∀ attempt ∈ last, attempt.succeeded = true → ∀ name,
    after.get? name = if name = readyMarker then some digest else attempt.files.get? name
  kept : last.any Attempt.succeeded = false → readyMarker ∈ before.keys →
    ∀ name, after.get? name = before.get? name

/-- The digest of the declared dependencies. -/
def declaredDigest (context : ResolveContext) : String :=
  Sha256.sha256 (context.declaration.getD "")

theorem declaration_of_prepare {context : ResolveContext} {declaration : String}
    (h : prepare context = .ok declaration) : context.declaration = some declaration := by
  simp only [prepare] at h
  split at h
  · cases h
  split at h
  · cases h
  split at h
  · cases h
  split at h
  · cases h
  · rename_i declared hdeclared
    split at h
    · cases h
    split at h
    · cases h
    · rw [hdeclared, Except.ok.inj h]

/-- A call that starts no attempt counts none. -/
theorem lastAttempt_of_prepare {context : ResolveContext}
    {answer : Result DependencyResolutionResult} (h : prepare context = .error answer)
    (attemptAt : Nat → Attempt) : lastAttempt attemptAt answer = none := by
  have hanswer : (∃ e, answer = .error e) ∨ ∃ result, answer = .ok result ∧ result.attempts = 0 := by
    simp only [prepare] at h
    split at h
    · exact .inl ⟨_, (Except.error.inj h).symm⟩
    split at h
    · exact .inl ⟨_, (Except.error.inj h).symm⟩
    split at h
    · exact .inr ⟨_, (Except.error.inj h).symm, rfl⟩
    split at h
    · exact .inr ⟨_, (Except.error.inj h).symm, rfl⟩
    split at h
    · exact .inr ⟨_, (Except.error.inj h).symm, rfl⟩
    split at h
    · exact .inl ⟨_, (Except.error.inj h).symm⟩
    · cases h
  obtain ⟨e, rfl⟩ | ⟨result, rfl, hzero⟩ := hanswer
  · rfl
  · exact if_pos hzero

section Call
variable {context : ResolveContext} {attemptAt : Nat → Attempt} {wheels : Wheels}

theorem resolve_unprepared {answer : Result DependencyResolutionResult}
    (h : prepare context = .error answer) :
    resolve context attemptAt wheels = (answer, wheels) := by
  simp only [resolve, h]

variable (attemptAt wheels) in
/-- A call that runs attempts: the loop, then the marker or the removal of everything. -/
theorem resolve_prepared {declaration : String} (h : prepare context = .ok declaration) :
    ∃ ended : LoopState,
      Ended attemptAt 0 (attemptLimit context - 1) { cache := wheels (declaredDigest context) }
        ended ∧
      lastAttempt attemptAt (resolve context attemptAt wheels).1 =
        some (attemptAt ended.attempt) ∧
      (resolve context attemptAt wheels).2 = Function.update wheels (declaredDigest context)
        (if (attemptAt ended.attempt).succeeded = true then
          ended.cache.set readyMarker (declaredDigest context)
        else clearPartialCache ended.cache) := by
  have hdigest : Sha256.sha256 declaration = declaredDigest context := by
    rw [declaredDigest, declaration_of_prepare h]
    rfl
  have hlimit : attemptLimit context - 1 + 1 = attemptLimit context := by
    have : 1 ≤ attemptLimit context := Nat.le_max_left _ _
    omega
  have hended := runAttempts_ended attemptAt (attemptLimit context) (attemptLimit context - 1) 0
    { cache := wheels (declaredDigest context) }
  rw [hlimit, Nat.zero_add] at hended
  refine ⟨_, hended, ?_, ?_⟩
  · simp [resolve, h, hdigest, lastAttempt]
  · simp only [resolve, h, hdigest, hended.result, Option.getD_some]
    rfl

end Call

/-- The call gets as far as its first attempt. -/
structure Starts (context : ResolveContext) : Prop where
  approved : context.approved = true
  declares : ∃ file, context.manifest = .ok (some file) ∧ file ≠ ""
  declaration : context.declaration.isSome = true
  image : context.image.exitCode = 0
  indexUrl : context.indexUrlTrusted = true

theorem starts_iff {context : ResolveContext} :
    Starts context ↔ ∃ declaration, prepare context = .ok declaration := by
  constructor
  · rintro ⟨happroved, ⟨file, hmanifest, hfile⟩, hdeclaration, himage, hurl⟩
    obtain ⟨declaration, hdeclaration⟩ := Option.isSome_iff_exists.mp hdeclaration
    exact ⟨declaration, by simp [prepare, happroved, hmanifest, hfile, hdeclaration, himage, hurl]⟩
  · rintro ⟨declaration, h⟩
    have hdeclaration := declaration_of_prepare h
    simp only [prepare, hdeclaration] at h
    split at h
    · cases h
    rename_i happroved
    split at h
    · cases h
    rename_i dependenciesFile hmanifest
    split at h
    · cases h
    rename_i hfile
    split at h
    · cases h
    rename_i himage
    split at h
    · cases h
    rename_i hurl
    refine ⟨by simpa using happroved, ?_, by simp [hdeclaration], by simpa using himage,
      by simpa using hurl⟩
    cases dependenciesFile with
    | none => exact absurd rfl hfile
    | some file => exact ⟨file, hmanifest, hfile⟩

/-- When a call is atomic: no attempt starts; or the first one succeeds and writes every file that
was there; or it fails and a later one succeeds; or all fail and the cache was not ready. -/
def KeepsCache (context : ResolveContext) (attemptAt : Nat → Attempt) (before : WheelCache) : Prop :=
  ¬ Starts context ∨
  ((attemptAt 0).succeeded = true ∧
    ∀ name ∈ before.keys, name = readyMarker ∨ name ∈ (attemptAt 0).files.keys) ∨
  ((attemptAt 0).succeeded = false ∧
    ∃ attempt < attemptLimit context, (attemptAt attempt).succeeded = true) ∨
  ((∀ attempt < attemptLimit context, (attemptAt attempt).succeeded = false) ∧
    readyMarker ∉ before.keys)

section Ends
variable {attemptAt : Nat → Attempt} {limit : Nat} {digest : String} {before after : LoopState}

theorem mem_keys_set_marker (cache : WheelCache) : readyMarker ∈ (cache.set readyMarker digest).keys :=
  Dict.mem_keys_set.mpr (.inl rfl)

theorem not_mem_clear (cache : WheelCache) : readyMarker ∉ (clearPartialCache cache).keys :=
  Dict.get?_eq_none_iff.mp (get?_clearPartialCache cache readyMarker)

/-- A success behind a failure fills an empty cache. -/
theorem atomic_of_retried (h : Ended attemptAt 0 limit before after) (hne : after.attempt ≠ 0)
    (hsucceeded : (attemptAt after.attempt).succeeded = true) :
    Atomic digest (some (attemptAt after.attempt)) before.cache
      (after.cache.set readyMarker digest) where
  marked := by simp [mem_keys_set_marker, hsucceeded]
  filled := by
    rintro attempt hattempt - name
    cases hattempt
    rw [Dict.get?_set, h.cache, if_neg hne, Option.or_none]
  kept := by simp [hsucceeded]

/-- A first success keeps what was there. -/
theorem atomic_of_first_iff (h : Ended attemptAt 0 limit before after) (hzero : after.attempt = 0)
    (hsucceeded : (attemptAt 0).succeeded = true) :
    Atomic digest (some (attemptAt after.attempt)) before.cache
        (after.cache.set readyMarker digest) ↔
      ∀ name ∈ before.cache.keys, name = readyMarker ∨ name ∈ (attemptAt 0).files.keys := by
  rw [hzero]
  have hcache : ∀ name, (after.cache.set readyMarker digest).get? name =
      if name = readyMarker then some digest
      else ((attemptAt 0).files.get? name).or (before.cache.get? name) := by
    intro name
    rw [Dict.get?_set, h.cache, hzero, if_pos rfl]
  constructor
  · intro hatomic name hname
    by_cases hmarker : name = readyMarker
    · exact .inl hmarker
    · right
      have hfilled := hatomic.filled (attemptAt 0) rfl hsucceeded name
      rw [hcache, if_neg hmarker, if_neg hmarker] at hfilled
      rw [Dict.mem_keys_iff]
      cases hfile : (attemptAt 0).files.get? name with
      | some content => exact ⟨content, rfl⟩
      | none =>
        rw [hfile, Option.none_or] at hfilled
        exact absurd hname (Dict.get?_eq_none_iff.mp hfilled)
  · intro hnames
    refine ⟨by simp [mem_keys_set_marker, hsucceeded], ?_, by simp [hsucceeded]⟩
    rintro attempt hattempt - name
    cases hattempt
    rw [hcache]
    by_cases hmarker : name = readyMarker
    · rw [if_pos hmarker, if_pos hmarker]
    · rw [if_neg hmarker, if_neg hmarker]
      cases hfile : (attemptAt 0).files.get? name with
      | some content => rfl
      | none =>
        have habsent : name ∉ before.cache.keys := by
          intro hname
          rcases hnames name hname with hname | hname
          · exact hmarker hname
          · exact Dict.get?_eq_none_iff.mp hfile hname
        rw [Option.none_or, Dict.get?_eq_none_iff.mpr habsent]

/-- A failure leaves nothing. -/
theorem atomic_of_failure_iff {cache : WheelCache}
    (hfailed : (attemptAt after.attempt).succeeded = false) :
    Atomic digest (some (attemptAt after.attempt)) cache (clearPartialCache after.cache) ↔
      readyMarker ∉ cache.keys := by
  constructor
  · intro hatomic hready
    exact not_mem_clear _ (hatomic.marked.mpr (.inr hready))
  · intro hready
    refine ⟨by simp [not_mem_clear, hfailed, hready], ?_, fun _ hmem => absurd hmem hready⟩
    rintro attempt hattempt hsucceeded
    cases hattempt
    rw [hfailed] at hsucceeded
    cases hsucceeded

end Ends

section Call
variable {context : ResolveContext} {attemptAt : Nat → Attempt} {wheels : Wheels}

/-- The claim for the cache of the declared digest. -/
def ResolvesAtomically (context : ResolveContext) (attemptAt : Nat → Attempt) (wheels : Wheels) :
    Prop :=
  Atomic (declaredDigest context) (lastAttempt attemptAt (resolve context attemptAt wheels).1)
    (wheels (declaredDigest context))
    ((resolve context attemptAt wheels).2 (declaredDigest context))

theorem resolve_other {digest : String} (h : digest ≠ declaredDigest context) :
    (resolve context attemptAt wheels).2 digest = wheels digest := by
  cases hprepare : prepare context with
  | error answer => rw [resolve_unprepared hprepare]
  | ok declaration =>
    obtain ⟨_, -, -, hwheels⟩ := resolve_prepared attemptAt wheels hprepare
    rw [hwheels, Function.update_of_ne h]

theorem resolvesAtomically_of_not_starts (h : ¬ Starts context) :
    ResolvesAtomically context attemptAt wheels := by
  cases hprepare : prepare context with
  | ok declaration => exact absurd (starts_iff.mpr ⟨declaration, hprepare⟩) h
  | error answer =>
    unfold ResolvesAtomically
    rw [resolve_unprepared hprepare, lastAttempt_of_prepare hprepare]
    exact ⟨by simp, by simp, fun _ _ _ => rfl⟩

theorem attempt_lt_limit {ended before : LoopState}
    (h : Ended attemptAt 0 (attemptLimit context - 1) before ended) :
    ended.attempt < attemptLimit context := by
  have hpositive : 1 ≤ attemptLimit context := Nat.le_max_left _ _
  have hle := h.le_limit
  omega

theorem resolvesAtomically_first_iff (h : Starts context)
    (hfirst : (attemptAt 0).succeeded = true) :
    ResolvesAtomically context attemptAt wheels ↔
      ∀ name ∈ (wheels (declaredDigest context)).keys,
        name = readyMarker ∨ name ∈ (attemptAt 0).files.keys := by
  obtain ⟨declaration, hprepare⟩ := starts_iff.mp h
  obtain ⟨ended, hended, hlast, hwheels⟩ := resolve_prepared attemptAt wheels hprepare
  have hzero : ended.attempt = 0 := by
    by_contra hne
    have hfailed := hended.failed 0 (Nat.le_refl _) (Nat.pos_of_ne_zero hne)
    rw [hfirst] at hfailed
    cases hfailed
  unfold ResolvesAtomically
  rw [hlast, hwheels, Function.update_self, if_pos (by rw [hzero, hfirst])]
  exact atomic_of_first_iff hended hzero hfirst

theorem resolvesAtomically_of_retried (h : Starts context)
    (hfirst : (attemptAt 0).succeeded = false)
    (hretried : ∃ attempt < attemptLimit context, (attemptAt attempt).succeeded = true) :
    ResolvesAtomically context attemptAt wheels := by
  obtain ⟨declaration, hprepare⟩ := starts_iff.mp h
  obtain ⟨ended, hended, hlast, hwheels⟩ := resolve_prepared attemptAt wheels hprepare
  obtain ⟨attempt, hlt, hok⟩ := hretried
  have hsucceeded : (attemptAt ended.attempt).succeeded = true := by
    rcases hended.decided with hsucceeded | hend
    · exact hsucceeded
    · rcases Nat.lt_or_ge attempt ended.attempt with hless | hge
      · rw [hended.failed attempt (Nat.zero_le _) hless] at hok
        cases hok
      · have heq : attempt = ended.attempt := by omega
        exact heq ▸ hok
  have hne : ended.attempt ≠ 0 := by
    intro hzero
    rw [hzero, hfirst] at hsucceeded
    cases hsucceeded
  unfold ResolvesAtomically
  rw [hlast, hwheels, Function.update_self, if_pos hsucceeded]
  exact atomic_of_retried hended hne hsucceeded

theorem resolvesAtomically_failed_iff (h : Starts context)
    (hfailed : ∀ attempt < attemptLimit context, (attemptAt attempt).succeeded = false) :
    ResolvesAtomically context attemptAt wheels ↔
      readyMarker ∉ (wheels (declaredDigest context)).keys := by
  obtain ⟨declaration, hprepare⟩ := starts_iff.mp h
  obtain ⟨ended, hended, hlast, hwheels⟩ := resolve_prepared attemptAt wheels hprepare
  have hlastFailed := hfailed _ (attempt_lt_limit hended)
  unfold ResolvesAtomically
  rw [hlast, hwheels, Function.update_self, if_neg (by rw [hlastFailed]; exact Bool.false_ne_true)]
  exact atomic_of_failure_iff hlastFailed

end Call

theorem resolve_atomic_iff (context : ResolveContext) (attemptAt : Nat → Attempt)
    (wheels : Wheels) :
    ResolvesAtomically context attemptAt wheels ↔
      KeepsCache context attemptAt (wheels (declaredDigest context)) := by
  unfold KeepsCache
  by_cases hstarts : Starts context
  swap
  · exact iff_of_true (resolvesAtomically_of_not_starts hstarts) (.inl hstarts)
  cases hfirst : (attemptAt 0).succeeded with
  | true =>
    have hzero : ¬ ∀ attempt < attemptLimit context, (attemptAt attempt).succeeded = false := by
      intro hall
      have hfailed := hall 0 (Nat.lt_of_lt_of_le Nat.one_pos (Nat.le_max_left _ _))
      rw [hfirst] at hfailed
      cases hfailed
    rw [resolvesAtomically_first_iff hstarts hfirst]
    simp [hstarts, hzero]
  | false =>
    by_cases hretried : ∃ attempt < attemptLimit context, (attemptAt attempt).succeeded = true
    · exact iff_of_true (resolvesAtomically_of_retried hstarts hfirst hretried)
        (.inr (.inr (.inl ⟨rfl, hretried⟩)))
    · have hfailed : ∀ attempt < attemptLimit context, (attemptAt attempt).succeeded = false := by
        intro attempt hlt
        rw [← Bool.not_eq_true]
        exact fun hok => hretried ⟨attempt, hlt, hok⟩
      rw [resolvesAtomically_failed_iff hstarts hfailed]
      constructor
      · exact fun hready => .inr (.inr (.inr ⟨hfailed, hready⟩))
      · rintro (hnot | ⟨hok, -⟩ | ⟨-, hok⟩ | ⟨-, hready⟩)
        · exact absurd hstarts hnot
        · cases hok
        · exact absurd hok hretried
        · exact hready

/-- A declaration with an approved, prepared environment and three attempts. -/
def approvedContext : ResolveContext where
  approved := true
  manifest := .ok (some "requirements.in")
  declaration := some "example==1.0.0\n"
  image := ⟨0, "", "", false⟩

theorem approvedContext_starts : Starts approvedContext :=
  ⟨rfl, ⟨"requirements.in", rfl, by decide⟩, rfl, rfl, rfl⟩

/-- A ready cache is destroyed by a resolve whose attempts all fail, and a wheel that a killed
resolver has left stays beside those of a first success. -/
theorem resolve_notAtomic :
    (∃ (attemptAt : Nat → Attempt) (wheels : Wheels),
      readyMarker ∈ (wheels (declaredDigest approvedContext)).keys ∧
        (∀ attempt, (attemptAt attempt).succeeded = false) ∧
        ¬ ResolvesAtomically approvedContext attemptAt wheels) ∧
    ∃ (attemptAt : Nat → Attempt) (wheels : Wheels),
      (wheels (declaredDigest approvedContext)).keys = ["stale.whl"] ∧
        (attemptAt 0).succeeded = true ∧
        ¬ ResolvesAtomically approvedContext attemptAt wheels := by
  constructor
  · let ready : WheelCache := Dict.ofList [("example.whl", "wheel"), (readyMarker, declaredDigest approvedContext)]
    refine ⟨fun _ => ⟨⟨1, "", "connection reset", false⟩, ∅⟩, fun _ => ready, by decide,
      fun _ => rfl, ?_⟩
    rw [resolvesAtomically_failed_iff approvedContext_starts fun _ _ => rfl]
    decide
  · let left : WheelCache := Dict.ofList [("stale.whl", "half")]
    refine ⟨fun _ => ⟨⟨0, "", "", false⟩, Dict.ofList [("example.whl", "wheel")]⟩, fun _ => left,
      by decide, rfl, ?_⟩
    rw [resolvesAtomically_first_iff approvedContext_starts rfl]
    decide

end DockerDependencyResolver
end ProjectOS.Sandbox
