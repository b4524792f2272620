import ProjectOS.Code.TaskNames
import ProjectOS.Sandbox.ApplicationRunner

/-! The names of the containers, networks and volumes of the applications. A name keeps only the
last component of the project directory, cleaned, and 96 characters in all. -/
namespace ProjectOS.Sandbox
open Base

/-- A resolved project directory; two directories may have the same last component. -/
structure ProjectDirectory where
  parent : String
  name : String
deriving DecidableEq

def volumeNameOf (projectName applicationId volumeId : String) : String :=
  safeName ("projectos-" ++ projectName ++ "-" ++ applicationId ++ "-" ++ volumeId)

def networkNameOf (projectName runId : String) : String :=
  safeName ("projectos-" ++ projectName ++ "-" ++ runId ++ "-net")

/-- What the names take of a service of the catalog. -/
structure CatalogService where
  id : String
  dataVolume : Option String := none
deriving DecidableEq

structure ApplicationProfile where
  id : String
  services : List CatalogService
deriving DecidableEq

/-- `ApplicationCatalog._PROFILES`. -/
def applicationCatalog : List ApplicationProfile := [
  ⟨"python-backend", [⟨"backend", none⟩]⟩,
  ⟨"todo-web", [⟨"backend", some "todo-data"⟩, ⟨"frontend", none⟩]⟩,
  ⟨"fastapi-postgres", [⟨"database", some "postgres-data"⟩, ⟨"backend", some "python-packages"⟩]⟩,
  ⟨"fastapi-postgres-web",
    [⟨"database", some "postgres-data"⟩, ⟨"backend", some "python-packages"⟩]⟩,
  ⟨"static-web", [⟨"web", none⟩]⟩,
  ⟨"python-dynamic", [⟨"backend", none⟩]⟩]

/-- `f"app-{uuid4().hex[:12]}"`. -/
structure RunId where
  hex : List Char
  length : hex.length = 12
  digits : ∀ c ∈ hex, Text.isAsciiDigit c = true ∨ c ∈ ['a', 'b', 'c', 'd', 'e', 'f']

namespace RunId

def chars (run : RunId) : List Char := 'a' :: 'p' :: 'p' :: '-' :: run.hex

def text (run : RunId) : String := String.ofList run.chars

@[simp] theorem length_chars (run : RunId) : run.chars.length = 16 := by
  simp [chars, run.length]

theorem text_injective {run run' : RunId} (h : run.chars = run'.chars) : run = run' := by
  cases run
  cases run'
  simpa [chars] using h

end RunId

/-- The application ids with the volumes of their services. -/
def catalogVolumes : List (String × String) :=
  applicationCatalog.flatMap fun application =>
    application.services.filterMap fun service => service.dataVolume.map (application.id, ·)

/-! What is left of a name. -/

/-- The cleaned name of a directory. -/
def cleaned (name : String) : List Char := Text.collapseRuns Text.isSafeChar '-' false name.toList

/-- A character that the names keep ends the run before it. -/
theorem collapseRuns_append {keep : Char → Bool} {sub c : Char} (hc : keep c = true)
    (xs ys : List Char) (inRun : Bool) :
    Text.collapseRuns keep sub inRun (xs ++ c :: ys) =
      Text.collapseRuns keep sub inRun xs ++ c :: Text.collapseRuns keep sub false ys := by
  induction xs generalizing inRun with
  | nil => simp [Text.collapseRuns, hc]
  | cons x xs ih =>
    simp only [List.cons_append, Text.collapseRuns, ih]
    split_ifs <;> rfl

/-- The end of a name: kept characters up to the last, which is no edge. -/
structure Ending (chars : List Char) : Prop where
  safe : ∀ c ∈ chars, Text.isSafeChar c = true
  last : ∃ c ∈ chars.getLast?, c ≠ '-' ∧ c ≠ '.'

/-- The `projectos-` of every name. -/
def label : List Char := ['p', 'r', 'o', 'j', 'e', 'c', 't', 'o', 's', '-']

theorem safeName_chars (name : String) {rest : List Char} (h : Ending rest) :
    (safeName ("projectos-" ++ name ++ "-" ++ String.ofList rest)).toList =
      (label ++ (cleaned name ++ '-' :: rest)).take 96 := by
  have hcollapse : Text.collapse Text.isSafeChar '-' ("projectos-" ++ name ++ "-" ++ String.ofList rest) =
      String.ofList (label ++ (cleaned name ++ '-' :: rest)) := by
    unfold Text.collapse
    congr 1
    have htext : ("projectos-" ++ name ++ "-" ++ String.ofList rest).toList =
        ['p', 'r', 'o', 'j', 'e', 'c', 't', 'o', 's'] ++ '-' :: (name.toList ++ '-' :: rest) := by
      simp
    rw [htext, collapseRuns_append (by decide), collapseRuns_append (by decide),
      Code.collapseRuns_of_all h.safe]
    rfl
  have hstrip : Text.stripBy (fun c => c = '-' || c = '.')
      (String.ofList (label ++ (cleaned name ++ '-' :: rest))) =
      String.ofList (label ++ (cleaned name ++ '-' :: rest)) := by
    obtain ⟨c, hc, hedge⟩ := h.last
    obtain ⟨init, rfl⟩ := List.getLast?_eq_some_iff.mp hc
    have hlast : label ++ (cleaned name ++ '-' :: (init ++ [c])) =
        (label ++ (cleaned name ++ '-' :: init)) ++ [c] := by
      simp
    rw [Text.stripBy, Text.lstripBy, Text.rstripBy, String.toList_ofList, String.toList_ofList]
    congr 1
    change List.rdropWhile _ (label ++ (cleaned name ++ '-' :: (init ++ [c]))) = _
    rw [hlast, List.rdropWhile_concat_neg]
    simpa using hedge
  unfold safeName
  rw [hcollapse, hstrip]
  dsimp only
  rw [if_neg]
  · rw [String.toList_ofList, String.toList_ofList]
  · intro hempty
    have := congrArg String.toList hempty
    rw [String.toList_ofList, String.toList_ofList] at this
    cases this

/-- The last part of a run's names: a service id, or the ending of its network. -/
theorem ending_append {front back : List Char} (hfront : ∀ c ∈ front, Text.isSafeChar c = true)
    (hback : Ending back) : Ending (front ++ '-' :: back) where
  safe := by
    intro c hc
    rcases List.mem_append.mp hc with hc | hc
    · exact hfront c hc
    · rcases List.mem_cons.mp hc with rfl | hc
      · decide
      · exact hback.safe c hc
  last := by
    obtain ⟨c, hc, hedge⟩ := hback.last
    obtain ⟨init, rfl⟩ := List.getLast?_eq_some_iff.mp hc
    exact ⟨c, List.getLast?_eq_some_iff.mpr ⟨front ++ '-' :: init, by simp⟩, hedge⟩

theorem RunId.safe (run : RunId) : ∀ c ∈ run.chars, Text.isSafeChar c = true := by
  intro c hc
  simp only [RunId.chars, List.mem_cons] at hc
  obtain rfl | rfl | rfl | rfl | hc := hc
  · decide
  · decide
  · decide
  · decide
  · rcases run.digits c hc with hdigit | hletter
    · exact Code.isSafeChar_of_letter_or_digit (by rw [hdigit, Bool.or_true])
    · simp only [List.mem_cons, List.not_mem_nil, or_false] at hletter
      obtain rfl | rfl | rfl | rfl | rfl | rfl := hletter <;> decide

theorem containerNameOf_chars (name : String) (run : RunId) {service : String}
    (h : Ending service.toList) :
    (containerNameOf name run.text service).toList =
      (label ++ (cleaned name ++ '-' :: (run.chars ++ '-' :: service.toList))).take 96 := by
  rw [← safeName_chars name (ending_append run.safe h)]
  have hvalue : "projectos-" ++ name ++ "-" ++ run.text ++ "-" ++ service =
      "projectos-" ++ name ++ "-" ++ String.ofList (run.chars ++ '-' :: service.toList) := by
    apply String.toList_injective
    simp [RunId.text]
  rw [containerNameOf, hvalue]

theorem networkNameOf_chars (name : String) (run : RunId) :
    (networkNameOf name run.text).toList =
      (label ++ (cleaned name ++ '-' :: (run.chars ++ '-' :: ['n', 'e', 't']))).take 96 := by
  have hnet : Ending ['n', 'e', 't'] := ⟨by decide, 't', rfl, by decide⟩
  rw [← safeName_chars name (ending_append run.safe hnet)]
  have hvalue : "projectos-" ++ name ++ "-" ++ run.text ++ "-net" =
      "projectos-" ++ name ++ "-" ++ String.ofList (run.chars ++ '-' :: ['n', 'e', 't']) := by
    apply String.toList_injective
    simp [RunId.text]
  rw [networkNameOf, hvalue]

theorem volumeNameOf_chars (name : String) {application volume : String}
    (happlication : ∀ c ∈ application.toList, Text.isSafeChar c = true)
    (hvolume : Ending volume.toList) :
    (volumeNameOf name application volume).toList =
      (label ++ (cleaned name ++ '-' :: (application.toList ++ '-' :: volume.toList))).take 96 := by
  rw [← safeName_chars name (ending_append happlication hvolume)]
  have hvalue : "projectos-" ++ name ++ "-" ++ application ++ "-" ++ volume =
      "projectos-" ++ name ++ "-" ++
        String.ofList (application.toList ++ '-' :: volume.toList) := by
    apply String.toList_injective
    simp
  rw [volumeNameOf, hvalue]

/-! Two names that agree: the cleaned names have the same length, or the shorter one goes on as
the rest of its name. -/

theorem take_label (xs : List Char) : (label ++ xs).take 96 = label ++ xs.take 86 := by
  rw [List.take_append]
  rfl

theorem cut_eq_iff {xs ys : List Char} :
    (label ++ xs).take 96 = (label ++ ys).take 96 ↔ xs.take 86 = ys.take 86 := by
  rw [take_label, take_label, List.append_right_inj]

/-- A cut behind the cleaned name. -/
theorem take_name {c y : List Char} (hc : c.length ≤ 85) :
    (c ++ '-' :: y).take 86 = c ++ '-' :: y.take (85 - c.length) := by
  have hcount : 86 = c.length + (85 - c.length + 1) := by omega
  rw [hcount, List.take_length_add_append, List.take_succ_cons]

theorem cut_same {c c' y y' : List Char} (h : (c ++ '-' :: y).take 86 = (c' ++ '-' :: y').take 86)
    (hlength : c.length = c'.length) (hc : c.length ≤ 85) :
    c = c' ∧ y.take (85 - c.length) = y'.take (85 - c.length) := by
  rw [take_name hc, take_name (hlength ▸ hc), ← hlength] at h
  obtain ⟨hname, hrest⟩ := List.append_inj h hlength
  exact ⟨hname, (List.cons.inj hrest).2⟩

theorem cut_shorter {c c' y y' : List Char}
    (h : (c ++ '-' :: y).take 86 = (c' ++ '-' :: y').take 86) (hlength : c.length < c'.length)
    (hc : c'.length ≤ 85) :
    (y.drop (c'.length - c.length)).take (85 - c'.length) = y'.take (85 - c'.length) := by
  have hdrop := congrArg (List.drop (c'.length + 1)) h
  have hleft : (c ++ '-' :: y).drop (c'.length + 1) = y.drop (c'.length - c.length) := by
    have hsplit : c'.length + 1 = c.length + ((c'.length - c.length) + 1) := by omega
    rw [hsplit, List.drop_length_add_append, List.drop_succ_cons]
  have hright : (c' ++ '-' :: y').drop (c'.length + 1) = y' := by
    rw [List.drop_length_add_append, List.drop_succ_cons, List.drop_zero]
  rw [List.drop_take, List.drop_take, hleft, hright] at hdrop
  have hcount : 86 - (c'.length + 1) = 85 - c'.length := by omega
  rwa [hcount] at hdrop

/-! The ids of the catalog. -/

def serviceIds : List String :=
  applicationCatalog.flatMap fun application => application.services.map (·.id)

/-- How the ids of services and the names of volumes end. -/
def endsPlainly (name : String) : Bool :=
  name.toList.all Text.isSafeChar && name.toList.getLast?.any fun c => c != '-' && c != '.'

theorem ending_of_endsPlainly {name : String} (h : endsPlainly name = true) : Ending name.toList := by
  simp only [endsPlainly, Bool.and_eq_true, List.all_eq_true, Option.any_eq_true, bne_iff_ne] at h
  exact ⟨h.1, h.2⟩

theorem ending_of_serviceId {id : String} (h : id ∈ serviceIds) : Ending id.toList := by
  have hall : serviceIds.all endsPlainly = true := by decide +kernel
  exact ending_of_endsPlainly (List.all_eq_true.mp hall id h)

theorem ending_of_volume {volume : String × String} (h : volume ∈ catalogVolumes) :
    (∀ c ∈ volume.1.toList, Text.isSafeChar c = true) ∧ Ending volume.2.toList := by
  have hall : catalogVolumes.all (fun volume =>
      volume.1.toList.all Text.isSafeChar && endsPlainly volume.2) = true := by decide +kernel
  have hvolume := List.all_eq_true.mp hall volume h
  rw [Bool.and_eq_true, List.all_eq_true] at hvolume
  exact ⟨hvolume.1, ending_of_endsPlainly hvolume.2⟩

/-- Different services differ in their first character. -/
theorem take_one_serviceId : ∀ id ∈ serviceIds, ∀ id' ∈ serviceIds, id ≠ id' →
    id.toList.take 1 ≠ id'.toList.take 1 := by decide

theorem p_not_mem_serviceId : ∀ id ∈ serviceIds, 'p' ∉ id.toList := by decide

/-- What a name holds behind the directory for a volume. -/
def volumeChars (volume : String × String) : List Char :=
  volume.1.toList ++ '-' :: volume.2.toList

/-- No proper end of one begins as another does. -/
theorem take_drop_volume {volume volume' : String × String} (h : volume ∈ catalogVolumes)
    (h' : volume' ∈ catalogVolumes) {shift : Nat} (hshift : 0 < shift) :
    ((volumeChars volume).drop shift).take 6 ≠ (volumeChars volume').take 6 := by
  have hall : ∀ volume ∈ catalogVolumes, (volumeChars volume).length ≤ 36 ∧
      (volumeChars volume).take 6 ≠ [] ∧ ∀ volume' ∈ catalogVolumes, ∀ shift < 36, 0 < shift →
        ((volumeChars volume).drop shift).take 6 ≠ (volumeChars volume').take 6 := by
    decide +kernel
  rcases Nat.lt_or_ge shift 36 with hlt | hge
  · exact (hall volume h).2.2 volume' h' shift hlt hshift
  · rw [List.drop_of_length_le ((hall volume h).1.trans hge), List.take_nil]
    exact (hall volume' h').2.1.symm

/-! Directories of at most 67 characters keep what tells the names apart. -/

section Cut
variable {c c' : List Char} {run run' : RunId} {ending ending' : List Char}

theorem take_of_take {xs ys : List Char} {n m : Nat} (h : xs.take n = ys.take n) (hle : m ≤ n) :
    xs.take m = ys.take m := by
  have hcut := congrArg (List.take m) h
  rwa [List.take_take, List.take_take, Nat.min_eq_left hle] at hcut

theorem endings_eq (hc : c.length ≤ 67)
    (h : (c ++ '-' :: (run.chars ++ '-' :: ending)).take 86 =
      (c ++ '-' :: (run.chars ++ '-' :: ending')).take 86) : ending.take 1 = ending'.take 1 := by
  have hrest := take_of_take (cut_same h rfl (by omega)).2 (show 18 ≤ 85 - c.length by omega)
  have hcount : 18 = run.chars.length + (1 + 1) := by simp
  rw [hcount, List.take_length_add_append, List.take_length_add_append, List.take_succ_cons,
    List.take_succ_cons] at hrest
  exact (List.cons.inj (List.append_cancel_left hrest)).2

/-- The rest of a run's names begins with the run id nowhere but at its start. -/
theorem not_shifted (hp : 'p' ∉ ending) {shift : Nat} (hshift : 0 < shift) (rest : List Char) :
    ((run.chars ++ '-' :: ending).drop shift).take 2 ≠ (run'.chars ++ rest).take 2 := by
  have hsecond : (run'.chars ++ rest).take 2 = ['a', 'p'] := rfl
  rw [hsecond]
  intro h
  match shift, hshift with
  | 1, _ => cases h
  | 2, _ => cases h
  | 3, _ => cases h
  | shift + 4, _ =>
    have hdrop : (run.chars ++ '-' :: ending).drop (shift + 4) =
        (run.hex ++ '-' :: ending).drop shift := rfl
    have hmem : 'p' ∈ ((run.hex ++ '-' :: ending).drop shift).take 2 := by
      rw [← hdrop, h]
      decide
    rcases List.mem_append.mp (List.mem_of_mem_drop (List.mem_of_mem_take hmem)) with hhex | hend
    · rcases run.digits 'p' hhex with hdigit | hletter
      · revert hdigit
        decide
      · revert hletter
        decide
    · rcases List.mem_cons.mp hend with hdash | hend
      · revert hdash
        decide
      · exact hp hend

theorem runs_ne_of_le (hlength : c.length ≤ c'.length) (hc : c'.length ≤ 67) (hp : 'p' ∉ ending)
    (hne : run ≠ run') :
    (c ++ '-' :: (run.chars ++ '-' :: ending)).take 86 ≠
      (c' ++ '-' :: (run'.chars ++ '-' :: ending')).take 86 := by
  intro h
  rcases Nat.eq_or_lt_of_le hlength with heq | hlt
  · have hrest := take_of_take (cut_same h heq (by omega)).2 (show 16 ≤ 85 - c.length by omega)
    rw [← run.length_chars, List.take_left, run.length_chars, ← run'.length_chars,
      List.take_left] at hrest
    exact hne (RunId.text_injective hrest)
  · have hrest := take_of_take (cut_shorter h hlt (by omega)) (show 2 ≤ 85 - c'.length by omega)
    exact not_shifted hp (Nat.sub_pos_of_lt hlt) _ hrest

theorem runs_ne (hc : c.length ≤ 67) (hc' : c'.length ≤ 67) (hp : 'p' ∉ ending)
    (hp' : 'p' ∉ ending') (hne : run ≠ run') :
    (c ++ '-' :: (run.chars ++ '-' :: ending)).take 86 ≠
      (c' ++ '-' :: (run'.chars ++ '-' :: ending')).take 86 := by
  rcases Nat.le_total c.length c'.length with hle | hle
  · exact runs_ne_of_le hle hc' hp hne
  · exact (runs_ne_of_le hle hc hp' hne.symm).symm

theorem volumes_ne_of_le {volume volume' : String × String} (h : volume ∈ catalogVolumes)
    (h' : volume' ∈ catalogVolumes) (hlength : c.length ≤ c'.length) (hc : c'.length ≤ 67)
    (hne : c ≠ c') :
    (c ++ '-' :: volumeChars volume).take 86 ≠ (c' ++ '-' :: volumeChars volume').take 86 := by
  intro hcut
  rcases Nat.eq_or_lt_of_le hlength with heq | hlt
  · exact hne (cut_same hcut heq (by omega)).1
  · exact take_drop_volume h h' (Nat.sub_pos_of_lt hlt)
      (take_of_take (cut_shorter hcut hlt (by omega)) (by omega))

theorem volumes_ne {volume volume' : String × String} (h : volume ∈ catalogVolumes)
    (h' : volume' ∈ catalogVolumes) (hc : c.length ≤ 67) (hc' : c'.length ≤ 67) (hne : c ≠ c') :
    (c ++ '-' :: volumeChars volume).take 86 ≠ (c' ++ '-' :: volumeChars volume').take 86 := by
  rcases Nat.le_total c.length c'.length with hle | hle
  · exact volumes_ne_of_le h h' hle hc' hne
  · exact (volumes_ne_of_le h' h hle hc hne.symm).symm

/-- A longer directory leaves nothing of the service. -/
theorem endings_cut (hc : 67 < c.length) :
    (c ++ '-' :: (run.chars ++ '-' :: ending)).take 86 =
      (c ++ '-' :: (run.chars ++ '-' :: ending')).take 86 := by
  have hsplit (xs : List Char) : c ++ '-' :: (run.chars ++ '-' :: xs) =
      (c ++ '-' :: (run.chars ++ ['-'])) ++ xs := by simp
  have hlong : 86 ≤ (c ++ '-' :: (run.chars ++ ['-'])).length := by
    simp only [List.length_append, List.length_cons, List.length_nil, RunId.length_chars]
    omega
  rw [hsplit ending, hsplit ending', List.take_append_of_le_length hlong,
    List.take_append_of_le_length hlong]

end Cut

/-! The claim about the names of two projects. -/

structure NamesNeverCollide (p q : ProjectDirectory) : Prop where
  services : ∀ project ∈ [p, q], ∀ (run : RunId), ∀ application ∈ applicationCatalog,
    ∀ service ∈ application.services, ∀ other ∈ application.services, service.id ≠ other.id →
      containerNameOf project.name run.text service.id ≠
        containerNameOf project.name run.text other.id
  runs : ∀ project ∈ [p, q], ∀ other ∈ [p, q], ∀ run run' : RunId, run ≠ run' →
    networkNameOf project.name run.text ≠ networkNameOf other.name run'.text ∧
      ∀ id ∈ serviceIds, ∀ id' ∈ serviceIds,
        containerNameOf project.name run.text id ≠ containerNameOf other.name run'.text id'
  volumes : ∀ volume ∈ catalogVolumes, ∀ volume' ∈ catalogVolumes,
    volumeNameOf p.name volume.1 volume.2 ≠ volumeNameOf q.name volume'.1 volume'.2

theorem toList_ne_iff {a b : String} : a ≠ b ↔ a.toList ≠ b.toList :=
  not_congr String.toList_inj.symm

theorem containerName_ne_iff {name name' : String} {run run' : RunId} {id id' : String}
    (h : id ∈ serviceIds) (h' : id' ∈ serviceIds) :
    containerNameOf name run.text id ≠ containerNameOf name' run'.text id' ↔
      (cleaned name ++ '-' :: (run.chars ++ '-' :: id.toList)).take 86 ≠
        (cleaned name' ++ '-' :: (run'.chars ++ '-' :: id'.toList)).take 86 := by
  rw [toList_ne_iff, containerNameOf_chars name run (ending_of_serviceId h),
    containerNameOf_chars name' run' (ending_of_serviceId h'), Ne, cut_eq_iff]

theorem volumeName_ne_iff {name name' : String} {volume volume' : String × String}
    (h : volume ∈ catalogVolumes) (h' : volume' ∈ catalogVolumes) :
    volumeNameOf name volume.1 volume.2 ≠ volumeNameOf name' volume'.1 volume'.2 ↔
      (cleaned name ++ '-' :: volumeChars volume).take 86 ≠
        (cleaned name' ++ '-' :: volumeChars volume').take 86 := by
  obtain ⟨happlication, hvolume⟩ := ending_of_volume h
  obtain ⟨happlication', hvolume'⟩ := ending_of_volume h'
  rw [toList_ne_iff, volumeNameOf_chars name happlication hvolume,
    volumeNameOf_chars name' happlication' hvolume', Ne, cut_eq_iff]
  rfl

theorem mem_serviceIds {application : ApplicationProfile} (h : application ∈ applicationCatalog)
    {service : CatalogService} (hservice : service ∈ application.services) :
    service.id ∈ serviceIds :=
  List.mem_flatMap.mpr ⟨application, h, List.mem_map_of_mem hservice⟩

def zeroRun : RunId := ⟨List.replicate 12 '0', rfl, by decide⟩

/-- The services of a run share one container name in a longer directory. -/
theorem length_le_of_services {name : String}
    (h : containerNameOf name zeroRun.text "backend" ≠ containerNameOf name zeroRun.text "frontend") :
    (cleaned name).length ≤ 67 := by
  by_contra hlong
  exact (containerName_ne_iff (by decide) (by decide)).mp h (endings_cut (not_le.mp hlong))

/-- The names of two projects never collide if and only if their directories have cleaned names
that differ and that leave room for the run and the service. -/
theorem namesNeverCollide_iff (p q : ProjectDirectory) :
    NamesNeverCollide p q ↔ (cleaned p.name).length ≤ 67 ∧ (cleaned q.name).length ≤ 67 ∧
      cleaned p.name ≠ cleaned q.name := by
  constructor
  · intro h
    have hlength (project : ProjectDirectory) (hproject : project ∈ [p, q]) :
        (cleaned project.name).length ≤ 67 :=
      length_le_of_services (h.services project hproject zeroRun
        ⟨"todo-web", [⟨"backend", some "todo-data"⟩, ⟨"frontend", none⟩]⟩ (by decide)
        ⟨"backend", some "todo-data"⟩ (by decide) ⟨"frontend", none⟩ (by decide) (by decide))
    refine ⟨hlength p (by simp), hlength q (by simp), fun hsame => ?_⟩
    have hvolume : ("todo-web", "todo-data") ∈ catalogVolumes := by decide
    refine (volumeName_ne_iff hvolume hvolume).mp (h.volumes _ hvolume _ hvolume) ?_
    rw [hsame]
  · rintro ⟨hp, hq, hne⟩
    have hlength (project : ProjectDirectory) (hproject : project ∈ [p, q]) :
        (cleaned project.name).length ≤ 67 := by
      simp only [List.mem_cons, List.not_mem_nil, or_false] at hproject
      rcases hproject with rfl | rfl
      · exact hp
      · exact hq
    refine ⟨?_, ?_, ?_⟩
    · intro project hproject run application happlication service hservice other hother hid
      have hmem := mem_serviceIds happlication hservice
      have hmem' := mem_serviceIds happlication hother
      rw [containerName_ne_iff hmem hmem']
      intro hcut
      exact take_one_serviceId _ hmem _ hmem' hid (endings_eq (hlength project hproject) hcut)
    · intro project hproject other hother run run' hrun
      have hc := hlength project hproject
      have hc' := hlength other hother
      constructor
      · rw [toList_ne_iff, networkNameOf_chars, networkNameOf_chars, Ne, cut_eq_iff]
        exact runs_ne hc hc' (by decide) (by decide) hrun
      · intro id hid id' hid'
        rw [containerName_ne_iff hid hid']
        exact runs_ne hc hc' (p_not_mem_serviceId id hid) (p_not_mem_serviceId id' hid') hrun
    · intro volume hvolume volume' hvolume'
      rw [volumeName_ne_iff hvolume hvolume']
      exact volumes_ne hvolume hvolume' hp hq hne

/-- Two checkouts of one directory name share their database, and so do `a b` and `a-b`. -/
theorem names_collide :
    (∃ p q : ProjectDirectory, p ≠ q ∧ p.name = q.name ∧ ¬ NamesNeverCollide p q) ∧
      ∃ p q : ProjectDirectory, p.name = "a b" ∧ q.name = "a-b" ∧
        volumeNameOf p.name "todo-web" "todo-data" = volumeNameOf q.name "todo-web" "todo-data" := by
  refine ⟨⟨⟨"/home/one", "shop"⟩, ⟨"/home/two", "shop"⟩, by decide, rfl, ?_⟩,
    ⟨⟨"/home", "a b"⟩, ⟨"/home", "a-b"⟩, rfl, rfl, by decide +kernel⟩⟩
  intro h
  exact h.volumes ("todo-web", "todo-data") (by decide) ("todo-web", "todo-data") (by decide) rfl

end ProjectOS.Sandbox
