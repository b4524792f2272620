import Mathlib.Data.List.Perm.Subperm
import Mathlib.Order.Bounds.Basic
import ProjectOS.Base.Dict
import ProjectOS.Base.Raise

/-! Levels of a dependency graph by a memoised depth-first walk. Every node has
a least level of its own and lies one above each of its dependencies. -/
namespace ProjectOS.Base.Levels

variable {α : Type} [DecidableEq α]

/-- The own level and the dependencies of each known node. -/
abbrev Nodes (α : Type) := α → Option (Nat × List α)

inductive Failure (α : Type) where
  | cycle (node : α)
  | unknown (node : α)
  | outOfFuel
deriving DecidableEq

/-- `max((level(d) + 1 for d in deps), default=best)` with the memo threaded through. -/
def maxOver (level : Dict α Nat → α → Except (Failure α) (Nat × Dict α Nat)) :
    Nat → Dict α Nat → List α → Except (Failure α) (Nat × Dict α Nat)
  | best, memo, [] => .ok (best, memo)
  | best, memo, d :: rest => do
      let (value, memo) ← level memo d
      maxOver level (max best (value + 1)) memo rest

/-- The recursive walk. The fuel bounds its depth and `visiting` is its stack. -/
def levelFor (nodes : Nodes α) :
    Nat → List α → Dict α Nat → α → Except (Failure α) (Nat × Dict α Nat)
  | 0, _, _, _ => .error .outOfFuel
  | fuel + 1, visiting, memo, x =>
      match memo.get? x with
      | some value => .ok (value, memo)
      | none =>
          if x ∈ visiting then .error (.cycle x)
          else match nodes x with
            | none => .error (.unknown x)
            | some (own, deps) => do
                let (best, memo) ← maxOver (levelFor nodes fuel (x :: visiting)) 0 memo deps
                .ok (max own best, memo.set x (max own best))

/-- The walk from every listed node. -/
def levels (nodes : Nodes α) (fuel : Nat) : Dict α Nat → List α → Except (Failure α) (Dict α Nat)
  | memo, [] => .ok memo
  | memo, x :: rest => do
      let (_, memo) ← levelFor nodes fuel [] memo x
      levels nodes fuel memo rest

/-- `n` is what some chain of dependencies from `x` asks for: the own level of
its last node and one for each edge. -/
inductive Chain (nodes : Nodes α) : α → Nat → Prop where
  | own {x : α} {own : Nat} {deps : List α} (known : nodes x = some (own, deps)) :
      Chain nodes x own
  | edge {x d : α} {own n : Nat} {deps : List α} (known : nodes x = some (own, deps))
      (dep : d ∈ deps) (rest : Chain nodes d n) : Chain nodes x (n + 1)

/-- The level of a node: the largest demand of its chains. -/
def IsLevel (nodes : Nodes α) (x : α) (value : Nat) : Prop :=
  IsGreatest {n | Chain nodes x n} value

/-- A memo holds levels, and with a node its dependencies at smaller levels. -/
structure Sound (nodes : Nodes α) (memo : Dict α Nat) : Prop where
  isLevel : ∀ {x value}, memo.get? x = some value → IsLevel nodes x value
  closed : ∀ {x value}, memo.get? x = some value → ∃ own deps, nodes x = some (own, deps) ∧
    ∀ d ∈ deps, ∃ w, memo.get? d = some w

def Extends (memo memo' : Dict α Nat) : Prop :=
  ∀ x value, memo.get? x = some value → memo'.get? x = some value

variable {nodes : Nodes α} {memo memo' : Dict α Nat}

theorem Extends.refl (memo : Dict α Nat) : Extends memo memo := fun _ _ h => h

theorem Extends.trans {memo'' : Dict α Nat} (h : Extends memo memo') (h' : Extends memo' memo'') :
    Extends memo memo'' := fun x value hx => h' x value (h x value hx)

/-- What a successful walk does to the memo. -/
structure Reached (nodes : Nodes α) (memo : Dict α Nat) (x : α) (value : Nat)
    (memo' : Dict α Nat) : Prop where
  sound : Sound nodes memo'
  grows : Extends memo memo'
  stored : memo'.get? x = some value

/-- The running maximum of a successful pass over the dependencies. -/
structure Collected (nodes : Nodes α) (memo : Dict α Nat) (best : Nat) (deps : List α)
    (value : Nat) (memo' : Dict α Nat) : Prop where
  sound : Sound nodes memo'
  grows : Extends memo memo'
  start_le : best ≤ value
  above : ∀ d ∈ deps, ∃ w, memo'.get? d = some w ∧ w + 1 ≤ value
  attained : value = best ∨ ∃ d ∈ deps, ∃ w, memo'.get? d = some w ∧ value = w + 1

theorem maxOver_collected {level : Dict α Nat → α → Except (Failure α) (Nat × Dict α Nat)}
    (hlevel : ∀ memo x value memo', Sound nodes memo → level memo x = .ok (value, memo') →
      Reached nodes memo x value memo')
    {best value : Nat} {deps : List α} (hsound : Sound nodes memo)
    (h : maxOver level best memo deps = .ok (value, memo')) :
    Collected nodes memo best deps value memo' := by
  induction deps generalizing best memo with
  | nil =>
    cases h
    exact ⟨hsound, .refl _, Nat.le_refl _, by simp, .inl rfl⟩
  | cons d rest ih =>
    simp only [maxOver, bind_eq_ok, Prod.exists] at h
    obtain ⟨w, memo₁, hd, hrest⟩ := h
    have hreached := hlevel memo d w memo₁ hsound hd
    have hcollected := ih hreached.sound hrest
    have hstored := hcollected.grows d w hreached.stored
    have hstart := hcollected.start_le
    refine ⟨hcollected.sound, hreached.grows.trans hcollected.grows, by omega, ?_, ?_⟩
    · intro e he
      rcases List.mem_cons.mp he with rfl | hrest
      · exact ⟨w, hstored, by omega⟩
      · exact hcollected.above e hrest
    · rcases hcollected.attained with heq | ⟨e, he, w', hw', heq⟩
      · rcases Nat.le_total best (w + 1) with hle | hle
        · exact .inr ⟨d, List.mem_cons_self, w, hstored, by omega⟩
        · exact .inl (by omega)
      · exact .inr ⟨e, List.mem_cons_of_mem _ he, w', hw', heq⟩

/-- The maximum over the dependencies is the level of the node. -/
theorem isLevel_max {x : α} {own best : Nat} {deps : List α} (hknown : nodes x = some (own, deps))
    (h : Collected nodes memo 0 deps best memo') : IsLevel nodes x (max own best) := by
  constructor
  · rcases Nat.le_total best own with hle | hle
    · rw [Nat.max_eq_left hle]
      exact .own hknown
    · rw [Nat.max_eq_right hle]
      rcases h.attained with rfl | ⟨d, hd, w, hw, rfl⟩
      · rw [← Nat.le_zero.mp hle]
        exact .own hknown
      · exact .edge hknown hd (h.sound.isLevel hw).1
  · intro n hn
    cases hn with
    | own known =>
      cases hknown.symm.trans known
      exact Nat.le_max_left _ _
    | edge known dep rest =>
      cases hknown.symm.trans known
      obtain ⟨w, hw, hle⟩ := h.above _ dep
      have := (h.sound.isLevel hw).2 rest
      omega

/-- Storing the level of a node whose dependencies are stored. -/
theorem Sound.set (h : Sound nodes memo) {x : α} {value own : Nat} {deps : List α}
    (hlevel : IsLevel nodes x value) (hknown : nodes x = some (own, deps))
    (hdeps : ∀ d ∈ deps, ∃ w, memo.get? d = some w) :
    Sound nodes (memo.set x value) ∧ Extends memo (memo.set x value) := by
  have hgrows : Extends memo (memo.set x value) := by
    intro y w hy
    rw [Dict.get?_set]
    split
    · rename_i hxy
      subst hxy
      rw [hlevel.unique (h.isLevel hy)]
    · exact hy
  refine ⟨⟨?_, ?_⟩, hgrows⟩
  · intro y w hy
    rw [Dict.get?_set] at hy
    split at hy
    · rename_i hxy
      cases hy
      exact hxy ▸ hlevel
    · exact h.isLevel hy
  · intro y w hy
    rw [Dict.get?_set] at hy
    split at hy
    · rename_i hxy
      subst hxy
      refine ⟨own, deps, hknown, fun d hd => ?_⟩
      obtain ⟨w', hw'⟩ := hdeps d hd
      exact ⟨w', hgrows d w' hw'⟩
    · obtain ⟨own', deps', hknown', hdeps'⟩ := h.closed hy
      refine ⟨own', deps', hknown', fun d hd => ?_⟩
      obtain ⟨w', hw'⟩ := hdeps' d hd
      exact ⟨w', hgrows d w' hw'⟩

theorem levelFor_reached {fuel : Nat} {visiting : List α} {x : α} {value : Nat}
    (hsound : Sound nodes memo) (h : levelFor nodes fuel visiting memo x = .ok (value, memo')) :
    Reached nodes memo x value memo' := by
  induction fuel generalizing visiting memo memo' x value with
  | zero => cases h
  | succ fuel ih =>
    unfold levelFor at h
    split at h
    · rename_i stored hstored
      cases h
      exact ⟨hsound, .refl _, hstored⟩
    · split at h
      · cases h
      · split at h
        · cases h
        · rename_i own deps hknown
          simp only [bind_eq_ok, Prod.exists] at h
          obtain ⟨best, memo₁, hmax, heq⟩ := h
          cases heq
          have hcollected := maxOver_collected (fun _ _ _ _ hs hl => ih hs hl) hsound hmax
          obtain ⟨hset, hgrows⟩ := hcollected.sound.set (isLevel_max hknown hcollected) hknown
            fun d hd => (hcollected.above d hd).imp fun w hw => hw.1
          exact ⟨hset, hcollected.grows.trans hgrows, by simp [Dict.get?_set]⟩

theorem sound_empty : Sound nodes ∅ := ⟨by simp, by simp⟩

theorem levels_sound {fuel : Nat} {ids : List α} (hsound : Sound nodes memo)
    (h : levels nodes fuel memo ids = .ok memo') :
    Sound nodes memo' ∧ Extends memo memo' ∧ ∀ x ∈ ids, ∃ value, memo'.get? x = some value := by
  induction ids generalizing memo with
  | nil =>
    cases h
    exact ⟨hsound, .refl _, by simp⟩
  | cons x rest ih =>
    simp only [levels, bind_eq_ok, Prod.exists] at h
    obtain ⟨value, memo₁, hx, hrest⟩ := h
    have hreached := levelFor_reached hsound hx
    obtain ⟨hsound', hgrows, hall⟩ := ih hreached.sound hrest
    refine ⟨hsound', hreached.grows.trans hgrows, ?_⟩
    intro y hy
    rcases List.mem_cons.mp hy with rfl | hy
    · exact ⟨value, hgrows _ _ hreached.stored⟩
    · exact hall y hy

/-- A memo that holds the listed nodes ranks them: dependencies are at smaller levels. -/
theorem Sound.level_lt (h : Sound nodes memo) {x d : α} {own value w : Nat} {deps : List α}
    (hknown : nodes x = some (own, deps)) (hd : d ∈ deps) (hx : memo.get? x = some value)
    (hw : memo.get? d = some w) : w < value :=
  (h.isLevel hx).2 (.edge hknown hd (h.isLevel hw).1)

/-- The listed nodes are known, and `rank` decreases along every dependency. -/
def Ranked (nodes : Nodes α) (ids : List α) (rank : α → Nat) : Prop :=
  ∀ x ∈ ids, ∃ own deps, nodes x = some (own, deps) ∧ ∀ d ∈ deps, d ∈ ids ∧ rank d < rank x

omit [DecidableEq α] in
theorem maxOver_total {level : Dict α Nat → α → Except (Failure α) (Nat × Dict α Nat)}
    {deps : List α} (hlevel : ∀ d ∈ deps, ∀ memo, ∃ result, level memo d = .ok result)
    (best : Nat) (memo : Dict α Nat) : ∃ result, maxOver level best memo deps = .ok result := by
  induction deps generalizing best memo with
  | nil => exact ⟨_, rfl⟩
  | cons d rest ih =>
    obtain ⟨⟨value, memo₁⟩, hd⟩ := hlevel d List.mem_cons_self memo
    obtain ⟨result, hrest⟩ := ih (fun e he => hlevel e (List.mem_cons_of_mem _ he))
      (max best (value + 1)) memo₁
    refine ⟨result, ?_⟩
    simp only [maxOver, bind_eq_ok]
    exact ⟨_, hd, hrest⟩

/-- A ranked node is never on the stack above itself, and the stack never holds
more than the listed nodes. -/
theorem levelFor_total {ids : List α} {rank : α → Nat} (hranked : Ranked nodes ids rank)
    {fuel : Nat} {visiting : List α} {x : α} (memo : Dict α Nat) (hx : x ∈ ids)
    (hnodup : visiting.Nodup) (hsub : visiting ⊆ ids) (hrank : ∀ y ∈ visiting, rank x < rank y)
    (hfuel : ids.length < fuel + visiting.length) :
    ∃ result, levelFor nodes fuel visiting memo x = .ok result := by
  induction fuel generalizing visiting memo x with
  | zero =>
    have := (hnodup.subperm hsub).length_le
    omega
  | succ fuel ih =>
    have hfresh : x ∉ visiting := fun hin => Nat.lt_irrefl _ (hrank x hin)
    obtain ⟨own, deps, hknown, hdeps⟩ := hranked x hx
    unfold levelFor
    split
    · exact ⟨_, rfl⟩
    · rw [if_neg hfresh, hknown]
      obtain ⟨⟨best, memo'⟩, hmax⟩ := maxOver_total
        (fun d hd memo => ih memo (hdeps d hd).1 (List.nodup_cons.mpr ⟨hfresh, hnodup⟩)
            (List.cons_subset.mpr ⟨hx, hsub⟩)
            (fun y hy => by
              rcases List.mem_cons.mp hy with rfl | hy
              · exact (hdeps d hd).2
              · exact (hdeps d hd).2.trans (hrank y hy))
            (by simp only [List.length_cons]; omega)) 0 memo
      simp only [bind_eq_ok]
      exact ⟨_, _, hmax, rfl⟩

/-- On a ranked list of nodes the walk returns, with fuel for one step more than there are nodes. -/
theorem levels_total {ids : List α} {rank : α → Nat} (hranked : Ranked nodes ids rank)
    {fuel : Nat} (hfuel : ids.length < fuel) {xs : List α} (hxs : xs ⊆ ids) (memo : Dict α Nat) :
    ∃ memo', levels nodes fuel memo xs = .ok memo' := by
  induction xs generalizing memo with
  | nil => exact ⟨memo, rfl⟩
  | cons x rest ih =>
    obtain ⟨hx, hrest⟩ := List.cons_subset.mp hxs
    obtain ⟨⟨value, memo₁⟩, hlevel⟩ := levelFor_total hranked memo hx List.nodup_nil
      (List.nil_subset _) (by simp) (by simpa using hfuel)
    obtain ⟨memo', hrest⟩ := ih hrest memo₁
    refine ⟨memo', ?_⟩
    simp only [levels, bind_eq_ok]
    exact ⟨_, hlevel, hrest⟩

/-- Where the listed nodes are the known ones, the walk returns exactly when they can be ranked. -/
theorem levels_isOk_iff {ids : List α} {fuel : Nat} (hfuel : ids.length < fuel)
    (hlisted : ∀ x, nodes x ≠ none → x ∈ ids) :
    (∃ memo, levels nodes fuel ∅ ids = .ok memo) ↔ ∃ rank, Ranked nodes ids rank := by
  constructor
  · rintro ⟨memo, h⟩
    obtain ⟨hsound, -, hall⟩ := levels_sound sound_empty h
    refine ⟨fun x => (memo.get? x).getD 0, fun x hx => ?_⟩
    obtain ⟨value, hvalue⟩ := hall x hx
    obtain ⟨own, deps, hknown, hdeps⟩ := hsound.closed hvalue
    refine ⟨own, deps, hknown, fun d hd => ?_⟩
    obtain ⟨w, hw⟩ := hdeps d hd
    obtain ⟨own', deps', hknown', -⟩ := hsound.closed hw
    refine ⟨hlisted d (by simp [hknown']), ?_⟩
    simpa [hvalue, hw] using hsound.level_lt hknown hd hvalue hw
  · rintro ⟨rank, hranked⟩
    exact levels_total hranked hfuel (List.Subset.refl ids) ∅

omit [DecidableEq α] in
theorem maxOver_ne_outOfFuel
    {level : Dict α Nat → α → Except (Failure α) (Nat × Dict α Nat)}
    (hlevel : ∀ memo d, level memo d ≠ .error .outOfFuel)
    (best : Nat) (memo : Dict α Nat) (deps : List α) :
    maxOver level best memo deps ≠ .error .outOfFuel := by
  induction deps generalizing best memo with
  | nil => simp [maxOver]
  | cons d rest ih =>
    unfold maxOver
    cases hd : level memo d with
    | error failure => exact fun h => hlevel memo d (hd.trans h)
    | ok result => exact ih _ _

theorem levelFor_ne_outOfFuel {ids : List α} (hlisted : ∀ x, nodes x ≠ none → x ∈ ids)
    {fuel : Nat} {visiting : List α} (memo : Dict α Nat) (x : α) (hnodup : visiting.Nodup)
    (hsub : visiting ⊆ ids) (hfuel : ids.length < fuel + visiting.length) :
    levelFor nodes fuel visiting memo x ≠ .error .outOfFuel := by
  induction fuel generalizing visiting memo x with
  | zero =>
    have := (hnodup.subperm hsub).length_le
    omega
  | succ fuel ih =>
    unfold levelFor
    split
    · simp
    · split
      · simp
      · rename_i hfresh
        split
        · simp
        · rename_i own deps hknown
          have hmax := maxOver_ne_outOfFuel
            (fun memo d => ih memo d (List.nodup_cons.mpr ⟨hfresh, hnodup⟩)
              (List.cons_subset.mpr ⟨hlisted x (by simp [hknown]), hsub⟩)
              (by simp only [List.length_cons]; omega)) 0 memo deps
          cases hresult : maxOver (levelFor nodes fuel (x :: visiting)) 0 memo deps with
          | error failure => exact fun h => hmax (hresult.trans h)
          | ok result => exact fun h => nomatch h

/-- The fuel is never what ends the walk. -/
theorem levels_ne_outOfFuel {ids : List α} (hlisted : ∀ x, nodes x ≠ none → x ∈ ids)
    {fuel : Nat} (hfuel : ids.length < fuel) (memo : Dict α Nat) (xs : List α) :
    levels nodes fuel memo xs ≠ .error .outOfFuel := by
  induction xs generalizing memo with
  | nil => simp [levels]
  | cons x rest ih =>
    have hx := levelFor_ne_outOfFuel hlisted memo x List.nodup_nil (List.nil_subset _)
      (by simpa using hfuel)
    unfold levels
    cases hlevel : levelFor nodes fuel [] memo x with
    | error failure =>
      intro h
      cases h
      exact hx hlevel
    | ok result => exact ih _

omit [DecidableEq α] in
/-- One level is below another exactly when some chain of the other asks for more
than each of its chains. -/
theorem level_lt_iff {x y : α} {v w : Nat} (hx : IsLevel nodes x v) (hy : IsLevel nodes y w) :
    v < w ↔ ∃ n, Chain nodes y n ∧ ∀ m, Chain nodes x m → m < n := by
  constructor
  · intro h
    exact ⟨w, hy.1, fun m hm => (hx.2 hm).trans_lt h⟩
  · rintro ⟨n, hn, hall⟩
    exact (hall v hx.1).trans_le (hy.2 hn)

end ProjectOS.Base.Levels
