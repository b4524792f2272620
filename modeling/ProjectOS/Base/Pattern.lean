import Mathlib.Data.List.Infix
import ProjectOS.Base.Text

/-! Patterns of a backtracking matcher. A pattern lists its matches at the start of
a text in the order in which the matcher tries them, so the first is the match. -/
namespace ProjectOS.Base

/-- The matches at the start of a text, each with what it yields and what it leaves. -/
def Pattern (α : Type) : Type := List Char → List (α × List Char)

namespace Pattern

variable {α β : Type}

instance : Monad Pattern where
  pure a := fun text => [(a, text)]
  bind p f := fun text => (p text).flatMap fun m => f m.1 m.2

/-- `p|q`. -/
def either (p q : Pattern α) : Pattern α := fun text => p text ++ q text

def char (accepts : Char → Bool) : Pattern Char
  | [] => []
  | c :: text => if accepts c then [(c, text)] else []

/-- The letters of a word; `fold` gives what the pattern compares of a character. -/
def literal (fold : Char → Char) (word : List Char) : Pattern Unit := fun text =>
  if (word.map fold).isPrefixOf (text.map fold) then [((), text.drop word.length)] else []

/-- `[accepts]*`, the longest run first. -/
def greedy (accepts : Char → Bool) : Pattern (List Char)
  | [] => [([], [])]
  | c :: text =>
      if accepts c then (greedy accepts text).map (fun m => (c :: m.1, m.2)) ++ [([], c :: text)]
      else [([], c :: text)]

/-- `[accepts]+`. -/
def greedy1 (accepts : Char → Bool) : Pattern (List Char) := do
  let c ← char accepts
  let run ← greedy accepts
  return c :: run

/-- `.*?` where the dot is any character. -/
def lazily : Pattern (List Char)
  | [] => [([], [])]
  | c :: text => ([], c :: text) :: (lazily text).map fun m => (c :: m.1, m.2)

/-- `$`: the end of the text, or the newline that ends it. -/
def atEnd : Pattern Unit := fun text => if text = [] ∨ text = ['\n'] then [((), text)] else []

/-- The match at the start of a text. -/
def first (p : Pattern α) (text : List Char) : Option (α × List Char) := (p text).head?

/-- `re.search`. -/
def search (p : Pattern α) (text : List Char) : Option α :=
  text.tails.findSome? fun rest => (first p rest).map Prod.fst

/-- A part of a text that is searched for all matches. Of a match it has what stands
before it, the last character first, and what stands behind it. -/
inductive Piece (α : Type) where
  | kept (c : Char)
  | found (before : List Char) (value : α) (rest : List Char)
deriving DecidableEq, Repr

/-- All matches, for patterns that match at least one character. `opens` is what a
pattern asks of the character before its match; the matcher leaves out the characters
it has matched. -/
def pieces (opens : Option Char → Bool) (p : Pattern α) :
    Nat → List Char → List Char → List (Piece α)
  | _, _, [] => []
  | skip + 1, before, c :: text => pieces opens p skip (c :: before) text
  | 0, before, c :: text =>
      match if opens before.head? then first p (c :: text) else none with
      | some (value, rest) =>
          .found before value rest :: pieces opens p (text.length - rest.length) (c :: before) text
      | none => .kept c :: pieces opens p 0 (c :: before) text

/-- Of a match, the text before it, what it yields and the text behind it. -/
def Piece.match? : Piece α → Option (List Char × α × List Char)
  | .kept _ => none
  | .found before value rest => some (before.reverse, value, rest)

/-- The matches from one place of a text on. -/
def matchesFrom (opens : Option Char → Bool) (p : Pattern α) (before text : List Char) :
    List (List Char × α × List Char) :=
  (pieces opens p 0 before.reverse text).filterMap Piece.match?

/-- `re.finditer`. -/
def findIter (opens : Option Char → Bool) (p : Pattern α) (text : List Char) :
    List (List Char × α × List Char) :=
  matchesFrom opens p [] text

/-- `re.findall`. -/
def findAll (opens : Option Char → Bool) (p : Pattern α) (text : List Char) : List α :=
  (findIter opens p text).map (·.2.1)

/-- The text from one place on, with a function of the match and of the text behind
it in the place of every match. -/
def substituteFrom (opens : Option Char → Bool) (p : Pattern α) (f : α → List Char → List Char)
    (before text : List Char) : List Char :=
  (pieces opens p 0 before.reverse text).flatMap fun
    | .kept c => [c]
    | .found _ value rest => f value rest

/-- `re.sub`. -/
def substitute (opens : Option Char → Bool) (p : Pattern α) (f : α → List Char → List Char)
    (text : List Char) : List Char :=
  substituteFrom opens p f [] text

/-- A pattern matches nowhere in `front`, with `own` behind it. -/
def Absent (p : Pattern α) (front own : List Char) : Prop :=
  ∀ a b, a ++ b = front → b ≠ [] → p (b ++ own) = []

theorem absent_iff {p : Pattern α} {front own : List Char} :
    Absent p front own ↔ ∀ n < front.length, p (front.drop n ++ own) = [] := by
  constructor
  · intro h n hn
    exact h (front.take n) (front.drop n) (List.take_append_drop n front) (by simpa using hn)
  · intro h a b hfront hb
    have hlength : a.length < front.length := by
      have := List.length_pos_iff.mpr hb
      rw [← hfront, List.length_append]
      omega
    have := h a.length hlength
    rwa [← hfront, List.drop_left] at this

instance [DecidableEq α] (p : Pattern α) (front own : List Char) : Decidable (Absent p front own) :=
  decidable_of_iff _ absent_iff.symm

/-- No match that asks `opens` of the character before it starts in `front`. -/
def Silent (opens : Option Char → Bool) (p : Pattern α) (before front own : List Char) : Prop :=
  ∀ a b, a ++ b = front → b ≠ [] → opens (before ++ a).getLast? = true → p (b ++ own) = []

theorem silent_iff {opens : Option Char → Bool} {p : Pattern α} {before front own : List Char} :
    Silent opens p before front own ↔ ∀ n < front.length,
      opens (before ++ front.take n).getLast? = true → p (front.drop n ++ own) = [] := by
  constructor
  · intro h n hn
    exact h (front.take n) (front.drop n) (List.take_append_drop n front) (by simpa using hn)
  · intro h a b hfront hb hopens
    have hlength : a.length < front.length := by
      have := List.length_pos_iff.mpr hb
      rw [← hfront, List.length_append]
      omega
    have := h a.length hlength
    rw [← hfront, List.drop_left, List.take_left] at this
    exact this hopens

instance [DecidableEq α] (opens : Option Char → Bool) (p : Pattern α)
    (before front own : List Char) : Decidable (Silent opens p before front own) :=
  decidable_of_iff _ silent_iff.symm

theorem pure_apply (a : α) (text : List Char) : (pure a : Pattern α) text = [(a, text)] := rfl

theorem bind_apply (p : Pattern α) (f : α → Pattern β) (text : List Char) :
    (p >>= f) text = (p text).flatMap fun m => f m.1 m.2 := rfl

theorem first_bind (p : Pattern α) (f : α → Pattern β) (text : List Char) :
    first (p >>= f) text = (p text).findSome? fun m => first (f m.1) m.2 := by
  unfold first
  rw [bind_apply, List.head?_flatMap]

theorem bind_eq_nil {p : Pattern α} {text : List Char} (h : p text = []) (f : α → Pattern β) :
    (p >>= f) text = [] := by
  rw [bind_apply, h, List.flatMap_nil]

section deterministic
variable {p : Pattern α} {a : α} {text rest : List Char}

/-- A pattern with one match hands over to what follows it. -/
theorem bind_of_eq (h : p text = [(a, rest)]) (f : α → Pattern β) : (p >>= f) text = f a rest := by
  rw [bind_apply, h, List.flatMap_singleton]

theorem first_bind_of_eq (h : p text = [(a, rest)]) (f : α → Pattern β) :
    first (p >>= f) text = first (f a) rest := by
  unfold first
  rw [bind_of_eq h]

/-- The first match decides where the rest of the pattern matches behind it. -/
theorem first_bind_of_first {f : α → Pattern β} {m : β × List Char}
    (h : first p text = some (a, rest)) (hrest : first (f a) rest = some m) :
    first (p >>= f) text = some m := by
  obtain ⟨others, hmatches⟩ := List.head?_eq_some_iff.mp h
  rw [first_bind, hmatches, List.findSome?_cons, hrest]

end deterministic

section alternatives
variable {p q : Pattern α} {text : List Char}

theorem first_either_left {m : α × List Char} (h : first p text = some m) :
    first (either p q) text = some m := by
  unfold first either at *
  rw [List.head?_append, h]
  rfl

theorem first_either_right (h : p text = []) : first (either p q) text = first q text := by
  unfold first either
  rw [h, List.nil_append]

theorem either_eq_nil (hp : p text = []) (hq : q text = []) : either p q text = [] := by
  rw [either, hp, hq, List.append_nil]

end alternatives

theorem literal_append {fold : Char → Char} {word spelling : List Char}
    (h : spelling.map fold = word.map fold) (rest : List Char) :
    literal fold word (spelling ++ rest) = [((), rest)] := by
  have hlength : word.length = spelling.length := by
    have := congrArg List.length h
    simpa using this.symm
  have hstart : (word.map fold).isPrefixOf ((spelling ++ rest).map fold) = true := by
    rw [List.isPrefixOf_iff_prefix, List.map_append, h]
    exact List.prefix_append _ _
  rw [literal, if_pos hstart, hlength, List.drop_left]

/-- A word does not match where its first letter differs. -/
theorem literal_eq_nil {fold : Char → Char} {d : Char} {word text : List Char}
    (h : ∀ c ∈ text.head?, fold c ≠ fold d) : literal fold (d :: word) text = [] := by
  cases text with
  | nil => simp [literal]
  | cons c text =>
    have hc : fold d ≠ fold c := (h c rfl).symm
    simp [literal, hc]

section runs
variable {accepts : Char → Bool} {run rest : List Char}

theorem greedy_stop (h : ∀ c ∈ rest.head?, accepts c = false) :
    greedy accepts rest = [([], rest)] := by
  cases rest with
  | nil => rfl
  | cons c rest => simp [greedy, h c rfl]

/-- The longest run is tried first. -/
theorem greedy_append (hrun : ∀ c ∈ run, accepts c = true)
    (hrest : ∀ c ∈ rest.head?, accepts c = false) :
    ∃ shorter, greedy accepts (run ++ rest) = (run, rest) :: shorter := by
  induction run with
  | nil => exact ⟨[], greedy_stop hrest⟩
  | cons c run ih =>
    obtain ⟨shorter, hshorter⟩ := ih fun d hd => hrun d (List.mem_cons_of_mem _ hd)
    have hc := hrun c List.mem_cons_self
    simp [greedy, hc, hshorter]

theorem first_greedy {f : List Char → Pattern β} {m : β × List Char}
    (hrun : ∀ c ∈ run, accepts c = true) (hrest : ∀ c ∈ rest.head?, accepts c = false)
    (h : first (f run) rest = some m) : first (greedy accepts >>= f) (run ++ rest) = some m := by
  obtain ⟨shorter, hshorter⟩ := greedy_append hrun hrest
  rw [first_bind, hshorter, List.findSome?_cons, h]

theorem first_greedy1 {f : List Char → Pattern β} {m : β × List Char} (hne : run ≠ [])
    (hrun : ∀ c ∈ run, accepts c = true) (hrest : ∀ c ∈ rest.head?, accepts c = false)
    (h : first (f run) rest = some m) : first (greedy1 accepts >>= f) (run ++ rest) = some m := by
  cases run with
  | nil => exact absurd rfl hne
  | cons c run =>
    have hc := hrun c List.mem_cons_self
    have hchar : char accepts (c :: run ++ rest) = [(c, run ++ rest)] := by simp [char, hc]
    have hassoc : (greedy1 accepts >>= f) (c :: run ++ rest) =
        (char accepts >>= fun d => greedy accepts >>= fun ds => f (d :: ds)) (c :: run ++ rest) := by
      simp [greedy1, bind_apply, pure_apply, List.flatMap_assoc]
    unfold first at h ⊢
    rw [hassoc, bind_of_eq hchar]
    exact first_greedy (fun d hd => hrun d (List.mem_cons_of_mem _ hd)) hrest h

theorem greedy1_eq_nil (h : ∀ c ∈ rest.head?, accepts c = false) : greedy1 accepts rest = [] := by
  cases rest with
  | nil => rfl
  | cons c rest =>
    have hchar : char accepts (c :: rest) = [] := by simp [char, h c rfl]
    exact bind_eq_nil hchar _

end runs

theorem lazily_append (front own : List Char) :
    ∃ shorter longer, lazily (front ++ own) = shorter ++ (front, own) :: longer ∧
      ∀ m ∈ shorter, m.1 ++ m.2 = front ++ own ∧ m.1.length < front.length := by
  induction front with
  | nil =>
    cases own with
    | nil => exact ⟨[], [], rfl, by simp⟩
    | cons c own => exact ⟨[], _, rfl, by simp⟩
  | cons c front ih =>
    obtain ⟨shorter, longer, hsplit, hshorter⟩ := ih
    refine ⟨([], c :: (front ++ own)) :: shorter.map fun m => (c :: m.1, m.2),
      longer.map fun m => (c :: m.1, m.2), ?_, ?_⟩
    · simp [lazily, hsplit]
    · intro m hm
      rcases List.mem_cons.mp hm with hhere | hlater
      · simp [hhere]
      · obtain ⟨n, hn, hmap⟩ := List.mem_map.mp hlater
        have := hshorter n hn
        simp [← hmap, this]

/-- A lazy gap ends where what follows it matches first. -/
theorem first_lazily {f : List Char → Pattern β} {front own : List Char} {m : β × List Char}
    (habsent : ∀ a b, a ++ b = front → b ≠ [] → f a (b ++ own) = [])
    (h : first (f front) own = some m) : first (lazily >>= f) (front ++ own) = some m := by
  obtain ⟨shorter, longer, hsplit, hshorter⟩ := lazily_append front own
  have hnone : shorter.findSome? (fun m => first (f m.1) m.2) = none := by
    rw [List.findSome?_eq_none_iff]
    intro n hn
    obtain ⟨htext, hlength⟩ := hshorter n hn
    obtain ⟨b, hfront, hrest⟩ := (List.append_eq_append_iff.mp htext).resolve_right (by
      intro ⟨b, hfirst, _⟩
      have := congrArg List.length hfirst
      rw [List.length_append] at this
      omega)
    have hb : b ≠ [] := by
      rintro rfl
      rw [List.append_nil] at hfront
      rw [hfront] at hlength
      omega
    rw [hrest, first, habsent n.1 b hfront.symm hb]
    rfl
  rw [first_bind, hsplit, List.findSome?_append, hnone, List.findSome?_cons, h]
  rfl

section absent
variable {p : Pattern α} {c : Char} {front own : List Char}

theorem Absent.head (h : Absent p (c :: front) own) : p (c :: (front ++ own)) = [] :=
  h [] (c :: front) rfl (List.cons_ne_nil _ _)

theorem Absent.tail (h : Absent p (c :: front) own) : Absent p front own := by
  intro a b hfront hb
  exact h (c :: a) b (by rw [List.cons_append, hfront]) hb

theorem search_of_first {m : α × List Char} (h : first p own = some m) : search p own = some m.1 := by
  cases own with
  | nil => simp [search, h]
  | cons c own => rw [search, List.tails_cons, List.findSome?_cons, h, Option.map_some]

theorem search_append (h : Absent p front own) : search p (front ++ own) = search p own := by
  induction front with
  | nil => rfl
  | cons c front ih =>
    have hhead : first p (c :: (front ++ own)) = none := by
      rw [first, h.head]
      rfl
    rw [← ih h.tail, List.cons_append, search, List.tails_cons, List.findSome?_cons, hhead]
    rfl

theorem search_eq_none (h : Absent p front []) (hnil : p [] = []) : search p front = none := by
  have := search_append h
  rw [List.append_nil] at this
  rw [this]
  simp [search, first, hnil]

end absent

section pieces
variable {opens : Option Char → Bool} {p : Pattern α} {before front own : List Char}

theorem Silent.drop {a : List Char} (h : Silent opens p before (a ++ front) own) :
    Silent opens p (before ++ a) front own := by
  intro b c hfront hc hopens
  rw [List.append_assoc] at hopens
  exact h (a ++ b) c (by rw [List.append_assoc, hfront]) hc hopens

theorem pieces_skip : pieces opens p front.length before (front ++ own) =
    pieces opens p 0 (front.reverse ++ before) own := by
  induction front generalizing before with
  | nil => rfl
  | cons c front ih => simp [pieces, ih]

/-- What no match starts in is kept. -/
theorem pieces_silent (h : Silent opens p before front own) :
    pieces opens p 0 before.reverse (front ++ own) =
      front.map .kept ++ pieces opens p 0 (before ++ front).reverse own := by
  induction front generalizing before with
  | nil => rw [List.append_nil, List.map_nil]; rfl
  | cons c front ih =>
    have hhere : (if opens before.reverse.head? then first p (c :: (front ++ own)) else none) =
        none := by
      split
      · rename_i hopens
        rw [← List.getLast?_eq_head?_reverse] at hopens
        have hnone := h [] (c :: front) rfl (List.cons_ne_nil _ _) (by rwa [List.append_nil])
        rw [List.cons_append] at hnone
        rw [first, hnone]
        rfl
      · rfl
    have hrest := ih (h.drop (a := [c]))
    rw [List.append_assoc, List.reverse_append] at hrest
    rw [List.cons_append, pieces, hhere]
    simp only [List.map_cons, List.cons_append]
    exact congrArg (_ :: ·) hrest

theorem pieces_found {value : α} (hne : front ≠ []) (hopens : opens before.head? = true)
    (h : first p (front ++ own) = some (value, own)) :
    pieces opens p 0 before (front ++ own) =
      .found before value own :: pieces opens p 0 (front.reverse ++ before) own := by
  cases front with
  | nil => exact absurd rfl hne
  | cons c front =>
    rw [List.cons_append] at h
    have hlength : (front ++ own).length - own.length = front.length := by
      rw [List.length_append]
      omega
    rw [List.cons_append, pieces, if_pos hopens, h]
    simp only
    rw [hlength, pieces_skip]
    simp

theorem matchesFrom_silent (h : Silent opens p before front own) :
    matchesFrom opens p before (front ++ own) = matchesFrom opens p (before ++ front) own := by
  have hkept : (front.map Piece.kept).filterMap (Piece.match? (α := α)) = [] := by
    rw [List.filterMap_map, List.filterMap_eq_nil_iff]
    exact fun _ _ => rfl
  rw [matchesFrom, pieces_silent h, List.filterMap_append, hkept, List.nil_append, matchesFrom]

theorem matchesFrom_found {value : α} (hne : front ≠ []) (hopens : opens before.getLast? = true)
    (h : first p (front ++ own) = some (value, own)) :
    matchesFrom opens p before (front ++ own) =
      (before, value, own) :: matchesFrom opens p (before ++ front) own := by
  rw [List.getLast?_eq_head?_reverse] at hopens
  have hmatch : (Piece.found before.reverse value own).match? = some (before, value, own) := by
    rw [Piece.match?, List.reverse_reverse]
  rw [matchesFrom, pieces_found hne hopens h, List.filterMap_cons_some hmatch,
    ← List.reverse_append, matchesFrom]

variable {f : α → List Char → List Char}

theorem substituteFrom_silent (h : Silent opens p before front own) :
    substituteFrom opens p f before (front ++ own) =
      front ++ substituteFrom opens p f (before ++ front) own := by
  rw [substituteFrom, pieces_silent h, List.flatMap_append, List.flatMap_map, substituteFrom]
  congr 1
  exact List.flatMap_singleton' front

theorem substituteFrom_found {value : α} (hne : front ≠ []) (hopens : opens before.getLast? = true)
    (h : first p (front ++ own) = some (value, own)) :
    substituteFrom opens p f before (front ++ own) =
      f value own ++ substituteFrom opens p f (before ++ front) own := by
  rw [List.getLast?_eq_head?_reverse] at hopens
  rw [substituteFrom, pieces_found hne hopens h, List.flatMap_cons, ← List.reverse_append,
    substituteFrom]

/-- Where a pattern matches nowhere, nothing is replaced. -/
theorem substitute_of_absent {text : List Char} (h : Absent p text []) :
    substitute opens p f text = text := by
  have hsilent : Silent opens p [] text [] := fun a b htext hb _ => h a b htext hb
  have hkept := substituteFrom_silent (f := f) hsilent
  rw [List.append_nil] at hkept
  rw [substitute, hkept]
  exact List.append_nil text

end pieces

end Pattern

open Text

/-- `\w` in a pattern on texts. Outside ASCII it is left open. -/
structure WordChars where
  isWord : Char → Bool
  ascii : ∀ c, c.toNat < 128 → isWord c = (isAsciiLetter c || isAsciiDigit c || c == '_')
  space : ∀ c, isSpace c = true → isWord c = false

/-- `\b` before a word character. -/
def WordChars.wordStart (w : WordChars) (previous : Option Char) : Bool :=
  previous.all (!w.isWord ·)

/-- `\w` where the text is ASCII. -/
def asciiWords : WordChars where
  isWord c := isAsciiLetter c || isAsciiDigit c || c == '_'
  ascii := fun _ _ => rfl
  space := by
    intro c h
    by_contra hword
    simp [isSpace, isAsciiLetter, isAsciiDigit, Char.le_def, UInt32.le_iff_toNat_le] at h hword
    have hunder : c.toNat = 95 := congrArg Char.toNat (hword (by omega) (by omega) (by omega))
    omega

end ProjectOS.Base
