import Mathlib.Computability.Language
import Mathlib.Data.List.Infix
import ProjectOS.Base.Glob

/-! The language of a glob pattern: a product over its tokens, where a star is any word. -/
namespace ProjectOS.Base.Glob

/-- The words a token stands for. -/
def Token.language : Token → Language Char
  | .star => Set.univ
  | .any => {word | ∃ c, word = [c]}
  | .literal a => {[a]}
  | .set negated ranges => {word | ∃ c, word = [c] ∧ (negated != inRanges ranges c) = true}

def tokensLanguage (tokens : List Token) : Language Char := (tokens.map Token.language).prod

/-- The names a pattern matches. -/
def language (pattern : String) : Language Char := tokensLanguage (tokens pattern)

@[simp] theorem tokensLanguage_nil : tokensLanguage [] = 1 := rfl

@[simp] theorem tokensLanguage_cons (token : Token) (rest : List Token) :
    tokensLanguage (token :: rest) = token.language * tokensLanguage rest := by
  simp [tokensLanguage]

@[simp] theorem tokensLanguage_append (a b : List Token) :
    tokensLanguage (a ++ b) = tokensLanguage a * tokensLanguage b := by
  simp [tokensLanguage]

theorem mem_star_mul {rest : Language Char} {word : List Char} :
    word ∈ Token.star.language * rest ↔ ∃ tail ∈ word.tails, tail ∈ rest := by
  rw [Language.mem_mul]
  constructor
  · rintro ⟨front, -, tail, htail, rfl⟩
    exact ⟨tail, (List.mem_tails _ _).mpr (List.suffix_append _ _), htail⟩
  · rintro ⟨tail, hsuffix, htail⟩
    obtain ⟨front, rfl⟩ := (List.mem_tails _ _).mp hsuffix
    exact ⟨front, trivial, tail, htail, rfl⟩

/-- A token that stands for one character. -/
theorem mem_char_mul {first : Language Char} {allowed : Char → Prop}
    (hfirst : ∀ word, word ∈ first ↔ ∃ c, word = [c] ∧ allowed c) {rest : Language Char}
    {word : List Char} :
    word ∈ first * rest ↔ ∃ c tail, word = c :: tail ∧ allowed c ∧ tail ∈ rest := by
  rw [Language.mem_mul]
  constructor
  · rintro ⟨front, hfront, tail, htail, rfl⟩
    obtain ⟨c, rfl, hc⟩ := (hfirst front).mp hfront
    exact ⟨c, tail, rfl, hc, htail⟩
  · rintro ⟨c, tail, rfl, hc, htail⟩
    exact ⟨[c], (hfirst _).mpr ⟨c, rfl, hc⟩, tail, htail, rfl⟩

theorem mem_any {word : List Char} :
    word ∈ Token.any.language ↔ ∃ c, word = [c] ∧ True := by
  simp [Token.language]
  rfl

theorem mem_literal {a : Char} {word : List Char} :
    word ∈ (Token.literal a).language ↔ ∃ c, word = [c] ∧ a = c := by
  simp [Token.language]
  rfl

theorem mem_set {negated : Bool} {ranges : List (Char × Char)} {word : List Char} :
    word ∈ (Token.set negated ranges).language ↔
      ∃ c, word = [c] ∧ (negated != inRanges ranges c) = true := Iff.rfl

/-- The matcher decides the language. -/
theorem matchTokens_iff {tokens : List Token} {word : List Char} :
    matchTokens tokens word = true ↔ word ∈ tokensLanguage tokens := by
  induction tokens generalizing word with
  | nil => simp [matchTokens, Language.mem_one]
  | cons token rest ih =>
    rw [tokensLanguage_cons]
    cases token with
    | star => simp [matchTokens, mem_star_mul, ih]
    | any =>
      rw [mem_char_mul fun _ => mem_any]
      cases word <;> simp [matchTokens, ih]
    | literal a =>
      rw [mem_char_mul fun _ => mem_literal]
      cases word with
      | nil => simp [matchTokens]
      | cons c tail =>
        simp only [matchTokens, Bool.and_eq_true, decide_eq_true_eq, ih]
        constructor
        · rintro ⟨hc, htail⟩
          exact ⟨c, tail, rfl, hc, htail⟩
        · rintro ⟨_, _, heq, hc, htail⟩
          cases heq
          exact ⟨hc, htail⟩
    | set negated ranges =>
      rw [mem_char_mul fun _ => mem_set]
      cases word <;> simp [matchTokens, ih]

theorem fnmatch_iff {name pattern : String} :
    fnmatch name pattern = true ↔ name.toList ∈ language pattern := matchTokens_iff

theorem bracket_notMem {pattern : String} (h : hasGlob pattern = false) :
    '[' ∉ pattern.toList := by
  intro hmem
  rw [hasGlob, List.any_eq_false] at h
  exact h _ hmem (by decide)

/-! Without an opening bracket every character of a pattern is a token of its own. -/

def tokenOf : Char → Token
  | '*' => .star
  | '?' => .any
  | c => .literal c

theorem tokensFrom_cons {c : Char} (hc : c ≠ '[') (fuel : Nat) (cs : List Char) :
    tokensFrom (fuel + 1) (c :: cs) = tokenOf c :: tokensFrom fuel cs := by
  by_cases hstar : c = '*'
  · subst hstar
    rfl
  · by_cases hany : c = '?'
    · subst hany
      rfl
    · have htoken : tokenOf c = .literal c := by
        unfold tokenOf
        split <;> simp_all
      rw [tokensFrom, htoken]
      all_goals assumption

theorem tokensFrom_plain {cs : List Char} (h : '[' ∉ cs) :
    tokensFrom cs.length cs = cs.map tokenOf := by
  induction cs with
  | nil => rfl
  | cons c cs ih =>
    rw [List.mem_cons, not_or] at h
    rw [List.length_cons, List.map_cons, tokensFrom_cons (Ne.symm h.1), ih h.2]

theorem language_plain {pattern : String} (h : '[' ∉ pattern.toList) :
    language pattern = tokensLanguage (pattern.toList.map tokenOf) := by
  rw [language, tokens, tokensFrom_plain h]

/-- A pattern with one character in place of every wildcard. -/
def fillWith (c : Char) (pattern : String) : String :=
  String.ofList (pattern.toList.map fun d => if d = '*' || d = '?' then c else d)

theorem mem_tokenOf (c d : Char) :
    [if d = '*' || d = '?' then c else d] ∈ (tokenOf d).language := by
  unfold tokenOf
  split
  · exact trivial
  · exact ⟨c, rfl⟩
  · rename_i hstar hany
    rw [if_neg (by simpa using ⟨hstar, hany⟩)]
    exact rfl

/-- The filled pattern is a name that the pattern matches. -/
theorem fnmatch_fillWith {pattern : String} (h : '[' ∉ pattern.toList) (c : Char) :
    fnmatch (fillWith c pattern) pattern = true := by
  rw [fnmatch_iff, language_plain h, fillWith, String.toList_ofList]
  induction pattern.toList with
  | nil => exact rfl
  | cons d rest ih =>
    rw [List.map_cons, List.map_cons, tokensLanguage_cons]
    exact ⟨_, mem_tokenOf c d, _, ih, rfl⟩

theorem star_mul_star : Token.star.language * Token.star.language = Token.star.language := by
  ext word
  rw [Language.mem_mul]
  exact ⟨fun _ => trivial, fun _ => ⟨[], trivial, word, trivial, rfl⟩⟩

theorem singleStars_subset {c : Char} {cs : List Char} (h : c ∈ singleStars cs) : c ∈ cs := by
  fun_induction singleStars cs with
  | case1 rest ih =>
    rcases List.mem_cons.mp h with rfl | h
    · exact List.mem_cons_self
    · exact List.mem_cons_of_mem _ (List.mem_cons_of_mem _ (ih h))
  | case2 d rest _ ih =>
    rcases List.mem_cons.mp h with rfl | h
    · exact List.mem_cons_self
    · exact List.mem_cons_of_mem _ (ih h)
  | case3 => exact h

theorem tokensLanguage_singleStars (cs : List Char) :
    tokensLanguage ((singleStars cs).map tokenOf) = tokensLanguage (cs.map tokenOf) := by
  fun_induction singleStars cs with
  | case1 rest ih =>
    have hstar : tokenOf '*' = .star := rfl
    simp only [List.map_cons, tokensLanguage_cons, hstar, ih, ← mul_assoc, star_mul_star]
  | case2 d rest _ ih => simp only [List.map_cons, tokensLanguage_cons, ih]
  | case3 => rfl

/-- Two stars match what one star does. -/
theorem language_flattenStars {pattern : String} (h : '[' ∉ pattern.toList) :
    language (flattenStars pattern) = language pattern := by
  have hflat : '[' ∉ (flattenStars pattern).toList := by
    rw [flattenStars, String.toList_ofList]
    exact fun hmem => h (singleStars_subset hmem)
  rw [language_plain h, language_plain hflat, flattenStars, String.toList_ofList,
    tokensLanguage_singleStars]

theorem fnmatch_flattenStars {pattern : String} (h : '[' ∉ pattern.toList) (name : String) :
    fnmatch name (flattenStars pattern) = fnmatch name pattern := by
  rw [Bool.eq_iff_iff, fnmatch_iff, fnmatch_iff, language_flattenStars h]

/-- A plain text before stars matches the names that start with it. -/
theorem fnmatch_stars {text stars : String} (hplain : text.toList.any isSpecial = false)
    (hstars : ∀ tail, matchTokens (tokens stars) tail = true) (name : String) :
    fnmatch name (text ++ stars) = Text.startswith name text := by
  rw [fnmatch, tokens_append hplain, Bool.eq_iff_iff, matchTokens_append, Text.startswith_iff]
  constructor
  · rintro ⟨tail, hname, -⟩
    exact ⟨String.ofList tail, String.toList_inj.mp (by simp [hname])⟩
  · rintro ⟨rest, rfl⟩
    exact ⟨rest.toList, String.toList_append, hstars _⟩

theorem matchTokens_star (tail : List Char) : matchTokens (tokens "*") tail = true := by
  rw [matchTokens_iff]
  exact ⟨tail, trivial, [], rfl, List.append_nil _⟩

theorem matchTokens_stars (tail : List Char) : matchTokens (tokens "**") tail = true := by
  rw [matchTokens_iff]
  exact ⟨tail, trivial, [], ⟨[], trivial, [], rfl, rfl⟩, List.append_nil _⟩

/-! A suffix without a closing bracket leaves the tokens before it as they are. -/

theorem dropWhile_append_suffix {cs suffix : List Char} (h : ']' ∉ suffix) :
    (cs ++ suffix).dropWhile (· ≠ ']') =
      if ']' ∈ cs then cs.dropWhile (· ≠ ']') ++ suffix else [] := by
  induction cs with
  | nil => simpa using fun c hc => (by rintro rfl; exact h hc : c ≠ ']')
  | cons c cs ih =>
    by_cases hc : c = ']'
    · subst hc
      simp
    · have hmem : ']' ∈ c :: cs ↔ ']' ∈ cs := by simp [Ne.symm hc]
      rw [List.cons_append, List.dropWhile_cons_of_pos (by simpa using hc), ih]
      simp only [hmem, List.dropWhile_cons_of_pos (p := (· ≠ ']')) (a := c) (by simpa using hc)]

theorem takeWhile_append_suffix {cs suffix : List Char} (h : ']' ∈ cs) :
    (cs ++ suffix).takeWhile (· ≠ ']') = cs.takeWhile (· ≠ ']') := by
  induction cs with
  | nil => cases h
  | cons c cs ih =>
    by_cases hc : c = ']'
    · subst hc
      simp
    · have hmem : ']' ∈ cs := by simpa [Ne.symm hc] using h
      rw [List.cons_append, List.takeWhile_cons_of_pos (by simpa using hc), ih hmem,
        List.takeWhile_cons_of_pos (by simpa using hc)]

/-- The body up to the closing bracket, after what the head of the set has put in front. -/
def closeBracket (head tail : List Char) : Option (List Char × List Char) :=
  match tail.dropWhile (· ≠ ']') with
  | _ :: rest => some (head ++ tail.takeWhile (· ≠ ']'), rest)
  | [] => none

theorem bracketBody_closing (cs : List Char) :
    bracketBody (']' :: cs) = closeBracket [']'] cs := rfl

theorem bracketBody_other {cs : List Char} (h : cs.head? ≠ some ']') :
    bracketBody cs = closeBracket [] cs := by
  unfold bracketBody closeBracket
  split
  rename_i head tail hsplit
  split at hsplit
  · simp at h
  · cases hsplit
    rfl

theorem closeBracket_append {suffix : List Char} (h : ']' ∉ suffix) (head tail : List Char) :
    closeBracket head (tail ++ suffix) =
      (closeBracket head tail).map fun split => (split.1, split.2 ++ suffix) := by
  unfold closeBracket
  rw [dropWhile_append_suffix h]
  by_cases hmem : ']' ∈ tail
  · rw [if_pos hmem, takeWhile_append_suffix hmem]
    cases hdrop : tail.dropWhile (· ≠ ']') with
    | nil =>
      rw [List.dropWhile_eq_nil_iff] at hdrop
      simpa using hdrop _ hmem
    | cons c rest => rfl
  · have hdrop : tail.dropWhile (· ≠ ']') = [] := by
      rw [List.dropWhile_eq_nil_iff]
      intro c hc
      simpa using fun heq : c = ']' => hmem (heq ▸ hc)
    rw [if_neg hmem, hdrop]
    rfl

theorem bracketBody_append {suffix : List Char} (h : ']' ∉ suffix) (cs : List Char) :
    bracketBody (cs ++ suffix) =
      (bracketBody cs).map fun split => (split.1, split.2 ++ suffix) := by
  have hhead : suffix.head? ≠ some ']' := fun hsome => h (List.mem_of_head? hsome)
  cases cs with
  | nil =>
    rw [List.nil_append, bracketBody_other hhead]
    exact closeBracket_append h [] []
  | cons c cs =>
    by_cases hc : c = ']'
    · subst hc
      exact closeBracket_append h [']'] cs
    · have hne : (c :: cs).head? ≠ some ']' := by simpa using hc
      rw [bracketBody_other hne, bracketBody_other (by simpa using hc), closeBracket_append h]

theorem setToken_negated (cs : List Char) :
    setToken ('!' :: cs) =
      (bracketBody cs).map fun split => (.set true (parseRanges split.1), split.2) := rfl

theorem setToken_other {cs : List Char} (h : cs.head? ≠ some '!') :
    setToken cs =
      (bracketBody cs).map fun split => (.set false (parseRanges split.1), split.2) := by
  unfold setToken
  split
  · simp at h
  · rfl

theorem setToken_append {suffix : List Char} (h : ']' ∉ suffix) (cs : List Char) :
    setToken (cs ++ suffix) = (setToken cs).map fun split => (split.1, split.2 ++ suffix) := by
  cases cs with
  | nil =>
    have hnone : ∀ cs : List Char, ']' ∉ cs → bracketBody cs = none := by
      intro cs hcs
      rw [← List.nil_append cs, bracketBody_append hcs]
      rfl
    have hsuffix : setToken suffix = none := by
      unfold setToken
      split
      · rw [hnone _ (fun hmem => h (List.mem_cons_of_mem _ hmem))]
        rfl
      · rw [hnone _ h]
        rfl
    exact hsuffix
  | cons c cs =>
    by_cases hc : c = '!'
    · subst hc
      rw [List.cons_append, setToken_negated, setToken_negated, bracketBody_append h,
        Option.map_map, Option.map_map]
      rfl
    · rw [setToken_other (by simpa using hc), setToken_other (by simpa using hc),
        bracketBody_append h, Option.map_map, Option.map_map]
      rfl

theorem bracketBody_length {cs body rest : List Char} (h : bracketBody cs = some (body, rest)) :
    rest.length ≤ cs.length := by
  have hclose : ∀ head tail, closeBracket head tail = some (body, rest) →
      rest.length ≤ tail.length := by
    intro head tail hclosed
    unfold closeBracket at hclosed
    split at hclosed
    · rename_i c after hdrop
      cases hclosed
      have hsuffix := List.dropWhile_suffix (l := tail) (· ≠ ']')
      rw [hdrop] at hsuffix
      have hlength := hsuffix.length_le
      rw [List.length_cons] at hlength
      omega
    · cases hclosed
  by_cases hhead : cs.head? = some ']'
  · obtain ⟨cs, rfl⟩ : ∃ tail, cs = ']' :: tail := by
      cases cs with
      | nil => cases hhead
      | cons c cs => exact ⟨cs, by rw [Option.some.inj hhead]⟩
    have hle := hclose _ _ ((bracketBody_closing cs).symm.trans h)
    rw [List.length_cons]
    omega
  · exact hclose _ _ ((bracketBody_other hhead).symm.trans h)

theorem setToken_length {cs rest : List Char} {token : Token}
    (h : setToken cs = some (token, rest)) : rest.length ≤ cs.length := by
  unfold setToken at h
  split at h
  · obtain ⟨split, hbody, heq⟩ := Option.map_eq_some_iff.mp h
    cases heq
    have hle := bracketBody_length hbody
    rw [List.length_cons]
    omega
  · obtain ⟨split, hbody, heq⟩ := Option.map_eq_some_iff.mp h
    cases heq
    exact bracketBody_length hbody

/-- The token at the head of a pattern, and the pattern after it. -/
def tokenStep (c : Char) (rest : List Char) : Token × List Char :=
  if c = '[' then (setToken rest).getD (.literal '[', rest) else (tokenOf c, rest)

theorem tokensFrom_step (fuel : Nat) (c : Char) (rest : List Char) :
    tokensFrom (fuel + 1) (c :: rest) =
      (tokenStep c rest).1 :: tokensFrom fuel (tokenStep c rest).2 := by
  unfold tokenStep
  by_cases hc : c = '['
  · subst hc
    rw [if_pos rfl, tokensFrom]
    cases setToken rest <;> rfl
  · rw [if_neg hc, tokensFrom_cons hc]

theorem tokenStep_length (c : Char) (rest : List Char) :
    (tokenStep c rest).2.length ≤ rest.length := by
  unfold tokenStep
  split
  · cases hset : setToken rest with
    | none => exact le_rfl
    | some split => exact setToken_length hset
  · exact le_rfl

theorem tokenStep_append {suffix : List Char} (h : ']' ∉ suffix) (c : Char) (rest : List Char) :
    tokenStep c (rest ++ suffix) =
      ((tokenStep c rest).1, (tokenStep c rest).2 ++ suffix) := by
  unfold tokenStep
  split
  · rw [setToken_append h]
    cases setToken rest <;> rfl
  · rfl

theorem tokensFrom_fuel {fuel : Nat} {cs : List Char} (h : cs.length ≤ fuel) :
    tokensFrom fuel cs = tokensFrom cs.length cs := by
  induction hn : cs.length using Nat.strong_induction_on generalizing fuel cs with
  | _ n ih =>
    cases cs with
    | nil =>
      subst hn
      cases fuel <;> rfl
    | cons c cs =>
      obtain ⟨fuel, rfl⟩ : ∃ less, fuel = less + 1 := ⟨fuel - 1, by simp at h; omega⟩
      have hstep := tokenStep_length c cs
      rw [List.length_cons] at hn h
      subst hn
      rw [tokensFrom_step, tokensFrom_step, ih _ (by omega) (by omega) rfl,
        @ih _ (by omega) cs.length _ (by omega) rfl]

theorem tokensFrom_suffix {suffix : List Char} (h : ']' ∉ suffix) (cs : List Char) :
    tokensFrom (cs ++ suffix).length (cs ++ suffix) =
      tokensFrom cs.length cs ++ tokensFrom suffix.length suffix := by
  induction hn : cs.length using Nat.strong_induction_on generalizing cs with
  | _ n ih =>
    cases cs with
    | nil =>
      subst hn
      rfl
    | cons c cs =>
      have hstep := tokenStep_length c cs
      rw [List.length_cons] at hn
      subst hn
      rw [List.cons_append, List.length_cons, tokensFrom_step, tokensFrom_step,
        tokenStep_append h, tokensFrom_fuel (by simp; omega), ih _ (by omega) _ rfl,
        @tokensFrom_fuel cs.length _ hstep, List.cons_append]

theorem language_append {suffix : String} (h : ']' ∉ suffix.toList) (pattern : String) :
    language (pattern ++ suffix) = language pattern * language suffix := by
  rw [language, tokens, String.toList_append, tokensFrom_suffix h, tokensLanguage_append]
  rfl

theorem singleStars_append_of_ne {c : Char} (hc : c ≠ '*') (cs rest : List Char) :
    singleStars (cs ++ c :: rest) = singleStars cs ++ c :: singleStars rest := by
  fun_induction singleStars cs with
  | case1 cs ih => rw [List.cons_append, List.cons_append, singleStars, ih, List.cons_append]
  | case2 d cs hpair ih =>
    rw [List.cons_append, singleStars, ih, List.cons_append]
    rintro tail rfl htail
    cases cs with
    | nil => exact hc (List.cons.inj htail).1
    | cons e cs => exact hpair cs rfl (by rw [(List.cons.inj htail).1])
  | case3 =>
    rw [List.nil_append, List.nil_append, singleStars]
    rintro tail rfl
    exact absurd rfl hc

theorem singleStars_concat_star (cs : List Char) :
    ∃ front, singleStars (cs ++ ['*']) = front ++ ['*'] := by
  fun_induction singleStars cs with
  | case1 cs ih =>
    obtain ⟨front, hfront⟩ := ih
    exact ⟨'*' :: front, by rw [List.cons_append, List.cons_append, singleStars, hfront,
      List.cons_append]⟩
  | case2 d cs hpair ih =>
    obtain ⟨front, hfront⟩ := ih
    by_cases hstar : d = '*' ∧ cs = []
    · obtain ⟨rfl, rfl⟩ := hstar
      exact ⟨[], rfl⟩
    · refine ⟨d :: front, ?_⟩
      rw [List.cons_append, singleStars, hfront, List.cons_append]
      rintro tail rfl htail
      cases cs with
      | nil => exact hstar ⟨rfl, rfl⟩
      | cons e cs => exact hpair cs rfl (by rw [(List.cons.inj htail).1])
  | case3 => exact ⟨[], rfl⟩

theorem flattenStars_slash (folder rest : String) :
    flattenStars (folder ++ "/" ++ rest) = flattenStars folder ++ "/" ++ flattenStars rest := by
  have hslash : ("/" : String).toList = ['/'] := rfl
  apply String.toList_inj.mp
  simp only [flattenStars, String.toList_append, String.toList_ofList, hslash, List.append_assoc,
    List.cons_append, List.nil_append]
  exact singleStars_append_of_ne (by decide) _ _

theorem flattenStars_star (pattern : String) :
    ∃ front, flattenStars (pattern ++ "*") = front ++ "*" := by
  have hstar : ("*" : String).toList = ['*'] := rfl
  obtain ⟨front, hfront⟩ := singleStars_concat_star pattern.toList
  refine ⟨String.ofList front, String.toList_inj.mp ?_⟩
  simp only [flattenStars, String.toList_append, String.toList_ofList, hstar, hfront]

theorem language_star : language "*" = Token.star.language := by
  have htokens : tokens "*" = [.star] := rfl
  rw [language, htokens, tokensLanguage_cons, tokensLanguage_nil, mul_one]

/-- A star at the end of a pattern takes in whatever follows. -/
theorem fnmatch_append_of_star {name pattern : String} (h : fnmatch name (pattern ++ "*") = true)
    (rest : String) : fnmatch (name ++ rest) (pattern ++ "*") = true := by
  have hstar : ']' ∉ ("*" : String).toList := by decide
  rw [fnmatch_iff, language_append hstar, language_star] at h ⊢
  obtain ⟨front, hfront, tail, -, hname⟩ := h
  refine ⟨front, hfront, tail ++ rest.toList, trivial, ?_⟩
  dsimp only at hname ⊢
  rw [← List.append_assoc, hname, String.toList_append]

theorem fnmatch_append_star {name pattern : String} (h : fnmatch name pattern = true)
    (rest : String) : fnmatch (name ++ rest) (pattern ++ "*") = true := by
  have hstar : ']' ∉ ("*" : String).toList := by decide
  rw [fnmatch_iff] at h
  rw [fnmatch_iff, language_append hstar, language_star, String.toList_append]
  exact ⟨name.toList, h, rest.toList, trivial, rfl⟩

/-- What a pattern matches ends with the plain text that the pattern ends with. -/
theorem endswith_of_fnmatch {name text pattern : String}
    (hplain : text.toList.any isSpecial = false) (hclosing : ']' ∉ text.toList)
    (h : fnmatch name (pattern ++ text) = true) : Text.endswith name text = true := by
  rw [fnmatch_iff, language_append hclosing] at h
  obtain ⟨front, -, tail, htail, hname⟩ := h
  have hmatch : fnmatch (String.ofList tail) text = true := by
    rw [fnmatch_iff, String.toList_ofList]
    exact htail
  rw [fnmatch_of_plain hplain, decide_eq_true_eq] at hmatch
  rw [Text.endswith_iff]
  refine ⟨String.ofList front, String.toList_inj.mp ?_⟩
  rw [← hmatch, String.toList_append, String.toList_ofList, String.toList_ofList]
  exact hname.symm

end ProjectOS.Base.Glob
