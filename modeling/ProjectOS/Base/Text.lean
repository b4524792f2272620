import Mathlib.Data.List.DropRight
import Mathlib.Data.List.Infix
import Mathlib.Data.List.Sort
import Mathlib.Data.String.Basic

/-! Python's `str` methods on Lean strings. Every operation works on the code
point list, so it evaluates in the kernel. -/
namespace ProjectOS.Base.Text

/-- All characters of a text are gone through, not all that there are. -/
instance (priority := high) decidableForallMem (p : Char → Prop) [DecidablePred p]
    (cs : List Char) : Decidable (∀ c ∈ cs, p c) :=
  List.decidableBAll p cs

instance (priority := high) decidableForallMemOption (p : Char → Prop) [DecidablePred p]
    (o : Option Char) : Decidable (∀ c ∈ o, p c) :=
  Option.decidableForallMem o

/-- `str.isspace` on one code point. -/
def isSpace (c : Char) : Bool :=
  let n := c.toNat
  (9 ≤ n && n ≤ 13) || (28 ≤ n && n ≤ 32) || n == 0x85 || n == 0xA0 || n == 0x1680 ||
    (0x2000 ≤ n && n ≤ 0x200A) || n == 0x2028 || n == 0x2029 || n == 0x202F ||
    n == 0x205F || n == 0x3000

/-- `not s.strip()`. -/
def blank (s : String) : Bool := s.toList.all isSpace

def startswith (s pre : String) : Bool := pre.toList.isPrefixOf s.toList

def endswith (s suf : String) : Bool := suf.toList.isSuffixOf s.toList

def removePrefix (s pre : String) : String :=
  if startswith s pre then String.ofList (s.toList.drop pre.toList.length) else s

def removeSuffix (s suf : String) : String :=
  if endswith s suf then String.ofList (s.toList.take (s.toList.length - suf.toList.length)) else s

/-- `s.lstrip(chars)` for a set of characters. -/
def lstripBy (p : Char → Bool) (s : String) : String := String.ofList (s.toList.dropWhile p)

def rstripBy (p : Char → Bool) (s : String) : String := String.ofList (s.toList.rdropWhile p)

def stripBy (p : Char → Bool) (s : String) : String := rstripBy p (lstripBy p s)

def strip (s : String) : String := stripBy isSpace s

/-- `sub in s`. -/
def contains (s sub : String) : Bool := s.toList.tails.any (sub.toList.isPrefixOf ·)

/-- `s.replace(a, b)` for single characters. -/
def replaceChar (a b : Char) (s : String) : String :=
  String.ofList (s.toList.map fun c => if c = a then b else c)

/-- Lower case of one code point. Besides ASCII these are the two code points
whose lower case starts with an ASCII letter; every other one stays non-ASCII. -/
def lowerChar (c : Char) : List Char :=
  if c.toNat = 0x212A then ['k']
  else if c.toNat = 0x130 then ['i', Char.ofNat 0x307]
  else [c.toLower]

def lower (s : String) : String := String.ofList (s.toList.flatMap lowerChar)

def splitOn (sep : Char) : List Char → List (List Char)
  | [] => [[]]
  | c :: cs =>
      match splitOn sep cs with
      | [] => [[c]]
      | head :: rest => if c = sep then [] :: head :: rest else (c :: head) :: rest

/-- `s.split(sep)` for a single character. -/
def split (sep : Char) (s : String) : List String := (splitOn sep s.toList).map String.ofList

/-- `s.rsplit(sep, 1)[-1]`. -/
def afterLast (sep : Char) (s : String) : String :=
  String.ofList (s.toList.rtakeWhile (· ≠ sep))

/-- `sep.join(parts)`. -/
def join (sep : String) (parts : List String) : String := sep.intercalate parts

def collapseRuns (keep : Char → Bool) (sub : Char) : Bool → List Char → List Char
  | _, [] => []
  | inRun, c :: cs =>
      if keep c then c :: collapseRuns keep sub false cs
      else if inRun then collapseRuns keep sub true cs
      else sub :: collapseRuns keep sub true cs

/-- `re.sub("[^keep]+", sub, s)`. -/
def collapse (keep : Char → Bool) (sub : Char) (s : String) : String :=
  String.ofList (collapseRuns keep sub false s.toList)

/-- `[A-Za-z0-9_.-]`, the characters of a safe path component. -/
def isSafeChar (c : Char) : Bool :=
  ('a' ≤ c && c ≤ 'z') || ('A' ≤ c && c ≤ 'Z') || ('0' ≤ c && c ≤ '9') ||
    c = '_' || c = '.' || c = '-'

def isAsciiLetter (c : Char) : Bool := ('a' ≤ c && c ≤ 'z') || ('A' ≤ c && c ≤ 'Z')

def isAsciiDigit (c : Char) : Bool := '0' ≤ c && c ≤ '9'

/-- The zeros of the decimal digits, ten code points each. -/
def decimalZeros : List Nat := [
  0x30, 0x660, 0x6F0, 0x7C0, 0x966, 0x9E6, 0xA66, 0xAE6, 0xB66, 0xBE6, 0xC66, 0xCE6, 0xD66, 0xDE6,
  0xE50, 0xED0, 0xF20, 0x1040, 0x1090, 0x17E0, 0x1810, 0x1946, 0x19D0, 0x1A80, 0x1A90, 0x1B50,
  0x1BB0, 0x1C40, 0x1C50, 0xA620, 0xA8D0, 0xA900, 0xA9D0, 0xA9F0, 0xAA50, 0xABF0, 0xFF10, 0x104A0,
  0x10D30, 0x11066, 0x110F0, 0x11136, 0x111D0, 0x112F0, 0x11450, 0x114D0, 0x11650, 0x116C0,
  0x11730, 0x118E0, 0x11950, 0x11C50, 0x11D50, 0x11DA0, 0x16A60, 0x16AC0, 0x16B50, 0x1D7CE,
  0x1D7D8, 0x1D7E2, 0x1D7EC, 0x1D7F6, 0x1E140, 0x1E2F0, 0x1E950, 0x1FBF0]

/-- `\d` in a pattern on texts. -/
def isDecimal (c : Char) : Bool := decimalZeros.any fun z => z ≤ c.toNat && c.toNat < z + 10

/-- The code points at which `str.splitlines` breaks. -/
def isLineBreak (c : Char) : Bool :=
  let n := c.toNat
  (10 ≤ n && n ≤ 13) || (28 ≤ n && n ≤ 30) || n == 0x85 || n == 0x2028 || n == 0x2029

/-- The pieces between the line breaks; one more than there are breaks. -/
def linePieces : List Char → List (List Char)
  | [] => [[]]
  | c :: cs =>
      match linePieces cs with
      | [] => [[c]]
      | head :: rest => if isLineBreak c then [] :: head :: rest else (c :: head) :: rest

/-- `[line.strip() for line in s.splitlines() if line.strip()]`. With blank lines
left out, a carriage return before a newline needs no case of its own. -/
def nonBlankLines (s : String) : List String :=
  ((linePieces s.toList).map fun line => strip (String.ofList line)).filter (· ≠ "")

def splitlinesOf : List Char → List (List Char)
  | [] => []
  | '\r' :: '\n' :: cs => [] :: splitlinesOf cs
  | c :: cs =>
      if isLineBreak c then [] :: splitlinesOf cs
      else
        match splitlinesOf cs with
        | [] => [[c]]
        | line :: lines => (c :: line) :: lines

/-- `s.splitlines()`. -/
def splitlines (s : String) : List String := (splitlinesOf s.toList).map String.ofList

def translateNewlines : List Char → List Char
  | [] => []
  | '\r' :: '\n' :: cs => '\n' :: translateNewlines cs
  | '\r' :: cs => '\n' :: translateNewlines cs
  | c :: cs => c :: translateNewlines cs

/-- The text `Path.read_text` returns for a file that holds `s`. -/
def readText (s : String) : String := String.ofList (translateNewlines s.toList)

/-- `f"{n:0{width}d}"`. -/
def zeroPadded (width n : Nat) : List Char :=
  List.replicate (width - (Nat.toDigits 10 n).length) '0' ++ Nat.toDigits 10 n

/-- `sorted(texts)`; code point order. -/
def sorted (texts : List String) : List String := texts.insertionSort (· ≤ ·)

/-- `value or default`. -/
def orElse (value : Option String) (default : String) : String :=
  match value with
  | some text => if text = "" then default else text
  | none => default

def apostrophe : Char := Char.ofNat 39

def quotationMark : Char := Char.ofNat 34

def backslash : Char := Char.ofNat 92

/-- The text between apostrophes, as messages quote names. -/
def quote (s : String) : String := String.ofList (apostrophe :: s.toList ++ [apostrophe])

/-- `repr(s)` of a text without unprintable characters. -/
def repr (s : String) : String :=
  let quote :=
    if s.toList.contains apostrophe && !s.toList.contains quotationMark then quotationMark
    else apostrophe
  String.ofList ([quote] ++ s.toList.flatMap (fun c =>
    if c = '\n' then [backslash, 'n']
    else if c = '\r' then [backslash, 'r']
    else if c = '\t' then [backslash, 't']
    else if c = backslash || c = quote then [backslash, c]
    else [c]) ++ [quote])

/-- `repr` of a tuple of texts. -/
def reprTuple (items : List String) : String :=
  match items with
  | [item] => "(" ++ repr item ++ ",)"
  | _ => "(" ++ join ", " (items.map repr) ++ ")"

theorem startswith_append (pre s : String) : startswith (pre ++ s) pre = true := by
  simp [startswith, List.isPrefixOf_iff_prefix]

@[simp] theorem removePrefix_append (pre s : String) : removePrefix (pre ++ s) pre = s := by
  simp [removePrefix, startswith_append]

theorem startswith_iff {s pre : String} : startswith s pre = true ↔ ∃ t, s = pre ++ t := by
  unfold startswith
  rw [List.isPrefixOf_iff_prefix]
  constructor
  · rintro ⟨t, ht⟩
    exact ⟨String.ofList t, String.toList_inj.mp (by simp [ht])⟩
  · rintro ⟨t, rfl⟩
    exact ⟨t.toList, by simp⟩

theorem endswith_iff {s suf : String} : endswith s suf = true ↔ ∃ t, s = t ++ suf := by
  unfold endswith
  rw [List.isSuffixOf_iff_suffix]
  constructor
  · rintro ⟨front, hfront⟩
    exact ⟨String.ofList front, String.toList_inj.mp (by simp [hfront])⟩
  · rintro ⟨t, rfl⟩
    exact ⟨t.toList, String.toList_append.symm⟩

theorem blank_append (a b : String) : blank (a ++ b) = (blank a && blank b) := by
  simp [blank, List.all_append]

theorem not_blank_append {a b : String} (h : blank a = false) : blank (a ++ b) = false := by
  rw [blank_append, h, Bool.false_and]

/-- A literal that does not start with a space; the rest of it is not looked at. -/
theorem blank_ofList_cons {c : Char} {cs : List Char} (h : isSpace c = false) :
    blank (String.ofList (c :: cs)) = false := by
  simp [blank, h]

theorem stripBy_eq_empty_iff {p : Char → Bool} {s : String} :
    stripBy p s = "" ↔ s.toList.all p = true := by
  have hlist : List.rdropWhile p (s.toList.dropWhile p) = [] ↔ s.toList.all p = true := by
    rw [List.rdropWhile_eq_nil_iff, List.all_eq_true]
    constructor
    · intro h
      rw [← List.dropWhile_eq_nil_iff]
      by_contra hne
      have hhead := h _ (List.head_mem hne)
      rw [List.head_dropWhile_not p hne] at hhead
      exact Bool.false_ne_true hhead
    · exact fun h x hx => h x (List.dropWhile_subset p hx)
  rw [← hlist, ← String.toList_inj]
  simp [stripBy, rstripBy, lstripBy]

theorem stripBy_stripBy (p : Char → Bool) (s : String) : stripBy p (stripBy p s) = stripBy p s := by
  simp only [stripBy, rstripBy, lstripBy, String.toList_ofList]
  have hhead : ((s.toList.dropWhile p).rdropWhile p).dropWhile p =
      (s.toList.dropWhile p).rdropWhile p := by
    rw [List.dropWhile_eq_self_iff]
    intro hpos
    have hstart := @List.rdropWhile_prefix _ p (s.toList.dropWhile p)
    rw [hstart.getElem]
    exact List.dropWhile_get_zero_not _ _ (hpos.trans_le hstart.length_le)
  rw [hhead, List.rdropWhile_idempotent]

/-- Nothing is stripped from a text without such characters. -/
theorem stripBy_of_forall {p : Char → Bool} {s : String} (h : ∀ c ∈ s.toList, p c = false) :
    stripBy p s = s := by
  have hfront : s.toList.dropWhile p = s.toList := by
    rw [List.dropWhile_eq_self_iff]
    intro hpos
    simp [h _ (List.getElem_mem hpos)]
  have hback : s.toList.rdropWhile p = s.toList := by
    rw [List.rdropWhile_eq_self_iff]
    intro hne
    simp [h _ (List.getLast_mem hne)]
  rw [stripBy, rstripBy, lstripBy, String.toList_ofList, hfront, hback, String.ofList_toList]

theorem mem_dropWhile {p : Char → Bool} {cs : List Char} {c : Char} (h : c ∈ cs)
    (hp : p c = false) : c ∈ cs.dropWhile p := by
  rw [← List.takeWhile_append_dropWhile (p := p) (l := cs), List.mem_append] at h
  rcases h with htake | hdrop
  · rw [List.mem_takeWhile_imp htake] at hp
    cases hp
  · exact hdrop

/-- Stripping keeps every character that is not stripped. -/
theorem mem_stripBy {p : Char → Bool} {s : String} {c : Char} (h : c ∈ s.toList)
    (hp : p c = false) : c ∈ (stripBy p s).toList := by
  simp only [stripBy, rstripBy, lstripBy, String.toList_ofList, List.rdropWhile, List.mem_reverse]
  exact mem_dropWhile (List.mem_reverse.mpr (mem_dropWhile h hp)) hp

theorem translateNewlines_noCarriage (cs : List Char) : '\r' ∉ translateNewlines cs := by
  fun_induction translateNewlines cs with
  | case1 => simp
  | case2 cs ih => simpa using ih
  | case3 cs _ ih => simpa using ih
  | case4 c cs _ hc ih => simpa [eq_comm] using ⟨hc, ih⟩

theorem translateNewlines_of_noCarriage {cs : List Char} (h : '\r' ∉ cs) :
    translateNewlines cs = cs := by
  fun_induction translateNewlines cs <;> simp_all

/-- What was read from a file is read as it is when it is written to another. -/
@[simp] theorem readText_readText (s : String) : readText (readText s) = readText s := by
  simp [readText, translateNewlines_of_noCarriage (translateNewlines_noCarriage s.toList)]

theorem splitlinesOf_append {line : List Char} (h : ∀ c ∈ line, isLineBreak c = false) {b : Char}
    (hb : isLineBreak b = true) (hreturn : b ≠ '\r') (rest : List Char) :
    splitlinesOf (line ++ b :: rest) = line :: splitlinesOf rest := by
  induction line with
  | nil =>
    rw [List.nil_append, splitlinesOf, if_pos hb]
    rintro cs rfl
    exact absurd rfl hreturn
  | cons c line ih =>
    have hc := h c List.mem_cons_self
    rw [List.cons_append, splitlinesOf, if_neg (by simp [hc]),
      ih fun d hd => h d (List.mem_cons_of_mem _ hd)]
    rintro cs rfl
    exact absurd hc (by decide)

theorem splitlinesOf_ne_nil {cs : List Char} (h : cs ≠ []) : splitlinesOf cs ≠ [] := by
  cases cs with
  | nil => exact absurd rfl h
  | cons c cs =>
    unfold splitlinesOf
    split
    · simp_all
    · exact List.cons_ne_nil _ _
    · split
      · exact List.cons_ne_nil _ _
      · split <;> exact List.cons_ne_nil _ _

theorem zeroPadded_injective (width : Nat) : Function.Injective (zeroPadded width) := by
  intro a b h
  have hvalue (n : Nat) : Nat.ofDigitChars 10 (zeroPadded width n) 0 = n := by
    simp [zeroPadded, Nat.ofDigitChars_append]
  rw [← hvalue a, h, hvalue b]

theorem append_left_injective (pre : String) : Function.Injective (pre ++ ·) := by
  intro a b h
  have := congrArg String.toList h
  simp only [String.toList_append] at this
  exact String.toList_inj.mp (List.append_cancel_left this)

theorem ne_empty_of_not_blank {s : String} (h : blank s = false) : s ≠ "" := by
  rintro rfl
  simp [blank] at h

theorem mem_sorted {texts : List String} {t : String} : t ∈ sorted texts ↔ t ∈ texts :=
  List.mem_insertionSort _

theorem splitOn_ne_nil (sep : Char) (cs : List Char) : splitOn sep cs ≠ [] := by
  cases cs with
  | nil => exact List.cons_ne_nil _ _
  | cons c cs =>
    unfold splitOn
    split
    · exact List.cons_ne_nil _ _
    · split <;> exact List.cons_ne_nil _ _

theorem splitOn_of_not_mem {sep : Char} {cs : List Char} (h : sep ∉ cs) :
    splitOn sep cs = [cs] := by
  induction cs with
  | nil => rfl
  | cons c cs ih =>
    simp only [List.mem_cons, not_or] at h
    simp [splitOn, ih h.2, Ne.symm h.1]

theorem splitOn_append {sep : Char} {cs : List Char} (h : sep ∉ cs) (rest : List Char) :
    splitOn sep (cs ++ sep :: rest) = cs :: splitOn sep rest := by
  induction cs with
  | nil =>
    simp only [List.nil_append, splitOn]
    split
    · rename_i hnil
      exact absurd hnil (splitOn_ne_nil sep rest)
    · rename_i head tail hsplit
      simp [hsplit]
  | cons c cs ih =>
    simp only [List.mem_cons, not_or] at h
    simp [splitOn, ih h.2, Ne.symm h.1]

theorem splitOn_append_sep (sep : Char) (cs ds : List Char) :
    splitOn sep (cs ++ sep :: ds) = splitOn sep cs ++ splitOn sep ds := by
  induction cs with
  | nil => exact splitOn_append List.not_mem_nil ds
  | cons c cs ih =>
    cases hcs : splitOn sep cs with
    | nil => exact absurd hcs (splitOn_ne_nil sep cs)
    | cons head tail => by_cases hc : c = sep <;> simp [splitOn, hc, ih, hcs]

theorem split_append_sep (a b : String) :
    split '.' (a ++ "." ++ b) = split '.' a ++ split '.' b := by
  simp [split, splitOn_append_sep]

theorem split_of_not_mem {sep : Char} {s : String} (h : sep ∉ s.toList) : split sep s = [s] := by
  simp [split, splitOn_of_not_mem h]

/-- Splitting gives back the parts that were joined. -/
theorem split_join {sep : Char} {parts : List String} (hne : parts ≠ [])
    (h : ∀ part ∈ parts, sep ∉ part.toList) :
    split sep (join (String.singleton sep) parts) = parts := by
  induction parts with
  | nil => exact absurd rfl hne
  | cons part parts ih =>
    have hpart := h part List.mem_cons_self
    cases parts with
    | nil => simp [split, join, splitOn_of_not_mem hpart]
    | cons next parts =>
      have hrest := ih (List.cons_ne_nil _ _) fun p hp => h p (List.mem_cons_of_mem _ hp)
      unfold split join at hrest ⊢
      rw [String.intercalate_cons_cons, String.toList_append, String.toList_append,
        String.toList_singleton, List.append_assoc, List.singleton_append, splitOn_append hpart,
        List.map_cons, hrest, String.ofList_toList]

example : lower "Review_MD" = "review_md" := by decide
example : collapse isSafeChar '_' "src/a b.py" = "src_a_b.py" := by decide
example : split ':' "staged:t:w:s" = ["staged", "t", "w", "s"] := by decide

end ProjectOS.Base.Text
