import ProjectOS.Base.Text

/-! `shlex.split` of the standard library: the words of a command line in the
POSIX reading, or nothing where a quotation or an escape stays open. -/
namespace ProjectOS.Base.Shlex

inductive Mode where
  | between
  | word
  | quoted (quote : Char)
  /-- After a backslash, inside a quotation or outside all of them. -/
  | escaped (within : Option Char)

def isWhitespace (c : Char) : Bool := c = ' ' || c = '\t' || c = '\r' || c = '\n'

def isQuote (c : Char) : Bool := c = Text.apostrophe || c = Text.quotationMark

def returned : Option Char → Mode
  | none => .word
  | some quote => .quoted quote

/-- The words from here on; `word` is the one being read. -/
def read : Mode → List Char → List Char → Option (List (List Char))
  | .between, _, [] => some []
  | .between, _, c :: rest =>
      if isWhitespace c then read .between [] rest
      else if c = Text.backslash then read (.escaped none) [] rest
      else if isQuote c then read (.quoted c) [] rest
      else read .word [c] rest
  | .word, word, [] => some [word]
  | .word, word, c :: rest =>
      if isWhitespace c then (read .between [] rest).map (word :: ·)
      else if isQuote c then read (.quoted c) word rest
      else if c = Text.backslash then read (.escaped none) word rest
      else read .word (word ++ [c]) rest
  | .quoted _, _, [] => none
  | .quoted quote, word, c :: rest =>
      if c = quote then read .word word rest
      else if c = Text.backslash && quote = Text.quotationMark then
        read (.escaped (some quote)) word rest
      else read (.quoted quote) (word ++ [c]) rest
  | .escaped _, _, [] => none
  | .escaped within, word, c :: rest =>
      -- A quotation keeps the backslash of an escape it does not know.
      let kept := within.any fun quote => c ≠ Text.backslash && c ≠ quote
      read (returned within) (word ++ (if kept then [Text.backslash, c] else [c])) rest

def split (command : String) : Option (List String) :=
  (read .between [] command.toList).map (·.map String.ofList)

def isPlain (c : Char) : Bool := !isWhitespace c && !isQuote c && c ≠ Text.backslash

theorem read_word_plain {cs : List Char} (h : ∀ c ∈ cs, isPlain c = true) (word : List Char) :
    read .word word cs = some [word ++ cs] := by
  induction cs generalizing word with
  | nil => rw [read, List.append_nil]
  | cons c rest ih =>
    have hc : isPlain c = true := h c List.mem_cons_self
    simp only [isPlain, Bool.and_eq_true, Bool.not_eq_true', decide_eq_true_eq] at hc
    rw [read, hc.1.1, hc.1.2, if_neg Bool.false_ne_true, if_neg Bool.false_ne_true, if_neg hc.2,
      ih (fun x hx => h x (List.mem_cons_of_mem _ hx)), List.append_assoc, List.singleton_append]

theorem read_between_plain {cs : List Char} (h : ∀ c ∈ cs, isPlain c = true) (hne : cs ≠ []) :
    read .between [] cs = some [cs] := by
  cases cs with
  | nil => exact absurd rfl hne
  | cons c rest =>
    have hc : isPlain c = true := h c List.mem_cons_self
    simp only [isPlain, Bool.and_eq_true, Bool.not_eq_true', decide_eq_true_eq] at hc
    rw [read, hc.1.1, hc.1.2, if_neg Bool.false_ne_true, if_neg hc.2, if_neg Bool.false_ne_true,
      read_word_plain (fun x hx => h x (List.mem_cons_of_mem _ hx)), List.singleton_append]

example : split "python -m 'my app'.main \"\"" =
    some ["python", "-m", "my app.main", ""] := by decide

end ProjectOS.Base.Shlex
