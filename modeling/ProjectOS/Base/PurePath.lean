import ProjectOS.Base.Text

/-! `pathlib.PurePosixPath` of a text. -/
namespace ProjectOS.Base.PurePath

/-- `parts` of a relative path. -/
def parts (path : String) : List String := (Text.split '/' path).filter (· ∉ ["", "."])

def isAbsolute (path : String) : Bool := Text.startswith path "/"

/-- `as_posix()`. -/
def posix (path : String) : String :=
  match parts path with
  | [] => "."
  | names => Text.join "/" names

def name (path : String) : String := (parts path).getLastD ""

/-- `suffix` of a file name: from the last dot on, unless it starts or ends the name. -/
def suffixOf (name : String) : String :=
  let chars := name.toList
  let after := chars.rtakeWhile (· ≠ '.')
  let before := chars.take (chars.length - after.length - 1)
  if after = [] || before = [] || after.length = chars.length then ""
  else String.ofList ('.' :: after)

/-- `stem` of a file name. -/
def stemOf (name : String) : String := Text.removeSuffix name (suffixOf name)

theorem parts_append (a b : String) : parts (a ++ "/" ++ b) = parts a ++ parts b := by
  simp [parts, Text.split, Text.splitOn_append_sep]

theorem parts_slash (a : String) : parts (a ++ "/") = parts a := by
  rw [← @String.append_empty (a ++ "/"), parts_append]
  simp [parts, Text.split, Text.splitOn]

example : suffixOf "a.tar.gz" = ".gz" := by decide
example : suffixOf ".env" = "" := by decide
example : posix "./a//b/./c.py" = "a/b/c.py" := by decide

end ProjectOS.Base.PurePath
