import ProjectOS.Code.HttpContract

/-! JavaScript sources with calls of `request` and `fetch`: what stands in a call, and
the operation that it means. -/
namespace ProjectOS.Code.Js
open Base Text

inductive QuoteMark where
  | single
  | double
  | backtick
deriving DecidableEq, Repr

def QuoteMark.char : QuoteMark → Char
  | single => apostrophe
  | double => quotationMark
  | backtick => Code.backtick

inductive Item where
  | plain (c : Char)
  | escape (c : Char)
deriving DecidableEq, Repr

namespace Item

def text : Item → List Char
  | plain c => [c]
  | escape c => [backslash, c]

def char : Item → Char
  | plain c => c
  | escape c => c

def fits (mark : QuoteMark) : Item → Bool
  | plain c => c != mark.char && c != backslash
  | escape _ => true

def isPlain : Item → Bool
  | plain _ => true
  | escape _ => false

end Item

/-- A string in quotation marks. -/
structure Literal where
  mark : QuoteMark
  items : List Item
  closed : ∀ item ∈ items, item.fits mark = true := by decide

namespace Literal
variable (literal : Literal)

def text : List Char :=
  literal.mark.char :: (literal.items.flatMap Item.text ++ [literal.mark.char])

/-- The value of a literal without escapes. -/
def value : List Char := literal.items.map Item.char

/-- In quotation marks other than backticks, and without escapes. -/
def Plain : Prop := literal.mark ≠ .backtick ∧ ∀ item ∈ literal.items, item.isPlain = true

instance : Decidable literal.Plain := inferInstanceAs (Decidable (_ ∧ _))

end Literal

inductive Part where
  | plain (c : Char)
  | escape (c : Char)
  | hole (expression : List Char)
deriving DecidableEq, Repr

namespace Part

def text : Part → List Char
  | plain c => [c]
  | escape c => [backslash, c]
  | hole expression => '$' :: '{' :: (expression ++ ['}'])

def fits : Part → Bool
  | plain c => c != Code.backtick && c != backslash
  | _ => true

/-- No escape, and no braces or backticks inside an interpolation. -/
def isPlain : Part → Bool
  | plain _ => true
  | escape _ => false
  | hole expression => expression.all fun c => c != '{' && c != '}' && c != Code.backtick

end Part

/-- A template string. A dollar sign before a brace opens an interpolation. -/
structure Template where
  parts : List Part
  closed : ∀ part ∈ parts, part.fits = true := by decide
  holes : parts.IsChain fun a b => ¬ (a = .plain '$' ∧ b = .plain '{') := by decide

namespace Template
variable (template : Template)

def raw : List Char := template.parts.flatMap Part.text

def text : List Char := backtick :: (template.raw ++ [backtick])

/-- The value of a template without escapes, its interpolations replaced. -/
def valueOf (constants : Dict (List Char) (List Char)) : List Part → List Char
  | [] => []
  | .plain c :: parts => c :: valueOf constants parts
  | .escape c :: parts => c :: valueOf constants parts
  | .hole expression :: parts =>
      interpolate constants expression (parts.flatMap Part.text) ++ valueOf constants parts

def Plain : Prop := ∀ part ∈ template.parts, part.isPlain = true

instance : Decidable template.Plain := inferInstanceAs (Decidable (∀ part ∈ _, _))

end Template

inductive Bracket where
  | round
  | square
  | curly
deriving DecidableEq, Repr

namespace Bracket

def opening : Bracket → Char
  | round => '('
  | square => '['
  | curly => '{'

def closing : Bracket → Char
  | round => ')'
  | square => ']'
  | curly => '}'

end Bracket

/-- An expression as a text with literals and brackets: nested objects, calls, lists. -/
inductive Expression where
  | done
  | plain (c : Char) (rest : Expression)
  | literal (string : Literal) (rest : Expression)
  | group (bracket : Bracket) (inside rest : Expression)

/-- A character that opens or closes nothing. -/
def isPlainChar (c : Char) : Bool := !isQuote c && c ∉ ['(', ')', '[', ']', '{', '}']

namespace Expression

def text : Expression → List Char
  | done => []
  | plain c rest => c :: rest.text
  | literal string rest => string.text ++ rest.text
  | group bracket inside rest => bracket.opening :: (inside.text ++ bracket.closing :: rest.text)

def fits : Expression → Bool
  | done => true
  | plain c rest => isPlainChar c && rest.fits
  | literal _ rest => rest.fits
  | group _ inside rest => inside.fits && rest.fits

/-- No comma outside of brackets. -/
def commaFree : Expression → Bool
  | done => true
  | plain c rest => c != ',' && rest.commaFree
  | literal _ rest => rest.commaFree
  | group _ _ rest => rest.commaFree

end Expression

/-- White space with at most one comma. -/
inductive Ending where
  | gap (gap : Gap)
  | comma (before after : Gap)

def Ending.text : Ending → List Char
  | gap space => space.chars
  | comma before after => before.chars ++ ',' :: after.chars

def methodName : List Char := "method".toList

section words
variable (w : WordChars)

structure Name where
  chars : List Char
  nonempty : chars ≠ [] := by decide
  word : ∀ c ∈ chars, (w.isWord c || c == '$') = true := by decide

inductive Key where
  | name (name : Name w)
  | quoted (literal : Literal)

/-- A property other than the method. -/
inductive Property where
  | pair (before : Gap) (key : Key w) (after : Gap) (value : Expression)
  | shorthand (before : Gap) (name : Name w) (after : Gap)

end words

/-- The method property; its key may stand in quotation marks. -/
structure MethodProperty where
  before : Gap
  keyMark : Option QuoteMark
  afterKey : Gap
  beforeValue : Gap
  value : Literal
  after : Gap

section words
variable (w : WordChars)

inductive Entry where
  | other (property : Property w)
  | method (property : MethodProperty)

/-- An object literal, with its last method property if it has one. -/
inductive Options where
  | without (properties : List (Property w)) (ending : Ending)
  | withMethod (front : List (Entry w)) (method : MethodProperty) (rest : List (Property w))
      (ending : Ending)

inductive FirstArgument where
  | quoted (literal : Literal)
  | template (template : Template)
  | constant (name : Name w)

inductive CallWord where
  | request
  | fetch
deriving DecidableEq, Repr

structure Call where
  word : CallWord
  gap : Gap
  before : Gap
  first : FirstArgument w
  options : Option (Gap × Gap × Options w) := none
  ending : Ending

/-- `const NAME = '...'`. -/
structure Declaration where
  space : Space
  name : Name w
  before : Gap
  after : Gap
  literal : Literal

/-- A call in a source, with what stands between it and the opening bracket of the
call before it, and with what follows its closing bracket. -/
structure Site where
  front : List Char
  call : Call w
  after : List Char

end words

variable {w : WordChars}

def Key.text : Key w → List Char
  | name identifier => identifier.chars
  | quoted literal => literal.text

def Key.chars : Key w → List Char
  | name identifier => identifier.chars
  | quoted literal => literal.value

namespace Property

def text : Property w → List Char
  | pair before key after value => before.chars ++ key.text ++ after.chars ++ ':' :: value.text
  | shorthand before name after => before.chars ++ name.chars ++ after.chars

def Fits : Property w → Prop
  | pair _ key _ value => key.chars ≠ methodName ∧ value.fits = true ∧ value.commaFree = true
  | shorthand _ name _ => name.chars ≠ methodName

instance : (property : Property w) → Decidable property.Fits
  | pair .. => inferInstanceAs (Decidable (_ ∧ _ ∧ _))
  | shorthand .. => inferInstanceAs (Decidable (_ ≠ _))

def joined : List (Property w) → List Char
  | [] => []
  | [property] => property.text
  | property :: properties => property.text ++ ',' :: joined properties

end Property

namespace MethodProperty
variable (property : MethodProperty)

def keyText : List Char :=
  match property.keyMark with
  | none => methodName
  | some mark => mark.char :: (methodName ++ [mark.char])

/-- From the key to the end of the value. -/
def core : List Char :=
  property.keyText ++ property.afterKey.chars ++ ':' :: (property.beforeValue.chars ++
    property.value.text)

def text : List Char := property.before.chars ++ property.core ++ property.after.chars

end MethodProperty

namespace Entry

def text : Entry w → List Char
  | other property => property.text
  | method property => property.text

def Fits : Entry w → Prop
  | other property => property.Fits
  | method _ => True

instance : (entry : Entry w) → Decidable entry.Fits
  | other property => inferInstanceAs (Decidable property.Fits)
  | method _ => inferInstanceAs (Decidable True)

end Entry

namespace Options

/-- The text behind the method property. -/
def restText (rest : List (Property w)) (ending : Ending) : List Char :=
  rest.flatMap (fun property => ',' :: property.text) ++ ending.text ++ ['}']

def frontText (front : List (Entry w)) : List Char :=
  '{' :: front.flatMap fun entry => entry.text ++ [',']

def text : Options w → List Char
  | without properties ending => '{' :: (Property.joined properties ++ ending.text ++ ['}'])
  | withMethod front method rest ending => frontText front ++ method.text ++ restText rest ending

def Fits : Options w → Prop
  | without properties _ => ∀ property ∈ properties, property.Fits
  | withMethod front _ rest _ =>
      (∀ entry ∈ front, entry.Fits) ∧ ∀ property ∈ rest, property.Fits

instance : (options : Options w) → Decidable options.Fits
  | without properties _ => inferInstanceAs (Decidable (∀ property ∈ properties, property.Fits))
  | withMethod front _ rest _ =>
      inferInstanceAs (Decidable ((∀ entry ∈ front, entry.Fits) ∧ ∀ property ∈ rest, property.Fits))

/-- The value of the method property, in upper case; `GET` when there is none. -/
def methodValue : Options w → String
  | without .. => "GET"
  | withMethod _ method _ _ => String.ofList (upper method.value.value)

end Options

namespace FirstArgument

def text : FirstArgument w → List Char
  | quoted literal => literal.text
  | template string => string.text
  | constant name => name.chars

def Fits : FirstArgument w → Prop
  | quoted literal => literal.mark ≠ .backtick
  | template _ => True
  | constant _ => True

instance : (first : FirstArgument w) → Decidable first.Fits
  | quoted _ => inferInstanceAs (Decidable (_ ≠ _))
  | template _ => inferInstanceAs (Decidable True)
  | constant _ => inferInstanceAs (Decidable True)

/-- The text of the path, with its query. -/
def value (constants : Dict (List Char) (List Char)) : FirstArgument w → List Char
  | quoted literal => literal.value
  | template string => Template.valueOf constants string.parts
  | constant name => (constants.get? name.chars).getD []

end FirstArgument

def CallWord.chars : CallWord → List Char
  | request => "request".toList
  | fetch => "fetch".toList

namespace Call
variable (call : Call w)

/-- Up to the opening bracket. -/
def head : List Char := call.word.chars ++ call.gap.chars ++ ['(']

def optionsText : List Char :=
  match call.options with
  | none => []
  | some (before, after, options) => before.chars ++ ',' :: (after.chars ++ options.text)

def arguments : List Char :=
  call.before.chars ++ call.first.text ++ call.optionsText ++ call.ending.text

def Fits : Prop := call.first.Fits ∧ ∀ options ∈ call.options, options.2.2.Fits

instance : Decidable call.Fits := inferInstanceAs (Decidable (_ ∧ _))

def methodValue : String :=
  match call.options with
  | none => "GET"
  | some (_, _, options) => options.methodValue

/-- The operation that the call means. -/
def operation (constants : Dict (List Char) (List Char)) (before : List Char) : HttpOperation where
  method := call.methodValue
  path := String.ofList (routePath (call.first.value constants))
  line := before.count '\n' + 1

end Call

namespace Declaration
variable (declaration : Declaration w)

def text : List Char :=
  constWord ++ declaration.space.chars ++ declaration.name.chars ++
    declaration.before.chars ++ '=' :: (declaration.after.chars ++ declaration.literal.text)

def binding : List Char × List Char := (declaration.name.chars, declaration.literal.value)

end Declaration

/-- The source from the opening bracket of a call on. -/
def sitesText : List (Site w) → List Char → List Char
  | [], tail => tail
  | site :: sites, tail => site.front ++ (site.call.head ++ sitesText sites tail)

/-- Each call stands in the text with its arguments and its closing bracket. -/
def Joined : List (Site w) → List Char → Prop
  | [], _ => True
  | site :: sites, tail =>
      sitesText sites tail = site.call.arguments ++ ')' :: site.after ∧ Joined sites tail

/-- A call starts with a name of its own. -/
def AtWords (before : List Char) : List (Site w) → Prop
  | [] => True
  | site :: sites =>
      w.wordStart (before ++ site.front).getLast? = true ∧
        AtWords (before ++ site.front ++ site.call.head) sites

def decideJoined : (sites : List (Site w)) → (tail : List Char) → Decidable (Joined sites tail)
  | [], _ => inferInstanceAs (Decidable True)
  | site :: sites, tail =>
      have := decideJoined sites tail
      inferInstanceAs (Decidable (sitesText sites tail = site.call.arguments ++ ')' :: site.after ∧
        Joined sites tail))

instance (sites : List (Site w)) (tail : List Char) : Decidable (Joined sites tail) :=
  decideJoined sites tail

def decideAtWords : (before : List Char) → (sites : List (Site w)) → Decidable (AtWords before sites)
  | _, [] => inferInstanceAs (Decidable True)
  | before, site :: sites =>
      have := decideAtWords (before ++ site.front ++ site.call.head) sites
      inferInstanceAs (Decidable (w.wordStart (before ++ site.front).getLast? = true ∧
        AtWords (before ++ site.front ++ site.call.head) sites))

instance (before : List Char) (sites : List (Site w)) : Decidable (AtWords before sites) :=
  decideAtWords before sites

def declarationsText : List (List Char × Declaration w) → List Char → List Char
  | [], tail => tail
  | (front, declaration) :: rest, tail => front ++ (declaration.text ++ declarationsText rest tail)

def DeclaredAtWords (before : List Char) : List (List Char × Declaration w) → Prop
  | [] => True
  | (front, declaration) :: rest =>
      w.wordStart (before ++ front).getLast? = true ∧
        DeclaredAtWords (before ++ front ++ declaration.text) rest

def decideDeclaredAtWords : (before : List Char) →
    (declarations : List (List Char × Declaration w)) → Decidable (DeclaredAtWords before declarations)
  | _, [] => inferInstanceAs (Decidable True)
  | before, (front, declaration) :: rest =>
      have := decideDeclaredAtWords (before ++ front ++ declaration.text) rest
      inferInstanceAs (Decidable (w.wordStart (before ++ front).getLast? = true ∧
        DeclaredAtWords (before ++ front ++ declaration.text) rest))

instance (before : List Char) (declarations : List (List Char × Declaration w)) :
    Decidable (DeclaredAtWords before declarations) :=
  decideDeclaredAtWords before declarations

def constantsOf (declarations : List (List Char × Declaration w)) :
    Dict (List Char) (List Char) :=
  .ofList (declarations.map (·.2.binding))

/-- A source: its calls and its declarations of string constants, in one text. -/
structure JsSource (w : WordChars) where
  sites : List (Site w)
  tail : List Char
  declarations : List (List Char × Declaration w)
  rest : List Char
  same : declarationsText declarations rest = sitesText sites tail := by decide +kernel
  joined : Joined sites tail := by decide +kernel
  words : AtWords [] sites ∧ DeclaredAtWords [] declarations := by decide +kernel
  fits : ∀ site ∈ sites, site.call.Fits := by decide +kernel
  rooted : ∀ site ∈ sites,
    (site.call.first.value (constantsOf declarations)).head? = some '/' := by decide +kernel

namespace JsSource
variable (source : JsSource w)

def text : String := String.ofList (sitesText source.sites source.tail)

def constants : Dict (List Char) (List Char) := constantsOf source.declarations

def operationsFrom (constants : Dict (List Char) (List Char)) (before : List Char) :
    List (Site w) → List HttpOperation
  | [] => []
  | site :: sites =>
      site.call.operation constants (before ++ site.front) ::
        operationsFrom constants (before ++ site.front ++ site.call.head) sites

/-- One operation for each call, in the order of the source. -/
def operations : List HttpOperation := operationsFrom source.constants [] source.sites

end JsSource

end ProjectOS.Code.Js
