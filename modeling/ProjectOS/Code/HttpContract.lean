import ProjectOS.Architecture.ImplementationContract
import ProjectOS.Base.Pattern
import ProjectOS.Base.PurePath
import ProjectOS.Base.Words

/-! The gate that compares the HTTP calls of consumers with the routes of their
provider. The calls of JavaScript are found by patterns and a scan for brackets. -/
namespace ProjectOS.Code
open Base Text Architecture

structure HttpRoute where
  method : String
  path : String
  parameterTypes : List (String × String) := []
deriving DecidableEq, Repr

structure HttpOperation extends HttpRoute where
  line : Nat
deriving DecidableEq, Repr

def httpMethods : List String := ["GET", "POST", "PUT", "PATCH", "DELETE", "HEAD", "OPTIONS"]

/-- `_path`. -/
def routePath (value : List Char) : List Char :=
  let path := ((value.takeWhile (· ≠ '?')).takeWhile (· ≠ '#')).rdropWhile (· = '/')
  if path = [] then ['/'] else path

def backtick : Char := Char.ofNat 96

def isQuote (c : Char) : Bool := c == apostrophe || c == quotationMark || c == backtick

/-- The text up to the bracket that closes `depth` open ones; `quote` is the mark of
an open string and `escaped` that its next character is taken as it is. -/
def closeBrackets : Nat → Option Char → Bool → List Char → Option (List Char)
  | _, _, _, [] => none
  | depth, some quote, escaped, c :: text =>
      let rest :=
        if escaped then closeBrackets depth (some quote) false text
        else if c = backslash then closeBrackets depth (some quote) true text
        else if c = quote then closeBrackets depth none false text
        else closeBrackets depth (some quote) false text
      rest.map (c :: ·)
  | depth, none, escaped, c :: text =>
      if isQuote c then (closeBrackets depth (some c) escaped text).map (c :: ·)
      else if c = '(' then (closeBrackets (depth + 1) none escaped text).map (c :: ·)
      else if c = ')' then
        if depth = 1 then some [] else (closeBrackets (depth - 1) none escaped text).map (c :: ·)
      else (closeBrackets depth none escaped text).map (c :: ·)

/-- `_js_arguments`, on the text behind the opening bracket. -/
def jsArguments (text : List Char) : List Char := (closeBrackets 1 none false text).getD []

/-- `[A-Za-z_$]`. -/
def isNameStart (c : Char) : Bool := isAsciiLetter c || c == '_' || c == '$'

/-- `\$\{([^{}]*)\}`. -/
def templatePart : Pattern (List Char) := do
  let _ ← Pattern.char (· == '$')
  let _ ← Pattern.char (· == '{')
  let expression ← Pattern.greedy fun c => c != '{' && c != '}'
  let _ ← Pattern.char (· == '}')
  return expression

/-- `(?:request|fetch)\s*\(`. -/
def jsCall : Pattern Unit := do
  Pattern.either (Pattern.literal id "request".toList) (Pattern.literal id "fetch".toList)
  let _ ← Pattern.greedy isSpace
  let _ ← Pattern.char (· == '(')

/-- `method\s*:\s*(['"])([A-Za-z]+)\1`. -/
def jsMethod : Pattern (List Char) := do
  Pattern.literal id "method".toList
  let _ ← Pattern.greedy isSpace
  let _ ← Pattern.char (· == ':')
  let _ ← Pattern.greedy isSpace
  let quote ← Pattern.char fun c => c == apostrophe || c == quotationMark
  let method ← Pattern.greedy1 isAsciiLetter
  let _ ← Pattern.char (· == quote)
  return method

def constWord : List Char := "const".toList

section words
variable (w : WordChars)

/-- `[A-Za-z_$][\w$]*`. -/
def jsName : Pattern (List Char) := do
  let c ← Pattern.char isNameStart
  let rest ← Pattern.greedy fun c => w.isWord c || c == '$'
  return c :: rest

/-- `const\s+([A-Za-z_$][\w$]*)\s*=\s*(['"])(/[^'"\r\n]*)\2`. -/
def jsConst : Pattern (List Char × List Char) := do
  Pattern.literal id constWord
  let _ ← Pattern.greedy1 isSpace
  let name ← jsName w
  let _ ← Pattern.greedy isSpace
  let _ ← Pattern.char (· == '=')
  let _ ← Pattern.greedy isSpace
  let quote ← Pattern.char fun c => c == apostrophe || c == quotationMark
  let slash ← Pattern.char (· == '/')
  let value ← Pattern.greedy fun c =>
    c != apostrophe && c != quotationMark && c != '\r' && c != '\n'
  let _ ← Pattern.char (· == quote)
  return (name, slash :: value)

def jsConstants (source : List Char) : Dict (List Char) (List Char) :=
  .ofList (Pattern.findAll w.wordStart (jsConst w) source)

/-- The names whose value is a query, which may also be empty. -/
def queryNames : List (List Char) := ["query".toList, "search".toList, "searchParams".toList]

/-- `interpolate`; the part ends the value where nothing follows it. -/
def interpolate (constants : Dict (List Char) (List Char)) (part rest : List Char) : List Char :=
  let expression := stripped part
  match constants.get? expression with
  | some value => value
  | none =>
      if expression ∈ queryNames ∧ rest = [] then [] else "{parameter}".toList

/-- The first argument: up to the next mark of the same kind, or a constant. -/
def firstValue (constants : Dict (List Char) (List Char)) (first : List Char) :
    Option (List Char) :=
  match first with
  | [] => none
  | c :: rest =>
      if isQuote c then (cutAt c rest).map Prod.fst
      else (Pattern.first (jsName w) first).bind fun name => constants.get? name.1

/-- The first method that is found, in upper case. -/
def readMethod : List (List Char) → String
  | [] => "GET"
  | found :: _ => String.ofList (upper found)

/-- One call: what stands before it and what stands behind its opening bracket. -/
def jsOperation (constants : Dict (List Char) (List Char)) (before rest : List Char) :
    Option HttpOperation := do
  let body := jsArguments rest
  let raw ← firstValue w constants (body.dropWhile isSpace)
  let value := Pattern.substitute (fun _ => true) templatePart (interpolate constants) raw
  let method := readMethod (Pattern.findAll w.wordStart jsMethod body)
  if value.head? = some '/' ∧ method ∈ httpMethods then
    some {
      method := method
      path := String.ofList (routePath value)
      line := before.count '\n' + 1 }
  else none

/-- `_js_calls`. -/
def jsCalls (source : String) : List HttpOperation :=
  (Pattern.findIter w.wordStart jsCall source.toList).filterMap fun found =>
    jsOperation w (jsConstants w source.toList) found.1 found.2.2

end words

/-- The name between braces, of a segment that is a variable. -/
def variableName (segment : String) : Option String :=
  match segment.toList with
  | '{' :: rest =>
      let name := rest.dropLast
      if rest.getLast? = some '}' ∧ name ≠ [] ∧ '{' ∉ name ∧ '}' ∉ name then some (String.ofList name)
      else none
  | _ => none

/-- `str.isdecimal`. -/
def isDecimalText (text : String) : Bool := text != "" && text.toList.all isDecimal

def segmentMatches (types : Dict String String) (actual expected : String) : Bool :=
  match variableName expected with
  | some name => (variableName actual).isSome ||
      !((types.get? name).getD "str" == "int" && !isDecimalText actual)
  | none => actual == expected

/-- `_route_matches`. -/
def routeMatches (call route : HttpRoute) : Bool :=
  let called := split '/' call.path
  let provided := split '/' route.path
  call.method == route.method && called.length == provided.length &&
    (called.zip provided).all fun segments =>
      segmentMatches (.ofList route.parameterTypes) segments.1 segments.2

def ofContract (operation : HttpOperationContract) : HttpRoute where
  method := operation.method
  path := operation.path

/-- What the gate reports: a declared operation that its provider lacks, or a call
without a route. -/
inductive HttpIssue where
  | unimplemented (providerPath interfaceId : String) (operation : HttpRoute)
  | drift (path interfaceId providerPath : String) (routes : List HttpRoute) (call : HttpOperation)
deriving DecidableEq

def HttpRoute.shown (route : HttpRoute) : String := route.method ++ " " ++ route.path

def HttpIssue.text : HttpIssue → String
  | unimplemented providerPath interfaceId operation =>
      providerPath ++ " 未实现 API 合同 " ++ interfaceId ++ " 声明的 " ++ operation.shown
  | drift path interfaceId providerPath routes call =>
      path ++ ":" ++ toString call.line ++ " 消费接口 " ++ interfaceId ++ " 使用 " ++
        call.toHttpRoute.shown ++ "，provider=" ++ providerPath ++ " 未提供匹配路由（可用: " ++
        orElse (some (join ", " ((routes.take 20).map (·.shown)))) "无静态路由" ++ "）"

/-- What the gate reads out of Python sources, `none` on a syntax error. -/
structure PythonReader where
  routes : String → Option (List HttpRoute)
  calls : String → Option (List HttpOperation)

section gate
variable (w : WordChars) (reader : PythonReader)

/-- The provider of an interface and its routes, as far as they can be read: the file
below the root, and the routes the provider declares with its decorators. -/
def providerRoutes (files : String → Option String) (interface : InterfaceContract) :
    Option (String × List HttpRoute) := do
  let ownerFile ← interface.ownerFile
  let providerPath := removePrefix ownerFile "workspace/"
  let source ← files providerPath
  if interface.kind = "api" ∧ ownerFile ≠ "" ∧
      PurePath.suffixOf (PurePath.name providerPath) = ".py" ∧
      (contains source "FastAPI(" ∨ contains source "APIRouter(") then do
    let routes ← reader.routes source
    some (providerPath, routes)
  else none

def declaredRoutes (interface : InterfaceContract) : List HttpRoute :=
  interface.operations.map ofContract

/-- The routes that calls are compared with. -/
def expectedRoutes (interface : InterfaceContract) (routes : List HttpRoute) : List HttpRoute :=
  if declaredRoutes interface = [] then routes else declaredRoutes interface

def scriptSuffixes : List String := [".js", ".jsx", ".ts", ".tsx"]

/-- The calls of a consumer file. -/
def consumerCalls (path text : String) : List HttpOperation :=
  let suffix := PurePath.suffixOf (PurePath.name path)
  if suffix = ".py" then (reader.calls text).getD []
  else if suffix ∈ scriptSuffixes then jsCalls w text
  else []

def fileIssues (files : String → Option String) (interfaceId providerPath : String)
    (routes : List HttpRoute) (owned : String) : List HttpIssue :=
  let path := removePrefix owned "workspace/"
  match files path with
  | none => []
  | some text =>
      ((consumerCalls w reader path text).filter fun call =>
        !routes.any (routeMatches call.toHttpRoute)).map (.drift path interfaceId providerPath routes)

def interfaceIssues (files : String → Option String) (contract : ImplementationContract)
    (interface : InterfaceContract) : List HttpIssue :=
  match providerRoutes reader files interface with
  | none => []
  | some (providerPath, routes) =>
      ((declaredRoutes interface).filter fun operation => !routes.any (routeMatches operation)).map
        (.unimplemented providerPath interface.interfaceId) ++
      (contract.units.filter fun unit => interface.interfaceId ∈ unit.consumesInterfaces).flatMap
        fun unit => unit.ownedFiles.flatMap
          (fileIssues w reader files interface.interfaceId providerPath
            (expectedRoutes interface routes))

def httpIssues (files : String → Option String) (contract : ImplementationContract) :
    List HttpIssue :=
  contract.interfaces.flatMap (interfaceIssues w reader files contract)

/-- `validate_http_consumers`. -/
def validateHttpConsumers (files : String → Option String) (contract : ImplementationContract) :
    List String :=
  dedupe ((httpIssues w reader files contract).map HttpIssue.text)

end gate

end ProjectOS.Code
