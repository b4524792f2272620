import ProjectOS.Base.Dict
import ProjectOS.Error

/-! The ledger of capability grants: one file for the project and one for each trace. -/
namespace ProjectOS.ToolManager
open Base

inductive GrantScope where
  | node
  | trace
  | project
deriving DecidableEq, Repr

def GrantScope.parse (scope : String) : Result GrantScope :=
  if scope = "node" then .ok .node
  else if scope = "trace" then .ok .trace
  else if scope = "project" then .ok .project
  else raise "能力授权 scope 必须是 node、trace 或 project"

inductive GrantStatus where
  | active
  | revoked
deriving DecidableEq, Repr

structure CapabilityGrant where
  grantId : String
  traceId : String
  workItemId : Option String
  capability : String
  sourceName : String
  scope : GrantScope := .trace
  approvedBy : String := "api"
  approvedAt : String := ""
  expiresAt : Option String := none
  status : GrantStatus := .active
deriving DecidableEq

/-- What `datetime.fromisoformat` makes of a text: an instant, or a time without zone. -/
inductive Stamp where
  | aware (instant : Int)
  | naive

/-- `datetime.fromisoformat`; nothing where it raises a ValueError. -/
abbrev Calendar := String → Option Stamp

namespace CapabilityGrant

/-- `_parse` of `as_dict`: empty texts are no value. -/
def reread (grant : CapabilityGrant) : CapabilityGrant :=
  { grant with
    workItemId := grant.workItemId.filter (· ≠ "")
    expiresAt := grant.expiresAt.filter (· ≠ "") }

def isActive (calendar : Calendar) (now : Int) (grant : CapabilityGrant) : Result Bool :=
  if grant.status ≠ .active then .ok false
  else
    match grant.expiresAt with
    | none => .ok true
    | some text =>
        if text = "" then .ok true
        else
          match calendar text with
          | none => .ok false
          | some (.aware instant) => .ok (now < instant)
          | some .naive => .error (.typeError "can't compare offset-naive and offset-aware datetimes")

end CapabilityGrant

/-- The files of a store: that of the project and that of its trace, each as the list
that `_parse` makes of its entries. A missing file has none. -/
structure Ledger where
  project : List CapabilityGrant := []
  trace : List CapabilityGrant := []

/-- What `grant` is called with, with the fresh id and the time it takes. -/
structure GrantCall where
  capability : String
  sourceName : String
  workItemId : Option String := none
  scope : String := "trace"
  approvedBy : String := "api"
  expiresAt : Option String := none
  hex : String
  approvedAt : String
deriving DecidableEq

/-- The result of `grant`: a grant that was there, or a new one. -/
inductive Granted where
  | existing (grant : CapabilityGrant)
  | fresh (grant : CapabilityGrant)

def Granted.grant : Granted → CapabilityGrant
  | .existing grant => grant
  | .fresh grant => grant

namespace CapabilityGrantStore

/-- The loop of `_read_all`: a later entry with a known id is passed over. -/
def unseen : List String → List CapabilityGrant → List CapabilityGrant
  | _, [] => []
  | seen, grant :: rest =>
      if grant.grantId ≠ "" && grant.grantId ∈ seen then unseen seen rest
      else grant :: unseen (if grant.grantId ≠ "" then grant.grantId :: seen else seen) rest

/-- The grants that a store of the trace sees. -/
def grants (traceId : String) (ledger : Ledger) : List CapabilityGrant :=
  (unseen [] (ledger.project ++ ledger.trace)).filter fun grant =>
    grant.scope = .project || grant.traceId = traceId

/-- `tuple(grant for grant in grants if grant.is_active() or also(grant))`. -/
def activeOr (also : CapabilityGrant → Bool) (calendar : Calendar) (now : Int) :
    List CapabilityGrant → Result (List CapabilityGrant)
  | [] => .ok []
  | grant :: rest => do
      let active ← grant.isActive calendar now
      let kept ← activeOr also calendar now rest
      .ok (if active || also grant then grant :: kept else kept)

def actives (calendar : Calendar) (now : Int) :
    List CapabilityGrant → Result (List CapabilityGrant) := activeOr (fun _ => false) calendar now

/-- `list`: the grants it returns, and what it writes back if anything. -/
def list (calendar : Calendar) (now : Int) (traceId : String) (includeInactive : Bool)
    (ledger : Ledger) : Result (List CapabilityGrant × Option (List CapabilityGrant)) := do
  let grants := grants traceId ledger
  let active ← actives calendar now grants
  if !includeInactive && active.length ≠ grants.length then
    let kept ← activeOr (·.status = .revoked) calendar now grants
    .ok (active, some kept)
  else .ok (if includeInactive then grants else active, none)

/-- `_write_all`: each grant goes to the file of its scope. -/
def writeAll (grants : List CapabilityGrant) : Ledger where
  project := grants.filter (·.scope = .project)
  trace := grants.filter (·.scope ≠ .project)

/-- `grant`, up to the read of the file it writes. The loop meets no time without zone
that the listing before it has not met. -/
def grant (calendar : Calendar) (now : Int) (traceId : String) (call : GrantCall)
    (ledger : Ledger) : Result Granted := do
  let scope ← GrantScope.parse call.scope
  raiseWhen (Text.blank call.capability || Text.blank call.sourceName) "能力和来源不能为空"
  let (grants, _) ← list calendar now traceId true ledger
  let active ← actives calendar now grants
  match active.find? fun existing => existing.capability = call.capability &&
      existing.sourceName = call.sourceName && existing.workItemId = call.workItemId with
  | some existing => .ok (.existing existing)
  | none => .ok (.fresh {
      grantId := "grant-" ++ call.hex
      traceId := traceId
      workItemId := call.workItemId
      capability := Text.strip call.capability
      sourceName := Text.strip call.sourceName
      scope := scope
      approvedBy := call.approvedBy
      approvedAt := call.approvedAt
      expiresAt := call.expiresAt })

/-- The file of the scope with the new grant; a trace file loses its revoked grants. -/
def withGrant (grant : CapabilityGrant) (file : List CapabilityGrant) : List CapabilityGrant :=
  if grant.scope = .project then file ++ [grant.reread]
  else file.filter (·.status = .active) ++ [grant.reread]

/-- The first grant with the id, revoked in its place. -/
def revokeFirst (grantId : String) :
    List CapabilityGrant → Option (CapabilityGrant × List CapabilityGrant)
  | [] => none
  | grant :: rest =>
      if grant.grantId = grantId then
        let revoked := { grant with status := .revoked }
        some (revoked, revoked :: rest)
      else (revokeFirst grantId rest).map fun found => (found.1, grant :: found.2)

/-- `revoke`: the grant it returns and what it writes back. -/
def revoke (calendar : Calendar) (now : Int) (traceId grantId : String) (ledger : Ledger) :
    Result (CapabilityGrant × List CapabilityGrant) := do
  let (grants, _) ← list calendar now traceId true ledger
  match revokeFirst grantId grants with
  | some found => .ok found
  | none => .error (.keyError ("能力授权不存在: " ++ grantId))

end CapabilityGrantStore

end ProjectOS.ToolManager
