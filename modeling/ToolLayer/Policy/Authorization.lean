import ToolLayer.Contracts.Dump

/-! Which callers a tool's stored policy admits. -/
namespace ToolLayer.Policy
open Python Kit Kit.Result

def maxRoles : Nat := 32

structure ToolAudiencePolicy where
  accessMode : AccessMode := .isPublic
  allowedRoles : List Str := []

def ToolAudiencePolicy.isRestricted (policy : ToolAudiencePolicy) : Bool := policy.accessMode == .restricted

structure CallerIdentity where
  subject : Str
  roles : List Str
  deriving DecidableEq

structure AuthorizationDecision where
  allowed : Bool
  reasonCode : Option Str
  accessMode : AccessMode
  deriving DecidableEq

/-- `_roles`; `none` is `ToolPolicyError`. -/
def readRoles : Value → Option (List Str)
  | .null => some []
  | .list items =>
    if maxRoles < items.length then none
    else items.mapM (fun
      | .str role => if Patterns.key role then some role else none
      | _ => none)
  | _ => none

def readAccess (access : Dict) : Option ToolAudiencePolicy := do
  let mode ← Read.literal AccessMode.text [.isPublic,.restricted] (Dict.get access "access_mode")
  let roles ← readRoles (Dict.get access "allowed_roles")
  if mode = .restricted ∧ roles = [] then none
  if mode = .isPublic ∧ roles ≠ [] then none
  return ⟨mode,roles⟩

/-- `parse_audience_policy`; a policy without access is public. -/
def parseAudiencePolicy : Value → Option ToolAudiencePolicy
  | .dict policy =>
    match Dict.get policy "access" with
    | .null => some {}
    | .dict access => readAccess access
    | _ => none
  | _ => none

def authorizeTool (policy : Option ToolAudiencePolicy) (caller : Option CallerIdentity) : AuthorizationDecision :=
  match policy with
  | none => ⟨false,some "tool_policy_unreadable",.restricted⟩
  | some policy =>
    if policy.isRestricted then
      let roles := (caller.map CallerIdentity.roles).getD []
      if roles.isEmpty then ⟨false,some "caller_has_no_roles",.restricted⟩
      else if roles.any (fun role => policy.allowedRoles.contains role) then ⟨true,none,.restricted⟩
      else ⟨false,some "role_not_permitted",.restricted⟩
    else ⟨true,none,.isPublic⟩

/-- `authorize_stored_policy`. -/
def authorizeStoredPolicy (toolPolicy : Value) (caller : Option CallerIdentity) : AuthorizationDecision :=
  authorizeTool (parseAudiencePolicy toolPolicy) caller

end ToolLayer.Policy
