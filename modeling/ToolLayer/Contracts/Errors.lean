import ToolLayer.Python.Exceptions

/-! The failure shapes of the services: stable codes with their HTTP status, the
envelope exception, and the converter's own failures. -/
namespace ToolLayer
open Python

inductive ErrorCode where
  | invalidRequest
  | contractViolation
  | unsupportedContractVersion
  | invalidSourceDocument
  | unsupportedSpecFeature
  | sourceTooLarge
  | notFound
  | alreadyExists
  | revisionConflict
  | immutableVersion
  | invalidLifecycleTransition
  | notReadyForPublication
  | unauthenticated
  | forbidden
  | roleNotPermitted
  | snapshotUnavailable
  | snapshotIntegrityFailed
  | snapshotSignatureInvalid
  | unknownTool
  | argumentValidationFailed
  | noToolSelected
  | confirmationRequired
  | destinationNotAllowed
  | methodNotAllowed
  | privateAddressBlocked
  | redirectNotAllowed
  | responseTooLarge
  | upstreamTimeout
  | upstreamUnavailable
  | internalError
  deriving DecidableEq

namespace ErrorCode

def text : ErrorCode → String
  | invalidRequest => "invalid_request"
  | contractViolation => "contract_violation"
  | unsupportedContractVersion => "unsupported_contract_version"
  | invalidSourceDocument => "invalid_source_document"
  | unsupportedSpecFeature => "unsupported_spec_feature"
  | sourceTooLarge => "source_too_large"
  | notFound => "not_found"
  | alreadyExists => "already_exists"
  | revisionConflict => "revision_conflict"
  | immutableVersion => "immutable_version"
  | invalidLifecycleTransition => "invalid_lifecycle_transition"
  | notReadyForPublication => "not_ready_for_publication"
  | unauthenticated => "unauthenticated"
  | forbidden => "forbidden"
  | roleNotPermitted => "role_not_permitted"
  | snapshotUnavailable => "snapshot_unavailable"
  | snapshotIntegrityFailed => "snapshot_integrity_failed"
  | snapshotSignatureInvalid => "snapshot_signature_invalid"
  | unknownTool => "unknown_tool"
  | argumentValidationFailed => "argument_validation_failed"
  | noToolSelected => "no_tool_selected"
  | confirmationRequired => "confirmation_required"
  | destinationNotAllowed => "destination_not_allowed"
  | methodNotAllowed => "method_not_allowed"
  | privateAddressBlocked => "private_address_blocked"
  | redirectNotAllowed => "redirect_not_allowed"
  | responseTooLarge => "response_too_large"
  | upstreamTimeout => "upstream_timeout"
  | upstreamUnavailable => "upstream_unavailable"
  | internalError => "internal_error"

/-- `status_for`. -/
def status : ErrorCode → Nat
  | invalidRequest => 400
  | unauthenticated => 401
  | forbidden | roleNotPermitted | destinationNotAllowed | methodNotAllowed | privateAddressBlocked => 403
  | notFound | unknownTool => 404
  | unsupportedContractVersion | alreadyExists | revisionConflict | immutableVersion
  | invalidLifecycleTransition | confirmationRequired => 409
  | sourceTooLarge => 413
  | contractViolation | invalidSourceDocument | unsupportedSpecFeature | notReadyForPublication
  | argumentValidationFailed | noToolSelected => 422
  | internalError => 500
  | snapshotIntegrityFailed | snapshotSignatureInvalid | redirectNotAllowed | responseTooLarge
  | upstreamUnavailable => 502
  | snapshotUnavailable => 503
  | upstreamTimeout => 504

end ErrorCode

inductive Severity where
  | error
  | warning
  deriving DecidableEq

structure ErrorDetail where
  code : Str
  message : Str
  pointer : Option Str := none
  severity : Severity := .error
  deriving DecidableEq

structure ToolLayerError where
  code : ErrorCode
  message : Str
  pointer : Option Str := none
  details : List ErrorDetail := []
  deriving DecidableEq

/-- The three subclasses of `ConversionError`. -/
inductive ConversionKind where
  | invalidDocument
  | unsupportedFeature
  | documentTooLarge
  deriving DecidableEq

def ConversionKind.code : ConversionKind → ErrorCode
  | .invalidDocument => .invalidSourceDocument
  | .unsupportedFeature => .unsupportedSpecFeature
  | .documentTooLarge => .sourceTooLarge

structure ConversionError where
  kind : ConversionKind
  message : Str
  pointer : Str := []
  deriving DecidableEq

/-- The exception classes this repository defines. -/
inductive Failure where
  | toolLayer (e : ToolLayerError)
  | conversion (e : ConversionError)
  | incompatibleVersion (message : Str)
  | canonicalJson (message : Str)
  | invalidKeyMaterial (message : Str)
  | signatureVerification (message : Str)
  deriving DecidableEq

/-- All but `ToolLayerError` derive from `ValueError`. -/
def Failure.isValueError : Failure → Bool
  | .toolLayer _ => false
  | _ => true

abbrev PyExc := Exc Failure

def toolLayerError (code : ErrorCode) (message : Str) (pointer : Option Str := none)
    (details : List ErrorDetail := []) : PyExc :=
  .own (.toolLayer ⟨code,message,pointer,details⟩)

def invalidDocument (message : Str) (pointer : Str := []) : PyExc :=
  .own (.conversion ⟨.invalidDocument,message,pointer⟩)

def unsupportedFeature (message : Str) (pointer : Str := []) : PyExc :=
  .own (.conversion ⟨.unsupportedFeature,message,pointer⟩)

namespace PyExc

/-- `except ToolLayerError`. -/
def toolLayer? : PyExc → Option ToolLayerError
  | .own (.toolLayer e) => some e
  | _ => none

/-- `except ConversionError`. -/
def conversion? : PyExc → Option ConversionError
  | .own (.conversion e) => some e
  | _ => none

end PyExc

end ToolLayer
