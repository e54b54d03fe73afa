import ToolLayer.Contracts.Errors
import ToolLayer.Python.JsonText
import ToolLayer.Python.Utf8

/-! The wire form of a failure, and the responses the services put it in. -/
namespace ToolLayer
open Python Kit

def Severity.text : Severity → String
  | .error => "error"
  | .warning => "warning"

def ErrorDetail.toDict (d : ErrorDetail) : Dict :=
  [("code",.str d.code),("message",.str d.message),("pointer",(d.pointer.map Value.str).getD .null),
    ("severity",.str d.severity.text)]

structure ErrorEnvelope where
  code : ErrorCode
  message : Str
  pointer : Option Str := none
  details : List ErrorDetail := []
  requestId : Option Str := none

namespace ErrorEnvelope

def httpStatus (e : ErrorEnvelope) : Nat := e.code.status

/-- What is absent is left out, and so is an empty list of details. -/
def toDict (e : ErrorEnvelope) : Dict :=
  let always : Dict := [("code",.str e.code.text),("message",.str e.message)]
  let pointer : Dict := (e.pointer.map (fun p => (Str.lit "pointer",Value.str p))).toList
  let details : Dict := if e.details.isEmpty then [] else [("details",.list (e.details.map (fun d => .dict d.toDict)))]
  let requestId : Dict := (e.requestId.map (fun r => (Str.lit "request_id",Value.str r))).toList
  [("error",.dict (always ++ pointer ++ details ++ requestId))]

end ErrorEnvelope

def ToolLayerError.toEnvelope (e : ToolLayerError) (requestId : Option Str) : ErrorEnvelope :=
  ⟨e.code,e.message,e.pointer,e.details,requestId⟩

structure HttpResponse where
  status : Nat
  headers : List (Str × Str)
  body : Bytes

def HttpResponse.header (r : HttpResponse) (name : Str) : Option Str := Assoc.get name r.headers

/-- `JSONResponse.render`. -/
def jsonBody (v : Value) : Except PyExc Bytes := do
  let text ← Json.dumps ⟨",",":",false⟩ v
  Utf8.encode text

def jsonResponse (status : Nat) (headers : List (Str × Str)) (v : Value) : Except PyExc HttpResponse :=
  (jsonBody v).map (fun body => ⟨status,headers,body⟩)

/-- The envelope the Control Plane's handlers answer an exception with. -/
def envelopeOf (requestId : Option Str) : PyExc → ErrorEnvelope
  | .own (.toolLayer e) => e.toEnvelope requestId
  | .own (.conversion e) => ⟨e.kind.code,e.message,some e.pointer,[],requestId⟩
  | _ => ⟨.internalError,"the request could not be completed",none,[],requestId⟩

end ToolLayer
