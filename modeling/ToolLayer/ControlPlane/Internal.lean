import ToolLayer.Contracts.Envelope
import ToolLayer.ControlPlane.SnapshotOrder

/-! The route a Runtime reads the active snapshot from, conditionally on what it holds. -/
namespace ToolLayer.ControlPlane
open Python Kit Kit.Result

/-- `secrets.compare_digest` of two texts. -/
def compareDigest (a b : Str) : Except PyExc Bool :=
  if a.all CodePoint.isAscii && b.all CodePoint.isAscii then .ok (a == b) else .error .typeError

def serviceHeader : Str := "x-toollayer-service-token"

def requireService (serviceToken : Str) (token : Option Str) : Except PyExc Str :=
  match token with
  | none => .error (toolLayerError .unauthenticated "a valid service token is required")
  | some given => do
    let same ← compareDigest given serviceToken
    refuse (!same) (toolLayerError .unauthenticated "a valid service token is required")
    return "runtime"

/-- The entity tag of a snapshot: its digest in quotes. -/
def entityTag (digest : Str) : Str := Str.lit "\"" ++ digest ++ Str.lit "\""

/-- `_matches`. -/
def tagMatches (headerValue etag : Str) : Bool :=
  (Str.split headerValue ',').any (fun candidate =>
    let tag := Str.strip candidate
    tag == Str.lit "*" || tag == etag)

variable (serviceToken : Str) (db : Database) (deploymentKey : Str)

def snapshotHeaders (etag : Str) : List (Str × Str) := [("etag",etag),("cache-control","no-cache")]

def readSnapshot (token ifNoneMatch : Option Str) : Except PyExc HttpResponse := do
  let _ ← requireService serviceToken token
  let row ← getActiveSnapshot db deploymentKey
  let etag := entityTag row.snapshotDigest
  if ifNoneMatch.any (fun header => tagMatches header etag) then
    return ⟨304,snapshotHeaders etag,[]⟩
  jsonResponse 200 (snapshotHeaders etag) (.dict row.document)

/-- What the application answers: an exception becomes the envelope of its handler. -/
def answerSnapshot (requestId : Str) (token ifNoneMatch : Option Str) : HttpResponse :=
  match readSnapshot serviceToken db deploymentKey token ifNoneMatch with
  | .ok response => response
  | .error e =>
    let envelope := envelopeOf (some requestId) e
    ⟨envelope.httpStatus,[("x-request-id",requestId)],(jsonBody (.dict envelope.toDict)).toOption.getD []⟩

section Tags

theorem strip_entityTag (digest : Str) : Str.strip (entityTag digest) = entityTag digest := by
  have quote : ¬ CodePoint.isSpace (CodePoint.ofChar '"') = true := by decide
  have back : (entityTag digest).reverse = CodePoint.ofChar '"' :: (Str.lit "\"" ++ digest).reverse := by
    rw [entityTag,List.reverse_append]
    rfl
  have front : Str.lstrip CodePoint.isSpace (entityTag digest) = entityTag digest :=
    List.dropWhile_cons_of_neg quote
  rw [Str.strip,front,Str.rstrip,back,List.dropWhile_cons_of_neg quote,← back,List.reverse_reverse]

/-- Without a comma in it a tag matches itself alone. -/
theorem tagMatches_entityTag {a b : Str} (plain : ∀ c ∈ a, c ≠ CodePoint.ofChar ',') :
    tagMatches (entityTag a) (entityTag b) = true ↔ entityTag a = entityTag b := by
  have clean : ∀ c ∈ entityTag a, (c == CodePoint.ofChar ',') = false := by
    intro c member
    have quote : ∀ c ∈ Str.lit "\"", (c == CodePoint.ofChar ',') = false := List.forall_mem_singleton.mpr (by decide)
    rcases List.mem_append.mp member with front | last
    · rcases List.mem_append.mp front with first | inside
      · exact quote c first
      · exact beq_eq_false_iff_ne.mpr (plain c inside)
    · exact quote c last
  have one : Str.split (entityTag a) (CodePoint.ofChar ',') = [entityTag a] := Kit.Split.cut_clean _ _ clean
  have starless : (entityTag a == Str.lit "*") = false := by
    refine beq_eq_false_iff_ne.mpr (fun same => ?_)
    have first : (entityTag a).head? = some (CodePoint.ofChar '"') := rfl
    rw [same] at first
    exact absurd first (by decide)
  have matching : tagMatches (entityTag a) (entityTag b) =
      (Str.split (entityTag a) (CodePoint.ofChar ',')).any (fun candidate =>
        Str.strip candidate == Str.lit "*" || Str.strip candidate == entityTag b) := rfl
  rw [matching,one,List.any_cons,List.any_nil,strip_entityTag,starless]
  simp

/-- Every failure is answered with a status that says so. -/
theorem status_envelopeOf (requestId : Option Str) (e : PyExc) : 400 ≤ (envelopeOf requestId e).httpStatus := by
  have failures : ∀ code : ErrorCode, 400 ≤ code.status := by
    intro code
    cases code <;> decide
  exact failures _

end Tags

end ToolLayer.ControlPlane
