import ToolLayer.Contracts.Signing
import ToolLayer.Policy.Authorization
import ToolLayer.Python.Double
import ToolLayer.Python.Encodings

/-! How the runtime decides who is calling: from headers it believes, or from a signed
caller token it verifies. -/
namespace ToolLayer.Runtime
open Python Kit Kit.Result Policy

inductive CallerAuthMode where
  | assertedHeader
  | verifiedToken
  deriving DecidableEq

def clockSkew : Double := .finite 30

def maxTokenBytes : Nat := 8192

def invalidCallerToken (message : Str) : PyExc := toolLayerError .unauthenticated message

structure CallerAuthenticator where
  mode : CallerAuthMode := .assertedHeader
  trustedKeys : TrustedKeyRing := .empty
  issuer : Str := []
  audience : Str := []

/-- `CallerIdentity.of`, with blank roles dropped and the others trimmed. -/
def identityOf (subject : Str) (roles : List Str) : CallerIdentity :=
  ⟨subject,(roles.filter (fun role => !role.strip.isEmpty)).map Str.strip⟩

/-- `b64u_decode` without `expected_length`. -/
def b64uRead (value : Str) : Except PyExc Bytes :=
  if value.isEmpty then .error (invalidKeyMaterial "expected a non-empty base64url string")
  else match Base64.urlsafeDecode (value ++ Base64.padding value.length) with
    | none => .error (invalidKeyMaterial "the value is not valid base64url")
    | some raw => .ok raw

/-- `except (InvalidKeyMaterial, UnicodeDecodeError, ValueError)`. -/
def orMalformed {A : Type} (message : Str) : Except PyExc A → Except PyExc A
  | .ok a => .ok a
  | .error e => .error (if e.isValueError Failure.isValueError then invalidCallerToken message else e)

def audienceMatches (claim : Value) (expected : Str) : Bool :=
  match claim with
  | .str s => s == expected
  | .list entries => entries.any (fun entry => match entry with
      | .str s => s == expected
      | _ => false)
  | _ => false

/-- The texts of a list that holds nothing else. -/
def textsOf : Value → Option (List Str)
  | .list items => items.mapM (fun item => match item with
      | .str s => some s
      | _ => none)
  | _ => none

/-- `claims.get("roles", [])`. -/
def rolesClaim (claims : Dict) : Value := (Assoc.get (Str.lit "roles") claims).getD (.list [])

/-- What the verified claims say about the caller. -/
def identityFrom (claims : Dict) : Except PyExc CallerIdentity :=
  match Dict.get claims "sub" with
  | .str (c::rest) =>
    match textsOf (rolesClaim claims) with
    | some roles => .ok (identityOf (c::rest) roles)
    | none => .error (invalidCallerToken "the caller token's roles claim is not a list of strings")
  | _ => .error (invalidCallerToken "the caller token names no subject")

namespace CallerAuthenticator

variable (scheme : Ed25519) (loads : Bytes → Except PyExc Value)

def readSegment (segment : Str) : Except PyExc Value := b64uRead segment >>= loads

/-- The key the header names, once the header has been read. -/
def signingKey (a : CallerAuthenticator) : Value → Except PyExc VerifyingKey
  | .dict header => do
    refuse (!Value.pyEq (Dict.get header "alg") (.str "EdDSA"))
      (invalidCallerToken "the caller token uses an unsupported signature algorithm")
    match Dict.get header "kid" with
    | .str (c::rest) =>
      match a.trustedKeys.find (c::rest) with
      | none => throw (invalidCallerToken "the caller token was signed by a key that is not trusted")
      | some key => return key
    | _ => throw (invalidCallerToken "the caller token names no signing key")
  | _ => throw (invalidCallerToken "the caller token header is not an object")

/-- `f"{encoded_header}.{encoded_payload}"`. -/
def signedText (header payload : Str) : Str := header ++ Str.lit "." ++ payload

def claimsObject : Value → Except PyExc Dict
  | .dict claims => .ok claims
  | _ => .error (invalidCallerToken "the caller token payload is not an object")

/-- The payload, read only after the signature has verified. -/
def signedClaims (key : VerifyingKey) (header payload signature : Str) : Except PyExc Dict := do
  let raw ← orMalformed "the caller token signature is malformed" (b64uRead signature)
  let message ← Ascii.encode (signedText header payload)
  refuse (!key.verify scheme message raw) (invalidCallerToken "the caller token signature does not verify")
  let claims ← orMalformed "the caller token payload is malformed" (readSegment loads payload)
  claimsObject claims

def expired (now : ℚ) (expiry : Double) : Bool := (expiry.add clockSkew).lt (.finite now)

def early (now : ℚ) (begins : Double) : Bool := (Double.add (.finite now) clockSkew).lt begins

/-- A `nbf` that is not a number is passed over. -/
def checkBegin (now : ℚ) (notBefore : Value) : Except PyExc Unit :=
  if notBefore.isNumber then do
    let begins ← notBefore.toFloat
    refuse (early now begins) (invalidCallerToken "the caller token is not valid yet")
  else .ok ()

def checkClaims (a : CallerAuthenticator) (now : ℚ) (claims : Dict) : Except PyExc Unit := do
  refuse (!a.issuer.isEmpty && !Value.pyEq (Dict.get claims "iss") (.str a.issuer))
    (invalidCallerToken "the caller token was issued by an unexpected issuer")
  refuse (!a.audience.isEmpty && !audienceMatches (Dict.get claims "aud") a.audience)
    (invalidCallerToken "the caller token is not intended for this runtime")
  refuse (!(Dict.get claims "exp").isNumber) (invalidCallerToken "the caller token does not expire")
  let expiry ← (Dict.get claims "exp").toFloat
  refuse (expired now expiry) (invalidCallerToken "the caller token has expired")
  checkBegin now (Dict.get claims "nbf")

/-- `_verified_claims`; `now` is what the clock answers. -/
def verifiedClaims (a : CallerAuthenticator) (now : ℚ) (token : Str) : Except PyExc Dict := do
  let encoded ← Utf8.encode token
  refuse (decide (maxTokenBytes < encoded.length)) (invalidCallerToken "the caller token is too large")
  match Str.split token '.' with
  | [header,payload,signature] => do
    let read ← orMalformed "the caller token is malformed" (readSegment loads header)
    let key ← a.signingKey read
    let claims ← signedClaims scheme loads key header payload signature
    a.checkClaims now claims
    return claims
  | _ => throw (invalidCallerToken "the caller token is not a compact JWS")

/-- `_from_token`. -/
def fromToken (a : CallerAuthenticator) (now : ℚ) : Option Str → Except PyExc CallerIdentity
  | some (c::rest) => a.verifiedClaims scheme loads now (c::rest) >>= identityFrom
  | _ => throw (invalidCallerToken "a caller token is required")

/-- The identity the headers assert. -/
def assertedIdentity (subject roles : Option Str) : Option CallerIdentity :=
  if subject.isNone && roles.isNone then none
  else
    let name := match subject with
      | some (c::rest) => c::rest
      | _ => "anonymous"
    some (identityOf name (Str.split (roles.getD []) ','))

def identify (a : CallerAuthenticator) (now : ℚ) (bearerToken assertedSubject assertedRoles : Option Str) :
    Except PyExc (Option CallerIdentity) :=
  match a.mode with
  | .verifiedToken => do
    refuse (assertedSubject.isSome || assertedRoles.isSome) (invalidCallerToken
      "this runtime verifies caller identity; asserted identity headers are not accepted")
    some <$> a.fromToken scheme loads now bearerToken
  | .assertedHeader => .ok (assertedIdentity assertedSubject assertedRoles)

section Stages

def IsInvalidCallerToken (e : PyExc) : Prop := ∃ message, e = invalidCallerToken message

omit scheme loads in
theorem isInvalidCallerToken (message : Str) : IsInvalidCallerToken (invalidCallerToken message) := ⟨message,rfl⟩

/-- The exceptions of `json.loads`; `UnicodeDecodeError` is a `ValueError`. -/
def Loading (e : PyExc) : Prop := e.isValueError Failure.isValueError = true ∨ e = .recursionError

omit scheme loads in
theorem only_b64uRead (value : Str) : Only (fun e => e.isValueError Failure.isValueError = true) (b64uRead value) := by
  unfold b64uRead
  split
  · exact only_error rfl
  · split
    · exact only_error rfl
    · exact only_ok _

variable {loads} in
theorem only_readSegment (raises : ∀ raw, Only Loading (loads raw)) (segment : Str) :
    Only Loading (readSegment loads segment) :=
  only_bind (only_mono (fun _ => Or.inl) (only_b64uRead segment)) (fun raw _ => raises raw)

omit scheme loads in
theorem ends_orMalformed {A : Type} {good : A → Prop} {message : Str} {x : Except PyExc A} (only : Only Loading x) :
    Ends IsInvalidCallerToken good (orMalformed message x) ↔
      x ≠ .error .recursionError ∧ ∀ a, x = .ok a → good a := by
  cases x with
  | ok a => simp [orMalformed]
  | error e =>
    rcases only e rfl with caught | rfl
    · have other : e ≠ .recursionError := by
        rintro rfl
        cases caught
      simp [orMalformed,caught,other,isInvalidCallerToken]
    · simp [orMalformed,Exc.isValueError,IsInvalidCallerToken,invalidCallerToken,toolLayerError]

/-- The header names the algorithm and a key of the ring. -/
structure Names (a : CallerAuthenticator) (header : Dict) (key : VerifyingKey) : Prop where
  algorithm : Dict.get header "alg" = .str "EdDSA"
  keyed : Dict.get header "kid" = .str key.keyId
  trusted : key ∈ a.trustedKeys.keys

variable (a : CallerAuthenticator)

omit scheme loads in
theorem signingKey_eq_ok {read : Value} {key : VerifyingKey} :
    a.signingKey read = .ok key ↔ ∃ header, read = .dict header ∧ Names a header key := by
  constructor
  · intro found
    cases read with
    | dict header =>
      obtain ⟨algorithm,found⟩ := refuse_bind_eq_ok.mp found
      split at found
      next c rest keyed =>
        split at found
        next => cases found
        next key' looked =>
          cases found
          obtain ⟨trusted,same⟩ := TrustedKeyRing.mem_of_find looked
          exact ⟨header,rfl,Value.pyEq_str.mp (by simpa using algorithm),same ▸ keyed,trusted⟩
      next => cases found
    | _ => cases found
  · rintro ⟨header,rfl,names⟩
    obtain ⟨c,rest,spelled⟩ := List.exists_cons_of_ne_nil key.keyId_ne_nil
    have found := TrustedKeyRing.find_of_mem names.trusted
    have keyed := names.keyed
    rw [spelled] at found keyed
    rw [signingKey,Value.pyEq_str.mpr names.algorithm]
    simp only [Bool.not_true,refuse_false,ok_bind,keyed,found]
    rfl

omit scheme loads in
theorem only_signingKey (read : Value) : Only IsInvalidCallerToken (a.signingKey read) := by
  cases read with
  | dict header =>
    refine only_bind (only_refuse (fun _ => isInvalidCallerToken _)) (fun _ _ => ?_)
    split
    · split
      · exact only_error (isInvalidCallerToken _)
      · exact only_ok _
    · exact only_error (isInvalidCallerToken _)
  | _ => exact only_error (isInvalidCallerToken _)

omit scheme loads in
theorem ascii_of_b64uRead {value : Str} {raw : Bytes} (read : b64uRead value = .ok raw) :
    value.all CodePoint.isAscii = true := by
  unfold b64uRead at read
  split at read
  · cases read
  · unfold Base64.urlsafeDecode at read
    split at read
    next => cases read
    next found =>
      split at found
      next ascii =>
        rw [List.all_append,Bool.and_eq_true] at ascii
        exact ascii.1
      next => cases found

theorem ascii_of_readSegment {segment : Str} {v : Value} (read : readSegment loads segment = .ok v) :
    segment.all CodePoint.isAscii = true := by
  obtain ⟨raw,decoded,_⟩ := bind_eq_ok.mp read
  exact ascii_of_b64uRead decoded

variable {loads} (raises : ∀ raw, Only Loading (loads raw))

/-- Past the header: what a signature that decodes asks of the payload. -/
def PayloadHandled (loads : Bytes → Except PyExc Value) (settled : Dict → Prop) (key : VerifyingKey)
    (header payload signature : Str) : Prop :=
  ∀ raw, b64uRead signature = .ok raw →
    payload.all CodePoint.isAscii = true ∧
    (key.verify scheme (Utf8.bytes (signedText header payload)) raw = true →
      readSegment loads payload ≠ .error .recursionError ∧
      ∀ claims, readSegment loads payload = .ok (.dict claims) → settled claims)

include raises in
theorem ends_signedClaims {settled : Dict → Prop} {key : VerifyingKey} {header payload signature : Str}
    (ascii : header.all CodePoint.isAscii = true) :
    Ends IsInvalidCallerToken settled (signedClaims scheme loads key header payload signature) ↔
      PayloadHandled scheme loads settled key header payload signature := by
  have invalid := isInvalidCallerToken
  have object : ∀ read : Value, Ends IsInvalidCallerToken settled (claimsObject read) ↔
      ∀ claims, read = .dict claims → settled claims := by
    intro read
    cases read with
    | dict claims => simp [claimsObject]
    | _ => simp [claimsObject,invalid]
  have text : (signedText header payload).all CodePoint.isAscii = payload.all CodePoint.isAscii := by
    rw [signedText,List.all_append,List.all_append,ascii]
    rfl
  have encoded : ∀ good : Bytes → Prop, Ends IsInvalidCallerToken good (Ascii.encode (signedText header payload)) ↔
      payload.all CodePoint.isAscii = true ∧ good (Utf8.bytes (signedText header payload)) := by
    intro good
    rw [Ascii.encode,text]
    split
    next plain => simp [plain]
    next other => simp [other,IsInvalidCallerToken,invalidCallerToken,toolLayerError]
  rw [signedClaims,ends_bind,ends_orMalformed (only_mono (fun _ => Or.inl) (only_b64uRead signature))]
  have noRecursion : b64uRead signature ≠ .error .recursionError := by
    intro raised
    cases only_b64uRead signature _ raised
  simp only [noRecursion,ne_eq,not_false_eq_true,true_and,ends_bind,encoded,ends_refuse_bind (invalid _),
    ends_orMalformed (only_readSegment raises payload),Bool.not_eq_false',object,PayloadHandled]
  constructor
  · intro handled raw read
    obtain ⟨plain,next⟩ := handled raw read
    exact ⟨plain,fun verified => ⟨(next verified).1,fun claims found => (next verified).2 _ found claims rfl⟩⟩
  · intro handled raw read
    obtain ⟨plain,next⟩ := handled raw read
    refine ⟨plain,fun verified => ⟨(next verified).1,?_⟩⟩
    rintro _ found claims rfl
    exact (next verified).2 claims found

/-- Where reading a token ends with claims or with a refusal, given what is to hold of the claims. -/
def TokenHandled (loads : Bytes → Except PyExc Value) (token : Str) (settled : Dict → Prop) : Prop :=
  token.scalar = true ∧
  ((Utf8.bytes token).length ≤ maxTokenBytes → ∀ header payload signature, Str.split token '.' = [header,payload,signature] →
    readSegment loads header ≠ .error .recursionError ∧
    ∀ members, readSegment loads header = .ok (.dict members) → ∀ key, Names a members key →
      PayloadHandled scheme loads settled key header payload signature)

include raises in
theorem ends_verifiedClaims {now : ℚ} {token : Str} {good : Dict → Prop} :
    Ends IsInvalidCallerToken good (a.verifiedClaims scheme loads now token) ↔
      TokenHandled scheme a loads token (fun claims =>
        Ends IsInvalidCallerToken (fun _ => good claims) (a.checkClaims now claims)) := by
  have invalid := isInvalidCallerToken
  rw [verifiedClaims,TokenHandled,ends_bind,Utf8.encode]
  by_cases written : token.scalar = true
  · rw [if_pos written,ends_ok,ends_refuse_bind (invalid _)]
    simp only [written,true_and,decide_eq_false_iff_not,not_lt]
    refine imp_congr_right (fun _ => ?_)
    split
    next header payload signature parts =>
      simp only [parts,List.cons.injEq,and_true]
      rw [ends_bind,ends_orMalformed (only_readSegment raises header)]
      constructor
      · rintro ⟨read,next⟩ _ _ _ ⟨rfl,rfl,rfl⟩
        refine ⟨read,fun members found key names => ?_⟩
        have handled := next _ found
        rw [ends_bind,ends_of_only (only_signingKey a _)] at handled
        have keyed := handled key ((signingKey_eq_ok a).mpr ⟨members,rfl,names⟩)
        rw [ends_bind,ends_signedClaims scheme raises (ascii_of_readSegment loads found)] at keyed
        simpa only [ends_bind,pure_eq_ok,ends_ok] using keyed
      · intro handled
        obtain ⟨read,next⟩ := handled header payload signature ⟨rfl,rfl,rfl⟩
        refine ⟨read,fun value found => ?_⟩
        rw [ends_bind,ends_of_only (only_signingKey a _)]
        intro key looked
        obtain ⟨members,rfl,names⟩ := (signingKey_eq_ok a).mp looked
        rw [ends_bind,ends_signedClaims scheme raises (ascii_of_readSegment loads found)]
        simpa only [ends_bind,pure_eq_ok,ends_ok] using next members found key names
    next other =>
      refine iff_of_true (invalid _) ?_
      intro header payload signature parts
      exact absurd parts (other header payload signature)
  · rw [if_neg written]
    simp [written,IsInvalidCallerToken,invalidCallerToken,toolLayerError]

end Stages

section Claims

variable (a : CallerAuthenticator)

/-- The single text and the array form of an audience. -/
def Addressed (claim : Value) (expected : Str) : Prop :=
  claim = .str expected ∨ ∃ entries, claim = .list entries ∧ .str expected ∈ entries

omit scheme loads in
theorem audienceMatches_iff {claim : Value} {expected : Str} :
    audienceMatches claim expected = true ↔ Addressed claim expected := by
  cases claim with
  | str s => simp [audienceMatches,Addressed]
  | list entries =>
    simp only [audienceMatches,List.any_eq_true,Addressed,reduceCtorEq,false_or,Value.list.injEq,exists_eq_left']
    constructor
    · rintro ⟨entry,member,same⟩
      cases entry with
      | str s => rwa [← beq_iff_eq.mp same]
      | _ => cases same
    · exact fun member => ⟨_,member,beq_self_eq_true expected⟩
  | _ => simp [audienceMatches,Addressed]

omit scheme loads in
theorem textsOf_eq_some {v : Value} {texts : List Str} : textsOf v = some texts ↔ v = .list (texts.map .str) := by
  cases v with
  | list items =>
    rw [textsOf,Value.list.injEq]
    induction items generalizing texts with
    | nil => cases texts <;> simp
    | cons item rest ih =>
      rw [List.mapM_cons]
      cases item with
      | str s =>
        cases texts with
        | nil => simp [Option.bind_eq_some_iff]
        | cons t texts => simp [Option.bind_eq_some_iff,ih,and_comm]
      | _ => cases texts <;> simp
  | _ => simp [textsOf]

/-- What the claims say when an identity is read from them. -/
structure Accepts (now : ℚ) (claims : Dict) (identity : CallerIdentity) : Prop where
  issuer : Dict.get claims "iss" = .str a.issuer
  audience : Addressed (Dict.get claims "aud") a.audience
  expires : ∃ expiry : ℚ, ((Dict.get claims "exp").toFloat : Except PyExc Double) = .ok (.finite expiry) ∧
    Double.le (.finite now) (Double.add (.finite expiry) clockSkew) = true
  begins : Dict.has claims "nbf" = true → ∃ begins, ((Dict.get claims "nbf").toFloat : Except PyExc Double) = .ok begins ∧
    begins.le (Double.add (.finite now) clockSkew) = true
  subject : Dict.get claims "sub" = .str identity.subject ∧ identity.subject ≠ []
  roles : ∃ roles : List Str, rolesClaim claims = .list (roles.map .str) ∧ identity = identityOf identity.subject roles

/-- The claims name a caller. -/
def NamesCaller (claims : Dict) : Prop :=
  (∃ subject, Dict.get claims "sub" = .str subject ∧ subject ≠ []) ∧
  ∃ roles : List Str, rolesClaim claims = .list (roles.map .str)

omit scheme loads in
theorem ends_identityFrom {claims : Dict} {good : CallerIdentity → Prop} :
    Ends IsInvalidCallerToken good (identityFrom claims) ↔
      ∀ subject roles, Dict.get claims "sub" = .str subject → subject ≠ [] →
        rolesClaim claims = .list (roles.map .str) → good (identityOf subject roles) := by
  have invalid := isInvalidCallerToken
  unfold identityFrom
  split
  next c rest named =>
    split
    next roles read =>
      rw [ends_ok,named,textsOf_eq_some.mp read]
      constructor
      · rintro held _ others ⟨⟩ _ same
        have equal := List.map_injective_iff.mpr (fun _ _ => Value.str.inj) (Value.list.inj same)
        exact equal ▸ held
      · exact fun held => held _ _ rfl (by simp) rfl
    next unread =>
      refine iff_of_true (invalid _) (fun _ roles _ _ same => ?_)
      rw [textsOf_eq_some.mpr same] at unread
      cases unread
  next other =>
    refine iff_of_true (invalid _) (fun subject _ named filled _ => ?_)
    obtain ⟨c,rest,rfl⟩ := List.exists_cons_of_ne_nil filled
    exact absurd named (other c rest)

omit scheme loads in
theorem ends_toFloat {v : Value} {good : Double → Prop} (number : v.isNumber = true) :
    Ends IsInvalidCallerToken good (v.toFloat : Except PyExc Double) ↔
      (v.toFloat : Except PyExc Double) ≠ .error .overflowError ∧ ∀ x, (v.toFloat : Except PyExc Double) = .ok x → good x := by
  cases v with
  | int n =>
    rw [Value.toFloat,Double.ofInt]
    split
    · simp
    · simp [IsInvalidCallerToken,invalidCallerToken,toolLayerError]
  | float x => simp [Value.toFloat]
  | _ => cases number

omit scheme loads in
theorem isNumber_of_toFloat {v : Value} {x : Double} (read : (v.toFloat : Except PyExc Double) = .ok x) :
    v.isNumber = true := by
  cases v with
  | int n => rfl
  | float y => rfl
  | _ => cases read

omit scheme loads in
theorem ends_checkBegin {now : ℚ} {v : Value} {good : Prop} :
    Ends IsInvalidCallerToken (fun _ => good) (checkBegin now v) ↔
      (v.toFloat : Except PyExc Double) ≠ .error .overflowError ∧
      ((∀ begins, (v.toFloat : Except PyExc Double) = .ok begins → early now begins = false) → good) := by
  unfold checkBegin
  split
  next number =>
    rw [ends_bind,ends_toFloat number]
    refine and_congr_right (fun fits => ?_)
    simp only [ends_refuse (isInvalidCallerToken _)]
    cases read : (v.toFloat : Except PyExc Double) with
    | ok x => simp
    | error e =>
      have only := (@ends_toFloat v (fun _ => True) number).mpr ⟨fits,fun _ _ => trivial⟩
      rw [read] at only
      obtain ⟨message,rfl⟩ := only
      cases v with
      | int n =>
        rw [Value.toFloat,Double.ofInt] at read
        split at read <;> cases read
      | float y => cases read
      | _ => cases number
  next other =>
    have unread : (v.toFloat : Except PyExc Double) = .error .typeError := by
      cases v with
      | int n => exact absurd rfl other
      | float x => exact absurd rfl other
      | _ => rfl
    simp [unread]

/-- Where the times of signed claims can be read, and bound the life of the token. -/
structure TimesHandled (now : ℚ) (claims : Dict) : Prop where
  expiry : ((Dict.get claims "exp").toFloat : Except PyExc Double) ≠ .error .overflowError
  begins : ∀ expiry, ((Dict.get claims "exp").toFloat : Except PyExc Double) = .ok expiry → expired now expiry = false →
    ((Dict.get claims "nbf").toFloat : Except PyExc Double) ≠ .error .overflowError
  bounded : ∀ expiry, ((Dict.get claims "exp").toFloat : Except PyExc Double) = .ok expiry → expired now expiry = false →
    (∀ begins, ((Dict.get claims "nbf").toFloat : Except PyExc Double) = .ok begins → early now begins = false) →
    NamesCaller claims → (∃ q, expiry = .finite q) ∧
      (Dict.has claims "nbf" = true →
        ∃ begins, ((Dict.get claims "nbf").toFloat : Except PyExc Double) = .ok begins ∧ begins ≠ .nan)

omit scheme loads in
theorem add_finite_ne_nan (p q : ℚ) : Double.add (.finite p) (.finite q) ≠ .nan := by
  rw [Double.add,Double.ofRat]
  split <;> simp

variable {a}

omit scheme loads in
theorem accepts_iff {now : ℚ} {claims : Dict} {expiry : Double} {subject : Str} {roles : List Str}
    (issued : Dict.get claims "iss" = .str a.issuer) (addressed : Addressed (Dict.get claims "aud") a.audience)
    (read : ((Dict.get claims "exp").toFloat : Except PyExc Double) = .ok expiry) (live : expired now expiry = false)
    (begun : ∀ begins, ((Dict.get claims "nbf").toFloat : Except PyExc Double) = .ok begins → early now begins = false)
    (named : Dict.get claims "sub" = .str subject) (filled : subject ≠ [])
    (listed : rolesClaim claims = .list (roles.map .str)) :
    Accepts a now claims (identityOf subject roles) ↔ (∃ q, expiry = .finite q) ∧
      (Dict.has claims "nbf" = true →
        ∃ begins, ((Dict.get claims "nbf").toFloat : Except PyExc Double) = .ok begins ∧ begins ≠ .nan) := by
  constructor
  · intro accepts
    obtain ⟨q,finite,_⟩ := accepts.expires
    refine ⟨⟨q,Except.ok.inj (read.symm.trans finite)⟩,fun present => ?_⟩
    obtain ⟨begins,found,below⟩ := accepts.begins present
    refine ⟨begins,found,?_⟩
    rintro rfl
    simp [Double.le,Double.lt] at below
  · rintro ⟨⟨q,rfl⟩,numeric⟩
    refine ⟨issued,addressed,⟨q,read,?_⟩,fun present => ?_,⟨named,filled⟩,roles,listed,rfl⟩
    · rw [Double.le_eq_not_lt (by simp) (by exact add_finite_ne_nan q 30)]
      exact congrArg not live
    · obtain ⟨begins,found,number⟩ := numeric present
      refine ⟨begins,found,?_⟩
      rw [Double.le_eq_not_lt number (by exact add_finite_ne_nan now 30)]
      exact congrArg not (begun begins found)

omit scheme loads in
/-- Claims from the issuer for this audience are handled exactly when their times are. -/
theorem ends_checkClaims (issuer : a.issuer ≠ []) (audience : a.audience ≠ []) {now : ℚ} {claims : Dict} :
    Ends IsInvalidCallerToken (fun _ => Ends IsInvalidCallerToken (Accepts a now claims) (identityFrom claims))
        (a.checkClaims now claims) ↔
      (Dict.get claims "iss" = .str a.issuer → Addressed (Dict.get claims "aud") a.audience →
        TimesHandled now claims) := by
  have invalid := isInvalidCallerToken
  have named : a.issuer.isEmpty = false := by simpa using issuer
  have heard : a.audience.isEmpty = false := by simpa using audience
  rw [checkClaims,ends_refuse_bind (invalid _),ends_refuse_bind (invalid _),ends_refuse_bind (invalid _),named,heard]
  simp only [Bool.not_false,Bool.true_and,Bool.not_eq_false',Value.pyEq_str,audienceMatches_iff]
  refine imp_congr_right (fun issued => imp_congr_right (fun addressed => ?_))
  constructor
  · intro handled
    refine ⟨fun overflowed => ?_,fun expiry read live => ?_,fun expiry read live begun caller => ?_⟩
    · have number : (Dict.get claims "exp").isNumber = true := by
        cases value : Dict.get claims "exp" <;> rw [value] at overflowed <;> first | rfl | cases overflowed
      have later := handled number
      rw [ends_bind,ends_toFloat number] at later
      exact later.1 overflowed
    · have later := handled (isNumber_of_toFloat read)
      rw [ends_bind,ends_toFloat (isNumber_of_toFloat read)] at later
      have checked := later.2 expiry read
      rw [ends_refuse_bind (invalid _),ends_checkBegin] at checked
      exact (checked live).1
    · have later := handled (isNumber_of_toFloat read)
      rw [ends_bind,ends_toFloat (isNumber_of_toFloat read)] at later
      have checked := later.2 expiry read
      rw [ends_refuse_bind (invalid _),ends_checkBegin,ends_identityFrom] at checked
      obtain ⟨⟨subject,sub,filled⟩,roles,listed⟩ := caller
      exact (accepts_iff issued addressed read live begun sub filled listed).mp
        ((checked live).2 begun subject roles sub filled listed)
  · intro handled number
    rw [ends_bind,ends_toFloat number]
    refine ⟨handled.expiry,fun expiry read => ?_⟩
    rw [ends_refuse_bind (invalid _),ends_checkBegin,ends_identityFrom]
    refine fun live => ⟨handled.begins expiry read live,fun begun subject roles sub filled listed => ?_⟩
    exact (accepts_iff issued addressed read live begun sub filled listed).mpr
      (handled.bounded expiry read live begun ⟨⟨subject,sub,filled⟩,roles,listed⟩)

end Claims

section FailsClosed

/-- The parts of a token, and what they decode to. -/
structure Evidence where
  header : Str
  payload : Str
  signature : Str
  members : Dict
  key : VerifyingKey
  raw : Bytes
  claims : Dict

/-- The token is signed, over its first two parts as received, by the key of the ring it names. -/
structure Signed (a : CallerAuthenticator) (token : Str) (e : Evidence) : Prop where
  parts : Str.split token '.' = [e.header,e.payload,e.signature]
  header : readSegment loads e.header = .ok (.dict e.members)
  names : Names a e.members e.key
  decoded : b64uRead e.signature = .ok e.raw
  verified : e.key.verify scheme (Utf8.bytes (signedText e.header e.payload)) e.raw = true
  payload : readSegment loads e.payload = .ok (.dict e.claims)

variable {scheme loads} {a : CallerAuthenticator}

theorem Signed.claims_eq {token : Str} {e f : Evidence} (first : Signed scheme loads a token e)
    (second : Signed scheme loads a token f) : e.claims = f.claims := by
  have parts := first.parts.symm.trans second.parts
  simp only [List.cons.injEq,and_true] at parts
  have read := first.payload
  rw [parts.2.1,second.payload] at read
  exact (Value.dict.inj (Except.ok.inj read)).symm

theorem tokenHandled_congr {token : Str} {settled other : Dict → Prop}
    (same : ∀ e, Signed scheme loads a token e → (settled e.claims ↔ other e.claims)) :
    TokenHandled scheme a loads token settled ↔ TokenHandled scheme a loads token other := by
  refine and_congr_right (fun _ => imp_congr_right (fun _ => ?_))
  refine forall_congr' (fun header => forall_congr' (fun payload => forall_congr' (fun signature => ?_)))
  refine imp_congr_right (fun parts => and_congr_right (fun _ => ?_))
  refine forall_congr' (fun members => imp_congr_right (fun found => ?_))
  refine forall_congr' (fun key => imp_congr_right (fun names => ?_))
  refine forall_congr' (fun raw => imp_congr_right (fun decoded => and_congr_right (fun _ => ?_)))
  refine imp_congr_right (fun verified => and_congr_right (fun _ => ?_))
  refine forall_congr' (fun claims => imp_congr_right (fun read => ?_))
  exact same ⟨header,payload,signature,members,key,raw,claims⟩ ⟨parts,found,names,decoded,verified,read⟩

/-- The answer is an identity that a signed token vouches for, or the exception for a token
that is not accepted. -/
def FailsClosed (scheme : Ed25519) (loads : Bytes → Except PyExc Value) (a : CallerAuthenticator) (now : ℚ)
    (bearerToken assertedSubject assertedRoles : Option Str) : Prop :=
  Ends IsInvalidCallerToken (fun answer => ∃ identity token e, answer = some identity ∧
      assertedSubject = none ∧ assertedRoles = none ∧ bearerToken = some token ∧
      Signed scheme loads a token e ∧ Accepts a now e.claims identity)
    (a.identify scheme loads now bearerToken assertedSubject assertedRoles)

/-- A token that comes alone is handled in each of its parts. -/
def RequestHandled (scheme : Ed25519) (loads : Bytes → Except PyExc Value) (a : CallerAuthenticator) (now : ℚ)
    (bearerToken assertedSubject assertedRoles : Option Str) : Prop :=
  assertedSubject = none → assertedRoles = none → ∀ token, bearerToken = some token → token ≠ [] →
    TokenHandled scheme a loads token (fun claims =>
      Dict.get claims "iss" = .str a.issuer → Addressed (Dict.get claims "aud") a.audience → TimesHandled now claims)

/-- Authentication fails closed exactly where every part of the token is handled. -/
theorem identify_failsClosed_iff (raises : ∀ raw, Only Loading (loads raw)) (mode : a.mode = .verifiedToken)
    (issuer : a.issuer ≠ []) (audience : a.audience ≠ []) (now : ℚ)
    (bearerToken assertedSubject assertedRoles : Option Str) :
    FailsClosed scheme loads a now bearerToken assertedSubject assertedRoles ↔
      RequestHandled scheme loads a now bearerToken assertedSubject assertedRoles := by
  have invalid := isInvalidCallerToken
  have tokens : ∀ token : Str, token ≠ [] → (Ends IsInvalidCallerToken
      (fun identity => ∃ e, Signed scheme loads a token e ∧ Accepts a now e.claims identity)
      (a.verifiedClaims scheme loads now token >>= identityFrom) ↔
      TokenHandled scheme a loads token (fun claims =>
        Dict.get claims "iss" = .str a.issuer → Addressed (Dict.get claims "aud") a.audience →
          TimesHandled now claims)) := by
    intro token _
    rw [ends_bind,ends_verifiedClaims scheme a raises]
    apply tokenHandled_congr
    intro e signed
    rw [← ends_checkClaims issuer audience]
    refine ends_congr (fun _ _ => ends_congr (fun identity _ => ?_))
    constructor
    · rintro ⟨f,other,accepts⟩
      rwa [← other.claims_eq signed]
    · exact fun accepts => ⟨e,signed,accepts⟩
  rw [FailsClosed,identify,mode]
  simp only
  rw [ends_refuse_bind (invalid _),RequestHandled,Bool.or_eq_false_iff,Option.isSome_eq_false_iff,
    Option.isSome_eq_false_iff,Option.isNone_iff_eq_none,Option.isNone_iff_eq_none,and_imp]
  refine imp_congr_right (fun noSubject => imp_congr_right (fun noRoles => ?_))
  have mapped : ∀ x : Except PyExc CallerIdentity, Ends IsInvalidCallerToken (fun answer => ∃ identity token e,
      answer = some identity ∧ assertedSubject = none ∧ assertedRoles = none ∧ bearerToken = some token ∧
      Signed scheme loads a token e ∧ Accepts a now e.claims identity) (some <$> x) ↔
      Ends IsInvalidCallerToken (fun identity => ∃ token, bearerToken = some token ∧
        ∃ e, Signed scheme loads a token e ∧ Accepts a now e.claims identity) x := by
    intro x
    cases x with
    | error e => exact Iff.rfl
    | ok identity =>
      simp only [Functor.map,Except.map,ends_ok,Option.some.injEq,noSubject,noRoles,true_and]
      constructor
      · rintro ⟨_,token,e,rfl,bearer,rest⟩
        exact ⟨token,bearer,e,rest⟩
      · rintro ⟨token,bearer,e,rest⟩
        exact ⟨identity,token,e,rfl,bearer,rest⟩
  rw [mapped]
  cases bearerToken with
  | none => exact iff_of_true (invalid _) (fun _ none_ => by cases none_)
  | some token =>
    cases token with
    | nil => exact iff_of_true (invalid _) (fun _ same filled => absurd (Option.some.inj same).symm filled)
    | cons c rest =>
      simp only [Option.some.injEq,exists_eq_left',forall_eq']
      rw [fromToken,tokens _ (by simp)]
      simp

omit scheme loads in
theorem only_loadsBytes (h : Json.Hooks) (raw : Bytes) : Only Loading (Json.loadsBytes h raw) := by
  have refused : Only Loading (.error .valueError : Except PyExc Value) := only_error (Or.inl rfl)
  rw [Json.loadsBytes]
  split
  · exact refused
  · rw [Json.loads]
    split
    · exact refused
    · split
      · split
        · exact only_ok _
        · exact refused
      · exact refused

/-- A header that names the one trusted key. -/
def sampleHeader : Str := "eyJhbGciOiJFZERTQSIsImtpZCI6ImNhbGxlci1rZXkifQ"

def sampleAuthenticator : CallerAuthenticator where
  mode := .verifiedToken
  trustedKeys := ⟨[⟨"caller-key",List.replicate keyBytes 0,by decide⟩],by simp⟩
  issuer := "https://issuer.example"
  audience := "toollayer-runtime"

/-- A token whose signature does not verify. -/
theorem identify_failsClosed_forged :
    let scheme : Ed25519 := ⟨id,fun _ _ => [],fun _ _ _ => false⟩
    let hooks : Json.Hooks := ⟨fun _ => ⟨"0.0",by decide⟩,fun _ => none⟩
    RequestHandled scheme (Json.loadsBytes hooks) sampleAuthenticator 0 (some (sampleHeader ++ Str.lit ".e30.AA")) none
      none := by
  intro scheme hooks
  refine (identify_failsClosed_iff (only_loadsBytes hooks) rfl (by decide) (by decide) 0 _ none none).mp ?_
  have refused : sampleAuthenticator.identify scheme (Json.loadsBytes hooks) 0
      (some (sampleHeader ++ Str.lit ".e30.AA")) none none =
      .error (invalidCallerToken "the caller token signature does not verify") := by decide +kernel
  rw [FailsClosed,refused]
  exact isInvalidCallerToken _

/-- A payload segment that is not ASCII, under a header that names a trusted key. -/
theorem identify_raises_unicode :
    let scheme : Ed25519 := ⟨id,fun _ _ => [],fun _ _ _ => false⟩
    let hooks : Json.Hooks := ⟨fun _ => ⟨"0.0",by decide⟩,fun _ => none⟩
    let token := sampleHeader ++ Str.lit ".é.AA"
    (∀ raw, Only Loading (Json.loadsBytes hooks raw)) ∧ sampleAuthenticator.mode = .verifiedToken ∧
      sampleAuthenticator.issuer ≠ [] ∧ sampleAuthenticator.audience ≠ [] ∧
      sampleAuthenticator.identify scheme (Json.loadsBytes hooks) 0 (some token) none none =
        .error .unicodeEncodeError ∧
      ¬ FailsClosed scheme (Json.loadsBytes hooks) sampleAuthenticator 0 (some token) none none := by
  intro scheme hooks token
  have raised : sampleAuthenticator.identify scheme (Json.loadsBytes hooks) 0 (some token) none none =
      .error .unicodeEncodeError := by decide +kernel
  refine ⟨only_loadsBytes hooks,rfl,by decide,by decide,raised,?_⟩
  rw [FailsClosed,raised]
  rintro ⟨message,same⟩
  cases same

end FailsClosed

end CallerAuthenticator

end ToolLayer.Runtime
