import Mathlib.Data.List.TakeWhile
import ToolLayer.Contracts.CanonicalJson
import ToolLayer.Contracts.Patterns
import ToolLayer.Python.Base64
import ToolLayer.Python.Unicode

/-! Producer signatures over documents: key material, the key ring, signing and
verification. Ed25519 itself is a parameter. -/
namespace ToolLayer
open Python Kit Kit.Result

def signatureAlgorithm : Str := "ed25519"

/-- `SIGNATURE_EXCLUDED_FIELD`. -/
def signatureField : Str := "signature"

def keyBytes : Nat := 32

def signatureBytes : Nat := 64

/-- The raw keys are byte strings; `verify` takes the key, the message and the signature. -/
structure Ed25519 where
  publicKey : Bytes → Bytes
  sign : Bytes → Bytes → Bytes
  verify : Bytes → Bytes → Bytes → Bool

/-- A key's own signatures verify, and have their fixed size. -/
structure Ed25519.Correct (scheme : Ed25519) : Prop where
  verifies : ∀ seed message, scheme.verify (scheme.publicKey seed) message (scheme.sign seed message) = true
  sized : ∀ seed message, (scheme.sign seed message).length = signatureBytes

def invalidKeyMaterial (message : Str) : PyExc := .own (.invalidKeyMaterial message)

def signatureVerificationError (message : Str) : PyExc := .own (.signatureVerification message)

def b64uEncode (raw : Bytes) : Str := Str.rstrip (fun c => c == CodePoint.ofChar '=') (Base64.urlsafeEncode raw)

def b64uDecode (value : Str) (expectedLength : Nat) : Except PyExc Bytes := do
  refuse value.isEmpty (invalidKeyMaterial "expected a non-empty base64url string")
  match Base64.urlsafeDecode (value ++ Base64.padding value.length) with
  | none => throw (invalidKeyMaterial "the value is not valid base64url")
  | some raw =>
    refuse (decide (raw.length ≠ expectedLength)) (invalidKeyMaterial (Str.lit "expected " ++
      Decimal.natural expectedLength ++ Str.lit " bytes, got " ++ Decimal.natural raw.length))
    return raw

/-- `_KEY_ID_PATTERN.match`. -/
def isKeyId (keyId : Str) : Bool := Patterns.beforeFinalNewline Patterns.keyId keyId

structure VerifyingKey where
  keyId : Str
  public_ : Bytes
  named : isKeyId keyId = true
  deriving DecidableEq

structure SigningKey where
  keyId : Str
  private_ : Bytes
  named : isKeyId keyId = true

def requireKeyId (keyId : Str) : Except PyExc (PLift (isKeyId keyId = true)) :=
  if named : isKeyId keyId = true then .ok ⟨named⟩
  else .error (invalidKeyMaterial
    "a key id must be 2-64 characters of lowercase alphanumerics, '.', '_' or '-'")

def VerifyingKey.fromEncoded (keyId publicKey : Str) : Except PyExc VerifyingKey := do
  let raw ← b64uDecode publicKey keyBytes
  let named ← requireKeyId keyId
  return ⟨keyId,raw,named.down⟩

def SigningKey.fromEncoded (keyId privateKey : Str) : Except PyExc SigningKey := do
  let raw ← b64uDecode privateKey keyBytes
  let named ← requireKeyId keyId
  return ⟨keyId,raw,named.down⟩

/-- The keys a consumer accepts; no key id is listed twice. -/
structure TrustedKeyRing where
  keys : List VerifyingKey
  distinct : (keys.map VerifyingKey.keyId).Nodup

def TrustedKeyRing.empty : TrustedKeyRing := ⟨[],List.nodup_nil⟩

def TrustedKeyRing.find (ring : TrustedKeyRing) (keyId : Str) : Option VerifyingKey :=
  ring.keys.find? (fun key => key.keyId == keyId)

theorem TrustedKeyRing.find_of_mem {ring : TrustedKeyRing} {key : VerifyingKey} (member : key ∈ ring.keys) :
    ring.find key.keyId = some key := by
  have found : (ring.find key.keyId).isSome = true := by
    rw [find,List.find?_isSome]
    exact ⟨key,member,by simp⟩
  obtain ⟨other,same⟩ := Option.isSome_iff_exists.mp found
  have named : other.keyId = key.keyId := by simpa using List.find?_some same
  have inside : other ∈ ring.keys := List.mem_of_find?_eq_some same
  rw [same,List.inj_on_of_nodup_map ring.distinct inside member named]

theorem TrustedKeyRing.mem_of_find {ring : TrustedKeyRing} {keyId : Str} {key : VerifyingKey}
    (found : ring.find keyId = some key) : key ∈ ring.keys ∧ key.keyId = keyId :=
  ⟨List.mem_of_find?_eq_some found,by simpa using List.find?_some found⟩

/-- The document as it is signed: everything but the signature. -/
def unsigned (document : Dict) : Dict := Dict.without document [signatureField]

def signingInput (document : Dict) : Except PyExc Bytes := canonicalBytes (.dict (unsigned document))

variable (scheme : Ed25519)

def SigningKey.verifyingKey (key : SigningKey) : VerifyingKey := ⟨key.keyId,scheme.publicKey key.private_,key.named⟩

def VerifyingKey.verify (key : VerifyingKey) (message signature : Bytes) : Bool :=
  decide (signature.length = signatureBytes) && scheme.verify key.public_ message signature

def signDocument (document : Dict) (key : SigningKey) : Except PyExc Value := do
  let message ← signingInput document
  return .dict [("algorithm",.str signatureAlgorithm),("key_id",.str key.keyId),
    ("value",.str (b64uEncode (scheme.sign key.private_ message)))]

/-- `verify_document` once the block is known to be an object. -/
def verifyBlock [Unicode] (document block : Dict) (ring : TrustedKeyRing) : Except PyExc Str := do
  refuse (!Value.pyEq (Dict.get block "algorithm") (.str signatureAlgorithm))
    (signatureVerificationError (Str.lit "the signature algorithm is not supported; expected " ++ signatureAlgorithm.repr))
  match Dict.get block "key_id" with
  | .str (c::rest) => do
    refuse ring.keys.isEmpty (signatureVerificationError "this consumer has no trusted signing keys configured")
    match ring.find (c::rest) with
    | none => throw (signatureVerificationError
        (Str.lit "the signing key " ++ Str.repr (c::rest) ++ Str.lit " is not trusted here"))
    | some key =>
      match Dict.get block "value" with
      | .str value =>
        match b64uDecode value signatureBytes with
        | .error (.own (.invalidKeyMaterial _)) => throw (signatureVerificationError "the signature value is malformed")
        | .error e => throw e
        | .ok signature => do
          let message ← signingInput document
          refuse (!key.verify scheme message signature)
            (signatureVerificationError "the signature does not verify for this document")
          return key.keyId
      | _ => throw (signatureVerificationError "the signature value is missing")
  | _ => throw (signatureVerificationError "the signature names no key id")

def verifyDocument [Unicode] (document : Dict) (ring : TrustedKeyRing) : Except PyExc Str :=
  match Dict.get document signatureField with
  | .null => .error (signatureVerificationError "the document carries no producer signature")
  | .dict block => verifyBlock scheme document block ring
  | _ => .error (signatureVerificationError "the signature block is not an object")

/-- A block that names a key of the ring, and that key's signature over the document. -/
structure Vouches [Unicode] (document block : Dict) (ring : TrustedKeyRing) (key : VerifyingKey) (signature : Bytes) :
    Prop where
  algorithm : Value.pyEq (Dict.get block "algorithm") (.str signatureAlgorithm) = true
  named : Dict.get block "key_id" = .str key.keyId
  trusted : key ∈ ring.keys
  exists_value : ∃ value, Dict.get block "value" = .str value ∧ b64uDecode value signatureBytes = .ok signature
  exists_message : ∃ message, signingInput document = .ok message ∧ key.verify scheme message signature = true

omit scheme in
theorem VerifyingKey.keyId_ne_nil (key : VerifyingKey) : key.keyId ≠ [] := by
  intro empty
  have named := key.named
  rw [empty] at named
  exact absurd named (by decide)

theorem verifyBlock_eq_ok [Unicode] {document block : Dict} {ring : TrustedKeyRing} {keyId : Str} :
    verifyBlock scheme document block ring = .ok keyId ↔
      ∃ key signature, key.keyId = keyId ∧ Vouches scheme document block ring key signature := by
  constructor
  · intro accepted
    unfold verifyBlock at accepted
    obtain ⟨algorithm,accepted⟩ := refuse_bind_eq_ok.mp accepted
    split at accepted
    next c rest named =>
      obtain ⟨_,accepted⟩ := refuse_bind_eq_ok.mp accepted
      split at accepted
      next => cases accepted
      next key found =>
        split at accepted
        next value present =>
          split at accepted
          next => cases accepted
          next => cases accepted
          next signature decoded =>
            obtain ⟨message,input,accepted⟩ := bind_eq_ok.mp accepted
            obtain ⟨verified,accepted⟩ := refuse_bind_eq_ok.mp accepted
            cases accepted
            obtain ⟨trusted,same⟩ := TrustedKeyRing.mem_of_find found
            exact ⟨key,signature,rfl,by simpa using algorithm,same ▸ named,trusted,⟨value,present,decoded⟩,message,input,
              by simpa using verified⟩
        next => cases accepted
    next => cases accepted
  · rintro ⟨key,signature,rfl,vouches⟩
    obtain ⟨value,present,decoded⟩ := vouches.exists_value
    obtain ⟨message,input,verified⟩ := vouches.exists_message
    obtain ⟨c,rest,spelled⟩ := List.exists_cons_of_ne_nil key.keyId_ne_nil
    have filled : ring.keys.isEmpty = false := by
      cases keys : ring.keys with
      | nil => exact absurd vouches.trusted (by simp [keys])
      | cons => rfl
    have found := TrustedKeyRing.find_of_mem vouches.trusted
    have named := vouches.named
    rw [spelled] at found named
    unfold verifyBlock
    rw [vouches.algorithm,named]
    simp only [Bool.not_true,refuse_false,ok_bind,filled,found,present,decoded,input,verified]
    rfl

theorem verifyDocument_eq_ok [Unicode] {document : Dict} {ring : TrustedKeyRing} {keyId : Str} :
    verifyDocument scheme document ring = .ok keyId ↔
      ∃ block, Dict.get document signatureField = .dict block ∧ verifyBlock scheme document block ring = .ok keyId := by
  unfold verifyDocument
  split
  next absent => simp [absent]
  next block present => simp [present]
  next other => simp_all

/-- Two documents with the same signing input are the same but for their signatures. -/
theorem signingInput_inj {document other : Dict} {message : Bytes} (first : signingInput document = .ok message)
    (second : signingInput other = .ok message) : Value.Same (.dict (unsigned document)) (.dict (unsigned other)) :=
  canonicalBytes_inj first second

theorem b64uEncode_eq_digits (raw : Bytes) : b64uEncode raw = Base64.digits raw := by
  have pads : ∀ n : Nat, (List.replicate n (CodePoint.ofChar '=')).all (fun c => c == CodePoint.ofChar '=') = true := by
    simp
  have clean : (Base64.digits raw).reverse.dropWhile (fun c => c == CodePoint.ofChar '=') = (Base64.digits raw).reverse := by
    rw [List.dropWhile_eq_self_iff]
    intro bound
    have member := List.mem_reverse.mp (List.getElem_mem bound)
    have safe := Base64.isUrlsafe_of_mem_digits raw _ member
    intro same
    rw [beq_iff_eq.mp same] at safe
    exact absurd safe (by decide)
  rw [b64uEncode,Str.rstrip,Base64.urlsafeEncode,List.reverse_append,List.dropWhile_append]
  simp only [Base64.padding,List.reverse_replicate]
  rw [if_pos (by simp),clean,List.reverse_reverse]

theorem b64uDecode_encode {raw : Bytes} (some_ : raw ≠ []) : b64uDecode (b64uEncode raw) raw.length = .ok raw := by
  have ascii : ∀ c ∈ Base64.digits raw, c.isAscii = true := by
    intro c member
    have safe := Base64.isUrlsafe_of_mem_digits raw c member
    revert safe
    simp only [Base64.isUrlsafe,CodePoint.isAlnum,CodePoint.isAlpha,CodePoint.isUpper,CodePoint.isLower,
      CodePoint.isDigit,CodePoint.between,CodePoint.isAscii,Bool.or_eq_true,Bool.and_eq_true,decide_eq_true_eq,
      beq_iff_eq]
    rintro ((((⟨_,h⟩ | ⟨_,h⟩) | ⟨_,h⟩) | rfl) | rfl)
    all_goals first | omega | decide
  have padded : (Base64.digits raw ++ Base64.padding (Base64.digits raw).length).all CodePoint.isAscii = true := by
    rw [List.all_append,Bool.and_eq_true,List.all_eq_true]
    refine ⟨ascii,?_⟩
    simp [Base64.padding,CodePoint.isAscii]
  have filled : (Base64.digits raw).isEmpty = false := by
    have grown := Base64.length_digits raw
    have positive : 0 < raw.length := List.length_pos_iff.mpr some_
    cases digits : Base64.digits raw with
    | nil =>
      rw [digits,List.length_nil] at grown
      omega
    | cons c rest => rfl
  rw [b64uEncode_eq_digits,b64uDecode,filled]
  simp [Base64.urlsafeDecode,padded,Base64.scan_digits]

end ToolLayer
