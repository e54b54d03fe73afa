import ToolLayer.Contracts.SchemaSubset
import ToolLayer.Runtime.Snapshot

/-! What a required signature says about a loaded document, under an ideal scheme. -/
namespace ToolLayer.Runtime
open Python Kit Kit.Result

/-- The scheme is ideal for the signing that took place: `signed key document signature`
when the holder of the public key signed the document and the signature came out. What
verifies was signed, and one signature is made over one message only. -/
structure IdealSignatures (scheme : Ed25519) (signed : Bytes → Dict → Bytes → Prop) : Prop where
  authentic : ∀ key message signature, scheme.verify key message signature = true →
    ∃ document, signed key document signature ∧ signingInput document = .ok message
  single : ∀ key document other signature, signed key document signature → signed key other signature →
    signingInput document = signingInput other

/-- A document with the signature a trusted key's holder made over it. -/
structure Genuine (signed : Bytes → Dict → Bytes → Prop) (ring : TrustedKeyRing) (document : Dict) : Prop where
  exists_key : ∃ key ∈ ring.keys, ∃ block value signature, Dict.get document signatureField = .dict block ∧
    Dict.get block "key_id" = .str key.keyId ∧ Dict.get block "value" = .str value ∧
    b64uDecode value signatureBytes = .ok signature ∧ signed key.public_ document signature ∧
    ∃ message, signingInput document = .ok message

/-- The same content, signature and key order aside. -/
def SameContent (a b : Dict) : Prop := Value.Same (.dict (unsigned a)) (.dict (unsigned b))

section Checks

variable [Unicode] {scheme : Ed25519} {ring : TrustedKeyRing} {document : Dict} {keyId : Option Str}

theorem check_required (checked : SnapshotVerification.check scheme ⟨.required,ring⟩ document = .ok keyId) :
    ∃ block key signature, Dict.get document signatureField = .dict block ∧
      Vouches scheme document block ring key signature := by
  obtain ⟨name,_,verified⟩ := authenticate_eq_ok.mp checked
  obtain ⟨block,present,accepted⟩ := (verifyDocument_eq_ok scheme).mp verified
  obtain ⟨key,signature,_,vouches⟩ := (verifyBlock_eq_ok scheme).mp accepted
  exact ⟨block,key,signature,present,vouches⟩

variable {signed : Bytes → Dict → Bytes → Prop} {block : Dict} {key : VerifyingKey} {signature : Bytes}

omit [Unicode] in
/-- A block vouches only for content its key's holder signed. -/
theorem signed_of_vouches [Unicode] (ideal : IdealSignatures scheme signed)
    (vouches : Vouches scheme document block ring key signature) :
    ∃ original, signed key.public_ original signature ∧ SameContent original document := by
  obtain ⟨message,input,verified⟩ := vouches.exists_message
  rw [VerifyingKey.verify,Bool.and_eq_true] at verified
  obtain ⟨original,signs,same⟩ := ideal.authentic key.public_ message signature verified.2
  exact ⟨original,signs,signingInput_inj same input⟩

/-- A genuine block vouches for no other content. -/
theorem sameContent_of_vouches {genuine : Dict} (ideal : IdealSignatures scheme signed)
    (true_ : Genuine signed ring genuine)
    (kept : Assoc.get signatureField document = Assoc.get signatureField genuine)
    (present : Dict.get document signatureField = .dict block)
    (vouches : Vouches scheme document block ring key signature) : SameContent document genuine := by
  obtain ⟨other,trusted,own,text,made,own_eq,named,valued,decoded,signs,message,input⟩ := true_.exists_key
  rw [Dict.get,kept,← Dict.get,own_eq] at present
  cases present
  obtain ⟨value,found,read⟩ := vouches.exists_value
  rw [valued] at found
  cases found
  have sameSignature : made = signature := Except.ok.inj (decoded.symm.trans read)
  rw [sameSignature] at signs
  have names : other.keyId = key.keyId := by
    have same := vouches.named
    rw [named] at same
    exact Value.str.inj same
  have same : other = key := List.inj_on_of_nodup_map ring.distinct trusted vouches.trusted names
  subst same
  obtain ⟨original,originalSigned,content⟩ := signed_of_vouches ideal vouches
  have inputs := ideal.single other.public_ original genuine signature originalSigned signs
  exact content.symm.trans (signingInput_inj (inputs.trans input) input)

end Checks

section Loading

variable [Pydantic] [Unicode] {scheme : Ed25519} {signed : Bytes → Dict → Bytes → Prop}

/-- In required mode only content that a trusted key's holder signed is loaded, with its
digest intact; a genuine signature block moved to other content is refused. -/
theorem load_authentic (engine : SchemaEngine) (ring : TrustedKeyRing) (ideal : IdealSignatures scheme signed) :
    (∀ value etag now loaded, loadSnapshotDocument scheme engine ⟨.required,ring⟩ value etag now = .ok loaded →
      ∃ document key original signature declared, value = .dict document ∧ key ∈ ring.keys ∧
        signed key.public_ original signature ∧ SameContent original document ∧
        Assoc.get (Str.lit "snapshot_digest") document = some (.str declared) ∧
        contentDigest document snapshotDigestExcluded = .ok declared) ∧
    ∀ genuine altered, Genuine signed ring genuine →
      Assoc.get signatureField altered = Assoc.get signatureField genuine → ¬ SameContent altered genuine →
      ∀ etag now, ∃ e, loadSnapshotDocument scheme engine ⟨.required,ring⟩ (.dict altered) etag now = .error e := by
  constructor
  · intro value etag now loaded done
    obtain ⟨document,rfl,accepted,_,_⟩ := loadSnapshotDocument_eq_ok.mp done
    obtain ⟨block,key,signature,_,vouches⟩ := check_required accepted.verified.authentic
    obtain ⟨original,signs,content⟩ := signed_of_vouches ideal vouches
    obtain ⟨declared,present,digest⟩ := accepted.verified.digest
    exact ⟨document,key,original,signature,declared,rfl,vouches.trusted,signs,content,present,digest⟩
  · intro genuine altered true_ kept different etag now
    cases outcome : loadSnapshotDocument scheme engine ⟨.required,ring⟩ (.dict altered) etag now with
    | error e => exact ⟨e,rfl⟩
    | ok loaded =>
      obtain ⟨document,same,accepted,_,_⟩ := loadSnapshotDocument_eq_ok.mp outcome
      cases same
      obtain ⟨block,key,signature,present,vouches⟩ := check_required accepted.verified.authentic
      exact absurd (sameContent_of_vouches ideal true_ kept present vouches) different

end Loading

section Desk

local instance deskUnicode : Unicode := Unicode.asciiOnly
local instance deskPydantic : Pydantic := Pydantic.exact

/-- The content of a snapshot that pins nothing. -/
def emptyContent (deploymentKey : Str) (revision : Int) : Dict :=
  [("contract_version",.str contractVersion),("deployment_key",.str deploymentKey),("revision",.int revision),
    ("created_at",.str "2026-08-06T01:00:00Z"),("connectors",.list [])]

def emptyDigest (deploymentKey : Str) (revision : Int) : Str :=
  match contentDigest (emptyContent deploymentKey revision) [] with
  | .ok digest => digest
  | .error _ => []

/-- A signature that only shows what it was made over. -/
def hashSignature (message : Bytes) : Bytes := (Sha256.hexdigest message).map (fun c => Utf8.byte c.val)

/-- The message is the signing input of one of the documents. -/
def covers (documents : List Dict) (message : Bytes) : Bool :=
  documents.any (fun d => match signingInput d with
    | .ok input => decide (input = message)
    | .error _ => false)

/-- A scheme under which these documents were ever signed. -/
def recorded (documents : List Dict) : Ed25519 where
  publicKey := id
  sign _ message := hashSignature message
  verify _ message signature := decide (signature = hashSignature message) && covers documents message

def Recorded (documents : List Dict) (_ : Bytes) (document : Dict) (signature : Bytes) : Prop :=
  document ∈ documents ∧ ∃ message, signingInput document = .ok message ∧ signature = hashSignature message

/-- The documents' signatures tell them apart. -/
def separate (documents : List Dict) : Bool :=
  documents.all (fun d => documents.all (fun e =>
    match signingInput d,signingInput e with
    | .ok m,.ok n => decide (hashSignature m ≠ hashSignature n) || decide (m = n)
    | _,_ => true))

theorem idealSignatures_recorded {documents : List Dict} (apart : separate documents = true) :
    IdealSignatures (recorded documents) (Recorded documents) where
  authentic key message signature verified := by
    simp only [recorded,covers,Bool.and_eq_true,decide_eq_true_eq,List.any_eq_true] at verified
    obtain ⟨rfl,document,member,matched⟩ := verified
    split at matched
    next input made =>
      rw [decide_eq_true_eq] at matched
      exact ⟨document,⟨member,message,matched ▸ made,rfl⟩,matched ▸ made⟩
    next => cases matched
  single key document other signature first second := by
    obtain ⟨member,m,made,rfl⟩ := first
    obtain ⟨present,n,input,same⟩ := second
    have both := List.all_eq_true.mp (List.all_eq_true.mp apart document member) other present
    simp only [made,input,Bool.or_eq_true,decide_eq_true_eq] at both
    rw [made,input,both.resolve_left (fun different => different same)]

def deskSigningKey : SigningKey := ⟨"desk-1",List.replicate keyBytes 0,by decide⟩

def deskRing : TrustedKeyRing := ⟨[deskSigningKey.verifyingKey (recorded [])],List.nodup_singleton _⟩

def emptySnapshot (deploymentKey : Str) (revision : Int) : Dict :=
  let identity : Dict := [("snapshot_id",.str (Str.lit "snap_" ++ List.replicate 32 (CodePoint.ofChar '0'))),
    ("snapshot_digest",.str (emptyDigest deploymentKey revision))]
  let document : Dict := emptyContent deploymentKey revision ++ identity
  match signDocument (recorded []) document deskSigningKey with
  | .ok block => document ++ [(signatureField,block)]
  | .error _ => document

def deskDocuments : List Dict := [emptySnapshot "desk" 1]

theorem emptySnapshot_loads : okWith (fun loaded : LoadedSnapshot => loaded.revision == 1)
    (loadSnapshotDocument (recorded deskDocuments) SchemaSubset.engine ⟨.required,deskRing⟩
      (.dict (emptySnapshot "desk" 1)) none 0) = true := by
  decide +kernel

theorem load_authentic_desk : ∃ document key original signature declared,
    Value.dict (emptySnapshot "desk" 1) = .dict document ∧ key ∈ deskRing.keys ∧
      Recorded deskDocuments key.public_ original signature ∧ SameContent original document ∧
      Assoc.get (Str.lit "snapshot_digest") document = some (.str declared) ∧
      contentDigest document snapshotDigestExcluded = .ok declared := by
  obtain ⟨loaded,done,_⟩ := exists_of_okWith emptySnapshot_loads
  have ideal : IdealSignatures (recorded deskDocuments) (Recorded deskDocuments) :=
    idealSignatures_recorded (by decide +kernel)
  exact (load_authentic SchemaSubset.engine deskRing ideal).1 _ none 0 loaded done

end Desk

end ToolLayer.Runtime
