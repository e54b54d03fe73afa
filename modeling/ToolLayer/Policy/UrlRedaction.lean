import ToolLayer.Contracts.Errors
import ToolLayer.Policy.Redaction
import ToolLayer.Python.FormData
import ToolLayer.Python.UrlSplit

/-! What a log line may show of a URL: neither credentials nor the values of sensitive parameters. -/
namespace ToolLayer.Policy
open Python Kit Kit.Result

/-- `REDACTED`, as text. -/
def redactedText : Str := "[redacted]"

/-- `_SENSITIVE_QUERY`. -/
def sensitiveQuery : List Str := ["access_token","api_key","apikey","code","id_token","password","secret","token"]

/-- `parsed.username or parsed.password`. -/
def hasUserinfo (netloc : Str) : Bool :=
  (Url.userinfo netloc).1.any (fun name => !name.isEmpty) || (Url.userinfo netloc).2.any (fun password => !password.isEmpty)

section Redaction

variable [Unicode]

def isSensitiveParameter (name : Str) : Bool := sensitiveQuery.contains (Unicode.lower name) || isSensitive name

/-- A parameter as it is written back. -/
def redactPair (pair : Str × Str) : Str × Str :=
  (pair.1,if isSensitiveParameter pair.1 then redactedText else pair.2)

/-- The host, what stands for credentials, and a port that is not zero. -/
def redactNetloc (netloc : Str) : Except PyExc Str := do
  let host := (Url.hostname netloc).getD []
  let netloc' := if hasUserinfo netloc then redactedText ++ CodePoint.ofChar '@' :: host else host
  match Url.port netloc with
  | none => throw .valueError
  | some none => return netloc'
  | some (some port) => return if port = 0 then netloc' else netloc' ++ CodePoint.ofChar ':' :: Decimal.natural port

def redactUrl (url : Str) : Except PyExc Str :=
  match (Url.urlsplit url : Except PyExc Url.SplitResult) with
  | .error .valueError => .ok redactedText
  | .error e => .error e
  | .ok parsed => do
    let netloc ← redactNetloc parsed.netloc
    let query ← Url.urlencode ((Url.parseQsl parsed.query).map redactPair)
    return Url.urlunsplit ⟨parsed.scheme,netloc,parsed.path,query,[]⟩

/-- Two URLs that differ in nothing but credentials, the values of sensitive parameters, and the
fragment. -/
structure SameButSecrets (url other : Str) : Prop where
  splits : Url.splittable url = Url.splittable other
  scheme : (Url.components url).scheme = (Url.components other).scheme
  location : Url.hostAndPort (Url.components url).netloc = Url.hostAndPort (Url.components other).netloc
  credentials : hasUserinfo (Url.components url).netloc = hasUserinfo (Url.components other).netloc
  path : (Url.components url).path = (Url.components other).path
  parameters : List.Forall₂ (fun p q : Str × Str => p.1 = q.1 ∧ (isSensitiveParameter p.1 = false → p.2 = q.2))
    (Url.parseQsl (Url.components url).query) (Url.parseQsl (Url.components other).query)

/-- A URL is redacted: there is a result, it is the same for every URL with other secrets, and behind its
first question mark all parameters come in order, each that is not sensitive with its value. -/
structure RedactsUrl (url : Str) : Prop where
  returns : ∃ out, redactUrl url = .ok out
  hides : ∀ other, SameButSecrets url other → redactUrl other = redactUrl url
  keeps : ∀ out, redactUrl url = .ok out → Url.splittable url = true →
    Url.parseQsl (Str.partition (CodePoint.ofChar '?') out).2.2 = (Url.parseQsl (Url.components url).query).map redactPair

variable {url other out : Str}

theorem redactUrl_unsplit (refused : Url.splittable url = false) : redactUrl url = .ok redactedText := by
  rw [redactUrl,Url.urlsplit,refused]
  rfl

theorem redactUrl_split (splits : Url.splittable url = true) : redactUrl url = (do
    let netloc ← redactNetloc (Url.components url).netloc
    let query ← Url.urlencode ((Url.parseQsl (Url.components url).query).map redactPair)
    return Url.urlunsplit ⟨(Url.components url).scheme,netloc,(Url.components url).path,query,[]⟩) := by
  rw [redactUrl,Url.urlsplit,splits]
  rfl

/-- Host and port are read behind the credentials. -/
theorem redactNetloc_congr {netloc netloc' : Str} (location : Url.hostAndPort netloc = Url.hostAndPort netloc')
    (credentials : hasUserinfo netloc = hasUserinfo netloc') : redactNetloc netloc = redactNetloc netloc' := by
  have info : Url.hostinfo netloc = Url.hostinfo netloc' := by rw [Url.hostinfo,Url.hostinfo,location]
  rw [redactNetloc,redactNetloc,Url.hostname,Url.hostname,Url.port,Url.port,info,credentials]

theorem redactUrl_congr (same : SameButSecrets url other) : redactUrl other = redactUrl url := by
  cases splits : Url.splittable url with
  | false => rw [redactUrl_unsplit splits,redactUrl_unsplit (same.splits.symm.trans splits)]
  | true =>
    have pairs : (Url.parseQsl (Url.components url).query).map redactPair =
        (Url.parseQsl (Url.components other).query).map redactPair := by
      have all := same.parameters
      clear same splits
      generalize Url.parseQsl (Url.components url).query = mine at all ⊢
      generalize Url.parseQsl (Url.components other).query = theirs at all ⊢
      induction all with
      | nil => rfl
      | cons first _ ih =>
        obtain ⟨name,value⟩ := first
        rw [List.map_cons,List.map_cons,ih,redactPair,redactPair,← name]
        split
        next => rfl
        next plain => rw [value (by simpa using plain)]
    rw [redactUrl_split splits,redactUrl_split (same.splits.symm.trans splits),same.scheme,same.path,pairs,
      redactNetloc_congr same.location same.credentials]

/-- Only a port that is none, or too large, is in the way. -/
theorem redactNetloc_ends {netloc : Str} : (∃ out, redactNetloc netloc = .ok out) ↔ Url.port netloc ≠ none := by
  rw [redactNetloc]
  cases Url.port netloc with
  | none => exact ⟨fun ⟨_,raised⟩ => (nomatch raised),fun other => absurd rfl other⟩
  | some port =>
    cases port with
    | none => exact ⟨fun _ => Option.some_ne_none _,fun _ => ⟨_,rfl⟩⟩
    | some n => exact ⟨fun _ => Option.some_ne_none _,fun _ => ⟨_,rfl⟩⟩

section Questions

/-- The delimiter of a query. -/
def question : CodePoint := CodePoint.ofChar '?'

omit [Unicode] in
theorem question_components (url : Str) : question ∉ (Url.components url).scheme ∧ question ∉ (Url.components url).netloc ∧
    question ∉ (Url.components url).path := by
  refine ⟨?_,?_,?_⟩
  · unfold Url.components
    dsimp only
    unfold Url.splitScheme
    split
    next c rest after split =>
      split
      next letters =>
        intro member
        rw [Bool.and_eq_true,List.all_eq_true] at letters
        obtain ⟨d,inside,lowered⟩ := List.mem_map.mp member
        have point : Url.schemePoint d = true := by
          rcases List.mem_cons.mp inside with rfl | later
          · rw [Url.schemePoint,CodePoint.isAlnum,letters.1]
            rfl
          · exact letters.2 d later
        rw [CodePoint.eq_of_asciiLower lowered (by decide)] at point
        exact absurd point (by decide)
      next => exact List.not_mem_nil
    next => exact List.not_mem_nil
  · unfold Url.components
    dsimp only
    unfold Url.splitNetloc
    split
    next a b rest _ =>
      split
      next =>
        intro member
        have all := List.all_takeWhile (p := fun c => !Url.endsNetloc c) (l := rest)
        exact absurd (List.all_eq_true.mp all _ member) (by decide)
      next => exact List.not_mem_nil
    next => exact List.not_mem_nil
  · exact Str.not_mem_partition _ _

omit [Unicode] in
theorem mem_of_hostAndPort {netloc : Str} {c : CodePoint} (member : c ∈ Url.hostAndPort netloc) : c ∈ netloc :=
  Str.mem_of_rpartition _ _ member

omit [Unicode] in
theorem mem_of_hostinfo {netloc : Str} {c : CodePoint} (member : c ∈ (Url.hostinfo netloc).1) : c ∈ netloc := by
  apply mem_of_hostAndPort
  unfold Url.hostinfo at member
  dsimp only at member
  split at member
  next before bracketed split =>
    have inside := Str.mem_of_partition _ _ (Or.inl member)
    exact Str.mem_of_partition (CodePoint.ofChar '[') _ (Or.inr (by rw [split]; exact inside))
  next whole after split =>
    have inside := Str.mem_of_partition _ _ (Or.inl member)
    exact Str.mem_of_partition (CodePoint.ofChar '[') _ (Or.inl (by rw [split]; exact inside))

theorem question_hostname {netloc : Str} (clean : question ∉ netloc) : question ∉ (Url.hostname netloc).getD [] := by
  unfold Url.hostname
  split
  next => exact List.not_mem_nil
  next c rest host =>
    dsimp only
    intro member
    have inside : question ∈ c::rest := by
      rcases List.mem_append.mp member with name | zone
      · have original := Unicode.lower_mark _ _ name (by decide) (by decide)
        exact Str.mem_of_partition _ _ (Or.inl original)
      · split at zone
        next =>
          rcases List.mem_cons.mp zone with mark | later
          · exact absurd mark (by decide)
          · exact Str.mem_of_partition _ _ (Or.inr later)
        next => cases zone
    rw [← host] at inside
    exact clean (mem_of_hostinfo inside)

theorem question_redactNetloc {netloc out : Str} (clean : question ∉ netloc) (redacted : redactNetloc netloc = .ok out) :
    question ∉ out := by
  have host := question_hostname clean
  have front : question ∉ (if hasUserinfo netloc then redactedText ++ CodePoint.ofChar '@' :: (Url.hostname netloc).getD []
      else (Url.hostname netloc).getD []) := by
    split
    next =>
      rw [List.mem_append,List.mem_cons,not_or,not_or]
      exact ⟨by decide,by decide,host⟩
    next => exact host
  rw [redactNetloc] at redacted
  cases port : Url.port netloc with
  | none =>
    rw [port] at redacted
    cases redacted
  | some found =>
    rw [port] at redacted
    cases found with
    | none =>
      cases redacted
      exact front
    | some n =>
      cases redacted
      split
      next => exact front
      next =>
        rw [List.mem_append,List.mem_cons,not_or,not_or]
        refine ⟨front,by decide,fun digit => ?_⟩
        exact absurd (Decimal.isDigit_of_mem_natural digit) (by decide)

omit [Unicode] in
theorem question_hierarchical {scheme netloc path : Str} (first : question ∉ netloc) (second : question ∉ path) :
    question ∉ Url.hierarchical scheme netloc path := by
  have slashes : question ∉ Str.lit "//" := by decide
  unfold Url.hierarchical
  split
  next =>
    rw [List.mem_append,List.mem_append,not_or,not_or]
    refine ⟨⟨slashes,first⟩,?_⟩
    split
    next => exact second
    next =>
      rw [List.mem_cons,not_or]
      exact ⟨by decide,second⟩
  next =>
    split
    next => exact fun member => (List.mem_append.mp member).elim slashes second
    next =>
      split
      next => exact fun member => (List.mem_append.mp member).elim slashes second
      next => exact second

omit [Unicode] in
/-- The query stands behind the first question mark of what is put together. -/
theorem partition_urlunsplit {parts : Url.SplitResult} (plain : parts.fragment = []) (scheme : question ∉ parts.scheme)
    (netloc : question ∉ parts.netloc) (path : question ∉ parts.path) :
    (Str.partition question (Url.urlunsplit parts)).2.2 = parts.query := by
  have front : question ∉ (if parts.scheme.isEmpty then [] else parts.scheme ++ [CodePoint.ofChar ':']) ++
      Url.hierarchical parts.scheme parts.netloc parts.path := by
    rw [List.mem_append,not_or]
    refine ⟨?_,question_hierarchical netloc path⟩
    split
    next => exact List.not_mem_nil
    next =>
      rw [List.mem_append,not_or]
      exact ⟨scheme,by decide⟩
  rw [Url.urlunsplit,plain,List.isEmpty_nil,if_pos rfl,List.append_nil]
  cases shape : parts.query with
  | nil =>
    rw [List.isEmpty_nil,if_pos rfl,List.append_nil,Str.partition_absent front]
  | cons c rest =>
    rw [List.isEmpty_cons,if_neg Bool.false_ne_true]
    exact congrArg (fun split => split.2.2) (Str.partition_append front (c::rest))

end Questions

/-- A URL is redacted exactly if it cannot be split, or has no port but a valid one and no lone surrogate
in a parameter that is written back. -/
theorem redactsUrl_iff (url : Str) : RedactsUrl url ↔ (Url.splittable url = true →
    Url.port (Url.components url).netloc ≠ none ∧
    ∀ pair ∈ Url.parseQsl (Url.components url).query,
      pair.1.scalar = true ∧ (isSensitiveParameter pair.1 = false → pair.2.scalar = true)) := by
  have written : ∀ pair : Str × Str, ((redactPair pair).1.scalar = true ∧ (redactPair pair).2.scalar = true) ↔
      (pair.1.scalar = true ∧ (isSensitiveParameter pair.1 = false → pair.2.scalar = true)) := by
    intro pair
    rw [redactPair]
    cases isSensitiveParameter pair.1 with
    | true =>
      have marker : Str.scalar redactedText = true := by decide
      exact and_congr_right (fun _ => ⟨fun _ other => (nomatch other),fun _ => marker⟩)
    | false => exact and_congr_right (fun _ => ⟨fun plain _ => plain,fun plain => plain rfl⟩)
  constructor
  · intro redacts splits
    obtain ⟨out,done⟩ := redacts.returns
    rw [redactUrl_split splits] at done
    obtain ⟨netloc,located,done⟩ := bind_eq_ok.mp done
    obtain ⟨query,encoded,_⟩ := bind_eq_ok.mp done
    refine ⟨redactNetloc_ends.mp ⟨netloc,located⟩,fun pair member => ?_⟩
    exact (written pair).mp (Url.urlencode_ends.mp ⟨query,encoded⟩ _ (List.mem_map_of_mem member))
  · intro sound
    refine ⟨?_,fun other => redactUrl_congr,?_⟩
    · cases splits : Url.splittable url with
      | false => exact ⟨_,redactUrl_unsplit splits⟩
      | true =>
        obtain ⟨port,plain⟩ := sound splits
        obtain ⟨netloc,located⟩ := redactNetloc_ends.mpr port
        have all : ∀ pair ∈ (Url.parseQsl (Url.components url).query).map redactPair,
            pair.1.scalar = true ∧ pair.2.scalar = true := by
          intro pair member
          obtain ⟨original,inside,rfl⟩ := List.mem_map.mp member
          exact (written original).mpr (plain original inside)
        obtain ⟨query,encoded⟩ := (Url.urlencode_ends (E := Failure)).mpr all
        exact ⟨_,by rw [redactUrl_split splits,located,ok_bind,encoded]; rfl⟩
    · intro out done splits
      rw [redactUrl_split splits] at done
      obtain ⟨netloc,located,done⟩ := bind_eq_ok.mp done
      obtain ⟨query,encoded,done⟩ := bind_eq_ok.mp done
      cases done
      obtain ⟨scheme,authority,path⟩ := question_components url
      have read := @partition_urlunsplit ⟨(Url.components url).scheme,netloc,(Url.components url).path,query,[]⟩ rfl
        scheme (question_redactNetloc authority located) path
      rw [← question,read]
      exact Url.parseQsl_urlencode encoded

end Redaction

section Port

local instance loggedTables : Unicode := Unicode.asciiOnly

/-- A port that is too large is only noticed when it is read, and that raises. -/
theorem large_port_raises : ¬ RedactsUrl (Str.lit "https://desk.test:99999/v1?page=2") := by
  intro redacts
  obtain ⟨out,done⟩ := redacts.returns
  have raised : redactUrl (Str.lit "https://desk.test:99999/v1?page=2") = .error .valueError := by decide +kernel
  cases raised.symm.trans done

end Port

end ToolLayer.Policy
