import ToolLayer.Runtime.Snapshot

/-! Fetching snapshots from the control plane, and the store that holds the current one. -/
namespace ToolLayer.Runtime
open Python Kit Kit.Result

structure HttpRequest where
  url : Str
  headers : List (Str × Str)
  deriving DecidableEq

structure Response where
  status : Nat
  etag : Option Str
  content : Bytes

/-- What a request comes to: an `httpx.HTTPError`, or some response. -/
inductive Answer where
  | httpError
  | response (r : Response)

structure SnapshotClient where
  baseUrl : Str
  serviceToken : Str
  verification : SnapshotVerification

def SnapshotClient.new (baseUrl serviceToken : Str) (verification : SnapshotVerification) : SnapshotClient :=
  ⟨Str.rstrip (fun c => c == CodePoint.ofChar '/') baseUrl,serviceToken,verification⟩

def SnapshotClient.request (client : SnapshotClient) (deploymentKey : Str) (ifNoneMatch : Option Str) : HttpRequest :=
  let token : Str × Str := ("x-toollayer-service-token",client.serviceToken)
  let condition : List (Str × Str) := match ifNoneMatch with
    | some (c::rest) => [("if-none-match",c::rest)]
    | _ => []
  ⟨client.baseUrl ++ Str.lit "/internal/v1/deployments/" ++ deploymentKey ++ Str.lit "/snapshot",token::condition⟩

/-- The parts of the surroundings a load depends on: the signature scheme, the schema
library, and `response.json()`, where `none` is a `ValueError`. -/
structure Surroundings where
  scheme : Ed25519
  engine : SchemaEngine
  json : Bytes → Option Value

variable [Pydantic] [Unicode] (world : Surroundings)

def SnapshotClient.load (client : SnapshotClient) (r : Response) (now : Rat) : Except PyExc LoadedSnapshot :=
  match world.json r.content with
  | none => .error .valueError
  | some document => loadSnapshotDocument world.scheme world.engine client.verification document r.etag now

/-- `fetch`; nothing is returned for a snapshot that is unchanged. -/
def SnapshotClient.fetch (client : SnapshotClient) (get : HttpRequest → Answer) (deploymentKey : Str)
    (ifNoneMatch : Option Str) (now : Rat) : Except PyExc (Option LoadedSnapshot) :=
  match get (client.request deploymentKey ifNoneMatch) with
  | .httpError => .error (snapshotError "the control plane could not be reached")
  | .response r =>
    if r.status = 304 then .ok none
    else if r.status = 404 then .error (snapshotError "the deployment has no snapshot to serve")
    else if r.status = 401 ∨ r.status = 403 then .error (toolLayerError .unauthenticated
      "the runtime is not authorized to read this deployment's snapshot")
    else if 400 ≤ r.status then .error (snapshotError "the control plane rejected the snapshot request")
    else (client.load world r now).map some

structure SnapshotStore where
  client : SnapshotClient
  deploymentKey : Str
  refreshSeconds : Nat
  current : Option LoadedSnapshot

/-- `SnapshotStore(client, deployment_key=…, refresh_seconds=…)`. -/
def SnapshotStore.new (client : SnapshotClient) (deploymentKey : Str) (refreshSeconds : Int) : SnapshotStore :=
  ⟨client,deploymentKey,(max refreshSeconds 1).toNat,none⟩

def SnapshotStore.held (store : SnapshotStore) : Except PyExc LoadedSnapshot :=
  match store.current with
  | some snapshot => .ok snapshot
  | none => .error (snapshotError "the runtime has no deployment snapshot; it cannot serve any tool")

def SnapshotStore.install (store : SnapshotStore) (snapshot : LoadedSnapshot) : SnapshotStore :=
  { store with current := some snapshot }

/-- What `refresh` returns or raises, and the store after it. -/
def SnapshotStore.refresh (store : SnapshotStore) (get : HttpRequest → Answer) (now : Rat) :
    Except PyExc LoadedSnapshot × SnapshotStore :=
  match store.client.fetch world get store.deploymentKey (store.current.bind LoadedSnapshot.etag) now with
  | .error e =>
    match e.toolLayer?,store.current with
    | some _,some existing => (.ok existing,store)
    | _,_ => (.error e,store)
  | .ok none =>
    match store.current with
    | some existing =>
      let refreshed := { existing with loadedAt := now }
      (.ok refreshed,store.install refreshed)
    -- A 304 without a prior ETag.
    | none => (.error .assertionError,store)
  | .ok (some fetched) => (.ok fetched,store.install fetched)

/-- `ensure_fresh`, which reads the clock at `now` and, if it refreshes, again at `later`. -/
def SnapshotStore.ensureFresh (store : SnapshotStore) (get : HttpRequest → Answer) (now later : Rat) :
    Except PyExc LoadedSnapshot × SnapshotStore :=
  match store.current with
  | some snapshot =>
    if now - snapshot.loadedAt < store.refreshSeconds then (.ok snapshot,store) else store.refresh world get later
  | none => store.refresh world get later

/-- An answer that carries a document. -/
def Response.serves (r : Response) : Bool := decide (r.status ≠ 304) && decide (r.status < 400)

section Fetch

variable {world} {client : SnapshotClient} {get : HttpRequest → Answer} {deploymentKey : Str} {etag : Option Str}
  {now : Rat} {r : Response}

theorem fetch_httpError (failed : get (client.request deploymentKey etag) = .httpError) :
    client.fetch world get deploymentKey etag now = .error (snapshotError "the control plane could not be reached") := by
  rw [SnapshotClient.fetch,failed]

theorem fetch_unchanged (answered : get (client.request deploymentKey etag) = .response r) (unchanged : r.status = 304) :
    client.fetch world get deploymentKey etag now = .ok none := by
  simp only [SnapshotClient.fetch,answered,unchanged,if_true]

theorem fetch_refused (answered : get (client.request deploymentKey etag) = .response r) (refused : 400 ≤ r.status) :
    ∃ e, client.fetch world get deploymentKey etag now = .error (.own (.toolLayer e)) := by
  simp only [SnapshotClient.fetch,answered]
  rw [if_neg (by omega)]
  split
  · exact ⟨_,rfl⟩
  · split
    · exact ⟨_,rfl⟩
    · exact ⟨_,rfl⟩

theorem fetch_serves (answered : get (client.request deploymentKey etag) = .response r) (serves : r.serves = true) :
    client.fetch world get deploymentKey etag now = (client.load world r now).map some := by
  simp only [Response.serves,Bool.and_eq_true,decide_eq_true_eq] at serves
  simp only [SnapshotClient.fetch,answered]
  rw [if_neg serves.1,if_neg (by omega),if_neg (by omega),if_neg (by omega)]

/-- Only a served document that loads is ever fetched. -/
theorem fetch_eq_ok_some {fetched : LoadedSnapshot} (done : client.fetch world get deploymentKey etag now = .ok (some fetched)) :
    ∃ r, get (client.request deploymentKey etag) = .response r ∧ r.serves = true ∧
      client.load world r now = .ok fetched := by
  cases answered : get (client.request deploymentKey etag) with
  | httpError =>
    rw [fetch_httpError answered] at done
    cases done
  | response r =>
    cases serves : r.serves with
    | true =>
      rw [fetch_serves answered serves] at done
      obtain ⟨loaded,load,same⟩ := map_eq_ok.mp done
      cases same
      exact ⟨r,rfl,serves,load⟩
    | false =>
      simp only [Response.serves,Bool.and_eq_false_iff,decide_eq_false_iff_not,not_not,Nat.not_lt] at serves
      rcases serves with unchanged | refused
      · rw [fetch_unchanged answered unchanged] at done
        cases done
      · obtain ⟨e,failed⟩ := @fetch_refused _ _ world client get deploymentKey etag now r answered refused
        rw [failed] at done
        cases done

end Fetch

section Store

variable {world} {store : SnapshotStore} {get : HttpRequest → Answer} {now later : Rat}

/-- What the network answers the store's next request. -/
def SnapshotStore.answer (store : SnapshotStore) (get : HttpRequest → Answer) : Answer :=
  get (store.client.request store.deploymentKey (store.current.bind LoadedSnapshot.etag))

/-- A refresh leaves the held snapshot, marks it fresh, or installs the one it loaded. -/
theorem refresh_cases (world : Surroundings) (store : SnapshotStore) (get : HttpRequest → Answer) (now : Rat) :
    (store.refresh world get now).2 = store ∨
    (∃ existing, store.current = some existing ∧
      (store.refresh world get now).2 = store.install { existing with loadedAt := now }) ∨
    ∃ r fetched, store.answer get = .response r ∧ r.serves = true ∧ store.client.load world r now = .ok fetched ∧
      (store.refresh world get now).2 = store.install fetched := by
  cases outcome : store.client.fetch world get store.deploymentKey (store.current.bind LoadedSnapshot.etag) now with
  | error e =>
    refine Or.inl ?_
    simp only [SnapshotStore.refresh,outcome]
    split <;> rfl
  | ok result =>
    cases result with
    | none =>
      cases held : store.current with
      | none =>
        rw [held] at outcome
        exact Or.inl (by simp only [SnapshotStore.refresh,held,outcome])
      | some existing =>
        rw [held] at outcome
        exact Or.inr (Or.inl ⟨existing,rfl,by simp only [SnapshotStore.refresh,held,outcome]⟩)
    | some fetched =>
      obtain ⟨r,answered,serves,loaded⟩ := fetch_eq_ok_some outcome
      exact Or.inr (Or.inr ⟨r,fetched,answered,serves,loaded,by simp only [SnapshotStore.refresh,outcome]⟩)

/-- A fresh snapshot is served without a request. -/
theorem ensureFresh_cases (world : Surroundings) (store : SnapshotStore) (get : HttpRequest → Answer) (now later : Rat) :
    (∃ held, store.current = some held ∧ store.ensureFresh world get now later = (.ok held,store)) ∨
      store.ensureFresh world get now later = store.refresh world get later := by
  cases held : store.current with
  | none => exact Or.inr (by simp only [SnapshotStore.ensureFresh,held])
  | some snapshot =>
    by_cases fresh : now - snapshot.loadedAt < store.refreshSeconds
    · exact Or.inl ⟨snapshot,rfl,by simp only [SnapshotStore.ensureFresh,held,if_pos fresh]⟩
    · exact Or.inr (by simp only [SnapshotStore.ensureFresh,held,if_neg fresh])

end Store

end ToolLayer.Runtime
