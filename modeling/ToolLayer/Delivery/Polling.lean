import ToolLayer.ControlPlane.Issues
import ToolLayer.Delivery.Acceptance
import ToolLayer.Kit.Polling

/-! Runtimes that poll the Control Plane while it commits: every poll is a request that leaves,
an answer that is given, and an answer that arrives, with anything in between. -/
namespace ToolLayer.Delivery
open Python Kit Kit.Result ControlPlane ToolLayer.Runtime

def snapshotRoot (base : Str) : Str := base ++ Str.lit "/internal/v1/deployments/"

/-- The deployment a path of the internal API names; a key with a slash is on no route. -/
def deploymentOf (base url : Str) : Option Str :=
  let rest := url.drop (snapshotRoot base).length
  let key := rest.take (rest.length - (Str.lit "/snapshot").length)
  if Str.startsWith url (snapshotRoot base) && Str.endsWith rest (Str.lit "/snapshot") &&
      !decide (CodePoint.ofChar '/' ∈ key) then some key else none

/-- A Control Plane as a network knows it. -/
structure Server where
  base : Str
  serviceToken : Str
  requestId : Str

/-- What the Control Plane answers a request from the database as it is. -/
def Server.serve (server : Server) (db : Database) (request : HttpRequest) : Answer :=
  match deploymentOf server.base request.url with
  | none => .response ⟨404,none,[]⟩
  | some key =>
    let response := answerSnapshot server.serviceToken db key server.requestId
      (Assoc.get serviceHeader request.headers) (Assoc.get (Str.lit "if-none-match") request.headers)
    .response ⟨response.status,response.header "etag",response.body⟩

section Fleets

variable [Pydantic] [Unicode]

/-- A request that is on its way, or an answer with the database it was given from. -/
inductive PollPhase where
  | idle
  | asked (request : HttpRequest)
  | answered (answer : Answer) (seen : Database)

/-- A Runtime's store and its poll; its lock lets one refresh run at a time. -/
structure Poller where
  store : SnapshotStore
  phase : PollPhase

namespace Poller

/-- The request that `refresh` sends. -/
def ask (p : Poller) : Poller :=
  match p.phase with
  | .idle =>
    { p with phase := .asked (p.store.client.request p.store.deploymentKey (p.store.current.bind LoadedSnapshot.etag)) }
  | _ => p

def answer (server : Server) (db : Database) (p : Poller) : Poller :=
  match p.phase with
  | .asked request => { p with phase := .answered (server.serve db request) db }
  | _ => p

/-- The request or its answer is lost. -/
def lose (db : Database) (p : Poller) : Poller :=
  match p.phase with
  | .idle => p
  | _ => { p with phase := .answered .httpError db }

/-- The rest of `refresh`, once the answer is there. -/
def finish (world : Surroundings) (now : Rat) (p : Poller) : Poller :=
  match p.phase with
  | .answered answer _ => ⟨(p.store.refresh world (fun _ => answer) now).2,.idle⟩
  | _ => p

end Poller

/-- The Control Plane's database, and the Runtimes. -/
structure Fleet where
  db : Database
  pollers : Nat → Poller

inductive FleetEvent where
  | call (c : Call)
  | ask (i : Nat)
  | answer (i : Nat)
  | lose (i : Nat)
  | finish (i : Nat) (now : Rat)

namespace Fleet

def update (w : Fleet) (i : Nat) (f : Poller → Poller) : Fleet :=
  { w with pollers := Function.update w.pollers i (f (w.pollers i)) }

variable (setting : Setting) (world : Surroundings) (server : Server)

def step (w : Fleet) : FleetEvent → Fleet
  | .call c => { w with db := c.after setting w.db }
  | .ask i => w.update i Poller.ask
  | .answer i => w.update i (Poller.answer server w.db)
  | .lose i => w.update i (Poller.lose w.db)
  | .finish i now => w.update i (Poller.finish world now)

def run (w : Fleet) (events : List FleetEvent) : Fleet := events.foldl (step setting world server) w

end Fleet

section Serving

variable {server : Server} {client : SnapshotClient} {key : Str} {tag : Option Str}

omit [Pydantic] [Unicode] in
theorem deploymentOf_request (connected : client.baseUrl = server.base) : deploymentOf server.base (client.request key tag).url =
    if CodePoint.ofChar '/' ∈ key then none else some key := by
  have whole : (client.request key tag).url = snapshotRoot server.base ++ (key ++ Str.lit "/snapshot") := by
    change client.baseUrl ++ Str.lit "/internal/v1/deployments/" ++ key ++ Str.lit "/snapshot" = _
    rw [connected,snapshotRoot]
    simp only [List.append_assoc]
  have front : Str.startsWith (snapshotRoot server.base ++ (key ++ Str.lit "/snapshot")) (snapshotRoot server.base) = true :=
    List.isPrefixOf_iff_prefix.mpr (List.prefix_append _ _)
  have back : Str.endsWith (key ++ Str.lit "/snapshot") (Str.lit "/snapshot") = true :=
    List.isSuffixOf_iff_suffix.mpr (List.suffix_append _ _)
  rw [deploymentOf,whole]
  simp only [List.drop_left,List.length_append,Nat.add_sub_cancel,List.take_left,front,back,Bool.true_and]
  by_cases inside : CodePoint.ofChar '/' ∈ key
  · simp [inside]
  · simp [inside]

omit [Pydantic] [Unicode] in
/-- The keys that deployments are created under are one segment of a path. -/
theorem slash_of_resourceKey (admitted : resourceKey key = true) : CodePoint.ofChar '/' ∉ key := by
  intro inside
  rw [resourceKey,Patterns.key,Bool.and_eq_true,Bool.and_eq_true,List.all_eq_true] at admitted
  obtain ⟨_,_,pieces⟩ := admitted
  rw [← Kit.Split.glue_cut (CodePoint.ofChar '-') key] at inside
  rcases Kit.Split.mem_glue inside with joint | ⟨piece,member,inside⟩
  · exact absurd (List.mem_singleton.mp joint) (by decide)
  · have clean := pieces piece member
    rw [Bool.and_eq_true,List.all_eq_true] at clean
    exact absurd (clean.2 _ inside) (by decide)

omit [Pydantic] [Unicode] in
theorem condition_of_request (filled : ∀ t ∈ tag, t ≠ []) :
    Assoc.get (Str.lit "if-none-match") (client.request key tag).headers = tag := by
  have other : ¬ Str.lit "x-toollayer-service-token" = Str.lit "if-none-match" := by decide
  cases tag with
  | none => exact if_neg other
  | some t =>
    cases t with
    | nil => exact absurd rfl (filled [] rfl)
    | cons c rest => exact (if_neg other).trans (if_pos rfl)

/-- What an answer amounts to. -/
inductive Answers (world : Surroundings) : Answer → Polling.Reply Issue → Prop where
  | unchanged {r : Response} (status : r.status = 304) : Answers world (.response r) .unchanged
  | changed {r : Response} {v : Issue} (serves : r.serves = true) (etag : r.etag = some v.tag)
    (content : world.json r.content = some (.dict v.document)) : Answers world (.response r) (.changed v)
  | refused {r : Response} (status : 400 ≤ r.status) : Answers world (.response r) .failed
  | lost : Answers world .httpError .failed

/-- `response.json()` reads what the service renders of a snapshot. -/
def ReadsBack (world : Surroundings) (log : List Issue) : Prop :=
  ∀ v ∈ log, world.json (Utf8.bytes (Json.render canonicalOptions (.dict v.document))) = some (.dict v.document)

variable {world : Surroundings} {db : Database}

omit [Pydantic] [Unicode] in
/-- The service refuses, or it answers from the last snapshot of the deployment. -/
theorem serve_answers (sound : db.Sound) (sealed_ : ∀ v ∈ issues db key, v.Sealed key)
    (connected : client.baseUrl = server.base) (reads : ReadsBack world (issues db key))
    (tagged : ∀ t ∈ tag, ∃ v : Issue, t = v.tag ∧ v.Sealed key) :
    Answers world (server.serve db (client.request key tag)) .failed ∨
      Answers world (server.serve db (client.request key tag)) (Polling.reply Issue.tag (issues db key).getLast? tag) := by
  have filled : ∀ t ∈ tag, t ≠ [] := by
    intro t present
    obtain ⟨v,rfl,_⟩ := tagged t present
    exact List.append_ne_nil_of_right_ne_nil _ (by decide)
  rw [Server.serve]
  rw [deploymentOf_request connected]
  by_cases unrouted : CodePoint.ofChar '/' ∈ key
  · rw [if_pos unrouted]
    exact Or.inl (.refused (by decide))
  · rw [if_neg unrouted]
    dsimp only
    rw [condition_of_request filled,answerSnapshot]
    cases outcome : readSnapshot server.serviceToken db key (Assoc.get serviceHeader (client.request key tag).headers) tag with
    | error e => exact Or.inl (.refused (status_envelopeOf _ e))
    | ok response =>
      obtain ⟨_,_,done⟩ := bind_eq_ok.mp outcome
      obtain ⟨row,active,done⟩ := bind_eq_ok.mp done
      rcases getActiveSnapshot_cases sound key with ⟨_,e,failed,_⟩ | ⟨_,found,last⟩
      · rw [failed] at active
        cases active
      · rw [found] at active
        cases active
        refine Or.inr ?_
        have inside := List.mem_of_getLast? last
        rw [last,Polling.reply]
        dsimp only at done ⊢
        split at done
        next matched =>
          cases done
          rw [if_pos ((any_tagMatches tagged row.issue).mp matched)]
          exact .unchanged rfl
        next different =>
          obtain ⟨body,written,rfl⟩ := map_eq_ok.mp done
          rw [if_neg (fun same => different ((any_tagMatches tagged row.issue).mpr same))]
          have rendered := written.symm.trans (jsonBody_eq_ok (sealed_ row.issue inside).canonical)
          cases rendered
          have headed : Assoc.get (Str.lit "etag") (snapshotHeaders (entityTag row.snapshotDigest)) = some row.issue.tag :=
            if_pos rfl
          exact .changed rfl headed (reads row.issue inside)

omit [Pydantic] [Unicode] in
/-- A Runtime with the service's token is answered once there is a snapshot. -/
theorem serve_total (sound : db.Sound) (sealed_ : ∀ v ∈ issues db key, v.Sealed key) (connected : client.baseUrl = server.base)
    (authorized : compareDigest client.serviceToken server.serviceToken = .ok true) (keyed : CodePoint.ofChar '/' ∉ key)
    (filled : issues db key ≠ []) : ∃ r, server.serve db (client.request key tag) = .response r ∧ r.status < 400 := by
  have headed : Assoc.get serviceHeader (client.request key tag).headers = some client.serviceToken := if_pos rfl
  have allowed : requireService server.serviceToken (some client.serviceToken) = .ok "runtime" := by
    rw [requireService,authorized]
    rfl
  rw [Server.serve,deploymentOf_request connected,if_neg keyed]
  dsimp only
  rw [headed,answerSnapshot]
  rcases getActiveSnapshot_cases sound key with ⟨none_,_⟩ | ⟨row,active,last⟩
  · exact absurd none_ filled
  · have written : jsonBody (.dict row.document) = _ := jsonBody_eq_ok (sealed_ row.issue (List.mem_of_getLast? last)).canonical
    by_cases matched : (Assoc.get (Str.lit "if-none-match") (client.request key tag).headers).any (fun header =>
        tagMatches header (entityTag row.snapshotDigest)) = true
    · have unchanged : readSnapshot server.serviceToken db key (some client.serviceToken)
          (Assoc.get (Str.lit "if-none-match") (client.request key tag).headers) =
          .ok ⟨304,snapshotHeaders (entityTag row.snapshotDigest),[]⟩ := by
        rw [readSnapshot,allowed,ok_bind,active,ok_bind]
        exact if_pos matched
      rw [unchanged]
      exact ⟨_,rfl,(by decide : 304 < 400)⟩
    · have served : readSnapshot server.serviceToken db key (some client.serviceToken)
          (Assoc.get (Str.lit "if-none-match") (client.request key tag).headers) =
          .ok ⟨200,snapshotHeaders (entityTag row.snapshotDigest),
            Utf8.bytes (Json.render canonicalOptions (.dict row.document))⟩ := by
        rw [readSnapshot,allowed,ok_bind,active,ok_bind]
        refine (if_neg matched).trans ?_
        rw [jsonResponse,written]
        rfl
      rw [served]
      exact ⟨_,rfl,(by decide : 200 < 400)⟩

end Serving

section Refreshing

/-- A held snapshot is what verification made of an issued one, under that one's tag. -/
structure Shows (world : Surroundings) (verification : SnapshotVerification) (v : Issue) (loaded : LoadedSnapshot) :
    Prop where
  etag : loaded.etag = some v.tag
  loaded : Loaded world.scheme world.engine verification v.document loaded

/-- Whether the Runtime would load an issued snapshot. -/
noncomputable def loads (world : Surroundings) (verification : SnapshotVerification) (v : Issue) : Bool :=
  @decide (∃ loaded, Loaded world.scheme world.engine verification v.document loaded) (Classical.propDecidable _)

variable {world : Surroundings} {store : SnapshotStore} {answer : Answer} {given : Polling.Reply Issue}
  {held : Option Issue} {now : Rat}

theorem loads_iff {verification : SnapshotVerification} {v : Issue} : loads world verification v = true ↔
    ∃ loaded, Loaded world.scheme world.engine verification v.document loaded := by
  exact @decide_eq_true_iff _ (Classical.propDecidable _)

/-- Neither the tag nor the time matters to what was verified. -/
theorem loaded_again {verification : SnapshotVerification} {v : Issue} {loaded : LoadedSnapshot} (etag : Option Str) (now : Rat)
    (facts : Loaded world.scheme world.engine verification v.document loaded) :
    Loaded world.scheme world.engine verification v.document { loaded with etag := etag, loadedAt := now } :=
  ⟨facts.verified,facts.validated,facts.revalidated,facts.indexed⟩

theorem refresh_error {e : PyExc} (failed : store.client.fetch world (fun _ => answer) store.deploymentKey
    (store.current.bind LoadedSnapshot.etag) now = .error e) : (store.refresh world (fun _ => answer) now).2 = store := by
  simp only [SnapshotStore.refresh,failed]
  split <;> rfl

/-- What a refresh makes of an answer is what the abstract client makes of the reply. -/
theorem refresh_settles (shown : Option.Rel (Shows world store.client.verification) held store.current)
    (answers : Answers world answer given) (now : Rat) : ∃ current,
      (store.refresh world (fun _ => answer) now).2 = { store with current := current } ∧
      Option.Rel (Shows world store.client.verification)
        (Polling.settle (loads world store.client.verification) held given) current := by
  cases answers with
  | @unchanged r status =>
    have fetched : store.client.fetch world (fun _ => .response r) store.deploymentKey
        (store.current.bind LoadedSnapshot.etag) now = .ok none := fetch_unchanged rfl status
    cases current : store.current with
    | none =>
      rw [current] at fetched shown
      refine ⟨none,?_,shown⟩
      simp only [SnapshotStore.refresh,current,fetched]
      rw [← current]
    | some existing =>
      rw [current] at fetched shown
      cases shown with
      | some shows => exact ⟨some { existing with loadedAt := now },by simp only [SnapshotStore.refresh,current,fetched,
          SnapshotStore.install],.some ⟨shows.etag,loaded_again existing.etag now shows.loaded⟩⟩
  | @changed r v serves etag content =>
    have fetched : store.client.fetch world (fun _ => .response r) store.deploymentKey
        (store.current.bind LoadedSnapshot.etag) now = (store.client.load world r now).map some := fetch_serves rfl serves
    rw [SnapshotClient.load,content] at fetched
    dsimp only at fetched
    cases outcome : loadSnapshotDocument world.scheme world.engine store.client.verification (.dict v.document) r.etag now with
    | error e =>
      rw [outcome] at fetched
      have unloaded : ¬ loads world store.client.verification v = true := by
        intro loadable
        obtain ⟨loaded,facts⟩ := loads_iff.mp loadable
        have again := loadSnapshotDocument_eq_ok.mpr ⟨v.document,rfl,loaded_again r.etag now facts,rfl,rfl⟩
        rw [outcome] at again
        cases again
      refine ⟨store.current,refresh_error fetched,?_⟩
      rw [Polling.settle,if_neg unloaded]
      exact shown
    | ok loaded =>
      rw [outcome] at fetched
      obtain ⟨_,same,facts,tagged,_⟩ := loadSnapshotDocument_eq_ok.mp outcome
      cases same
      refine ⟨some loaded,?_,?_⟩
      · simp only [SnapshotStore.refresh,fetched,Except.map,SnapshotStore.install]
      · rw [Polling.settle,if_pos (loads_iff.mpr ⟨loaded,facts⟩)]
        exact .some ⟨tagged.trans etag,facts⟩
  | @refused r status =>
    obtain ⟨e,failed⟩ : ∃ e, store.client.fetch world (fun _ => .response r) store.deploymentKey
        (store.current.bind LoadedSnapshot.etag) now = .error (.own (.toolLayer e)) := fetch_refused rfl status
    exact ⟨store.current,refresh_error failed,shown⟩
  | lost => exact ⟨store.current,refresh_error (fetch_httpError rfl),shown⟩

end Refreshing

section Tracking

/-- A poll under way, and the abstract poll it is. -/
inductive InStep (world : Surroundings) (client : SnapshotClient) (key : Str) (log : List Issue) :
    PollPhase → Polling.Phase Issue Str → Prop where
  | idle : InStep world client key log .idle .idle
  | asked {tag : Option Str} (tagged : ∀ t ∈ tag, ∃ v : Issue, t = v.tag ∧ v.Sealed key) :
    InStep world client key log (.asked (client.request key tag)) (.asked tag)
  | answered {answer : Answer} {seen : Database} {given : Polling.Reply Issue} {n : Nat} (answers : Answers world answer given)
    (prior : issues seen key = log.take n) : InStep world client key log (.answered answer seen) (.answered given n)

/-- A Runtime beside the database it polls, as a client of its deployment's log. -/
structure Tracks (world : Surroundings) (client : SnapshotClient) (key : Str) (db : Database) (p : Poller)
    (s : Polling.State Issue Str) : Prop where
  polls : p.store.client = client
  names : p.store.deploymentKey = key
  log : s.log = issues db key
  held : Option.Rel (Shows world client.verification) s.held p.store.current
  phase : InStep world client key s.log p.phase s.phase

variable {setting : Setting} {world : Surroundings} {server : Server} {client : SnapshotClient} {key : Str} {db : Database}
  {p : Poller} {s : Polling.State Issue Str}

theorem etag_of_shown {held : Option Issue} {current : Option LoadedSnapshot} {verification : SnapshotVerification}
    (shown : Option.Rel (Shows world verification) held current) : current.bind LoadedSnapshot.etag = held.map Issue.tag := by
  cases shown with
  | none => rfl
  | some shows => exact shows.etag

namespace Tracks

theorem ask (sealed_ : ∀ v ∈ issues db key, v.Sealed key) (sound : Polling.Sound Issue.tag s)
    (tracks : Tracks world client key db p s) : ∃ moves, Tracks world client key db p.ask
      (Polling.run Issue.tag (loads world client.verification) s moves) := by
  obtain ⟨store,phase⟩ := p
  obtain ⟨log,held,phase'⟩ := s
  obtain ⟨polls,names,logged,shown,inStep⟩ := tracks
  dsimp only at polls names logged shown inStep
  subst polls names
  cases inStep with
  | idle =>
    refine ⟨[.ask],rfl,rfl,logged,shown,?_⟩
    have tagged : ∀ t ∈ held.map Issue.tag, ∃ v : Issue, t = v.tag ∧ v.Sealed store.deploymentKey := by
      intro t present
      obtain ⟨v,there,rfl⟩ := Option.map_eq_some_iff.mp present
      obtain ⟨k,_,found⟩ := sound.held v there
      exact ⟨v,rfl,sealed_ v (logged ▸ List.mem_of_getElem? found)⟩
    change InStep world store.client store.deploymentKey log
      (.asked (store.client.request store.deploymentKey (store.current.bind LoadedSnapshot.etag))) (.asked (held.map Issue.tag))
    rw [etag_of_shown shown]
    exact .asked tagged
  | asked tagged => exact ⟨[],rfl,rfl,logged,shown,.asked tagged⟩
  | answered answers prior => exact ⟨[],rfl,rfl,logged,shown,.answered answers prior⟩

theorem answer (reached : Reachable setting db) (connected : client.baseUrl = server.base)
    (reads : ReadsBack world (issues db key)) (tracks : Tracks world client key db p s) :
    ∃ moves, Tracks world client key db (p.answer server db)
      (Polling.run Issue.tag (loads world client.verification) s moves) := by
  have sealed_ := sealed_issues reached key
  obtain ⟨calls,rfl⟩ := reached
  have rows := (runCalls_sound setting calls Database.Sound.empty).1
  obtain ⟨store,phase⟩ := p
  obtain ⟨log,held,phase'⟩ := s
  obtain ⟨polls,names,logged,shown,inStep⟩ := tracks
  dsimp only at polls names logged shown inStep
  subst polls names
  cases inStep with
  | idle => exact ⟨[],rfl,rfl,logged,shown,.idle⟩
  | answered answers prior => exact ⟨[],rfl,rfl,logged,shown,.answered answers prior⟩
  | asked tagged =>
    have prior : issues (runCalls setting Database.empty calls) store.deploymentKey = log.take log.length := by
      rw [List.take_length,logged]
    rcases serve_answers rows sealed_ connected reads tagged with refused | answers
    · exact ⟨[.lose],rfl,rfl,logged,shown,.answered refused prior⟩
    · rw [← logged] at answers
      exact ⟨[.answer],rfl,rfl,logged,shown,.answered answers prior⟩

theorem lose (tracks : Tracks world client key db p s) : ∃ moves, Tracks world client key db (p.lose db)
      (Polling.run Issue.tag (loads world client.verification) s moves) := by
  obtain ⟨store,phase⟩ := p
  obtain ⟨log,held,phase'⟩ := s
  obtain ⟨polls,names,logged,shown,inStep⟩ := tracks
  dsimp only at polls names logged shown inStep
  subst polls names
  have prior : issues db store.deploymentKey = log.take log.length := by rw [List.take_length,logged]
  cases inStep with
  | idle => exact ⟨[],rfl,rfl,logged,shown,.idle⟩
  | asked tagged => exact ⟨[.lose],rfl,rfl,logged,shown,.answered .lost prior⟩
  | answered answers _ => exact ⟨[.lose],rfl,rfl,logged,shown,.answered .lost prior⟩

theorem finish (now : Rat) (tracks : Tracks world client key db p s) : ∃ moves, Tracks world client key db
      (p.finish world now) (Polling.run Issue.tag (loads world client.verification) s moves) := by
  obtain ⟨store,phase⟩ := p
  obtain ⟨log,held,phase'⟩ := s
  obtain ⟨polls,names,logged,shown,inStep⟩ := tracks
  dsimp only at polls names logged shown inStep
  subst polls names
  cases inStep with
  | idle => exact ⟨[],rfl,rfl,logged,shown,.idle⟩
  | asked tagged => exact ⟨[],rfl,rfl,logged,shown,.asked tagged⟩
  | answered answers _ =>
    obtain ⟨current,refreshed,settled⟩ := refresh_settles shown answers now
    refine ⟨[.finish],?_,?_,logged,?_,.idle⟩
    · change (store.refresh world _ now).2.client = _
      rw [refreshed]
    · change (store.refresh world _ now).2.deploymentKey = _
      rw [refreshed]
    · change Option.Rel _ (Polling.settle _ held _) (store.refresh world _ now).2.current
      rw [refreshed]
      exact settled

/-- A call to the Control Plane adds to the log; the poll under way keeps what it saw. -/
theorem call (c : Call) (sound : Polling.Sound Issue.tag s) (tracks : Tracks world client key db p s) :
    ∃ moves, Tracks world client key (c.after setting db) p
      (Polling.run Issue.tag (loads world client.verification) s moves) := by
  obtain ⟨rfl,rfl,logged,shown,inStep⟩ := tracks
  rcases issues_after setting c db p.store.deploymentKey with same | ⟨v,grown⟩
  · exact ⟨[],rfl,rfl,logged.trans same.symm,shown,inStep⟩
  · refine ⟨[.commit v],rfl,rfl,?_,shown,?_⟩
    · change s.log ++ [v] = _
      rw [grown,logged]
    · change InStep world _ _ (s.log ++ [v]) p.phase s.phase
      have promises := sound.phase
      cases phase : s.phase with
      | idle =>
        rw [phase] at inStep
        generalize p.phase = under at inStep
        cases inStep
        exact .idle
      | asked tag =>
        rw [phase] at inStep
        generalize p.phase = under at inStep
        cases inStep with
        | asked tagged => exact .asked tagged
      | answered given n =>
        rw [phase] at inStep promises
        generalize p.phase = under at inStep
        cases inStep with
        | answered answers prior =>
          refine .answered answers ?_
          rw [List.take_append_of_le_length promises.1]
          exact prior

end Tracks

/-- One event of the fleet is at most one move of each of its clients. -/
theorem Tracks.step {w : Fleet} (reached : Reachable setting w.db) {i : Nat} (connected : client.baseUrl = server.base)
    (reads : ReadsBack world (issues w.db key)) (sound : Polling.Sound Issue.tag s)
    (tracks : Tracks world client key w.db (w.pollers i) s) (event : FleetEvent) :
    ∃ moves, Tracks world client key (w.step setting world server event).db
      ((w.step setting world server event).pollers i) (Polling.run Issue.tag (loads world client.verification) s moves) := by
  have other (j : Nat) (f : Poller → Poller) (moved : ∃ moves, Tracks world client key w.db (f (w.pollers i))
      (Polling.run Issue.tag (loads world client.verification) s moves)) : ∃ moves, Tracks world client key w.db
      ((w.update j f).pollers i) (Polling.run Issue.tag (loads world client.verification) s moves) := by
    rw [Fleet.update]
    by_cases here : i = j
    · subst here
      dsimp only
      rw [Function.update_self]
      exact moved
    · dsimp only
      rw [Function.update_of_ne here]
      exact ⟨[],tracks⟩
  cases event with
  | call c => exact tracks.call c sound
  | ask j => exact other j Poller.ask (tracks.ask (sealed_issues reached key) sound)
  | answer j => exact other j (Poller.answer server w.db) (tracks.answer reached connected reads)
  | lose j => exact other j (Poller.lose w.db) tracks.lose
  | finish j now => exact other j (Poller.finish world now) (tracks.finish now)

end Tracking

section Runs

variable {setting : Setting} {world : Surroundings} {server : Server} {client : SnapshotClient} {key : Str}
  {s : Polling.State Issue Str}

theorem reachable_step {w : Fleet} (reached : Reachable setting w.db) (event : FleetEvent) :
    Reachable setting (w.step setting world server event).db := by
  cases event with
  | call c =>
    obtain ⟨calls,rest⟩ := reached
    refine ⟨calls ++ [c],?_⟩
    rw [runCalls_append,rest]
    rfl
  | _ => exact reached

theorem reachable_run (world : Surroundings) (server : Server) {w : Fleet} (reached : Reachable setting w.db) (events : List FleetEvent) :
    Reachable setting (w.run setting world server events).db := by
  induction events generalizing w with
  | nil => exact reached
  | cons event rest ih => exact ih (reachable_step reached event)

theorem issues_fleet (setting : Setting) (world : Surroundings) (server : Server) (w : Fleet) (events : List FleetEvent) (key : Str) :
    issues w.db key <+: issues (w.run setting world server events).db key := by
  induction events generalizing w with
  | nil => exact List.prefix_rfl
  | cons event rest ih =>
    have first : issues w.db key <+: issues (w.step setting world server event).db key := by
      cases event with
      | call c =>
        change _ <+: issues (c.after setting w.db) key
        rcases issues_after setting c w.db key with same | ⟨v,grown⟩
        · exact ⟨[],(List.append_nil _).trans same.symm⟩
        · exact ⟨[v],grown.symm⟩
      | _ => exact List.prefix_rfl
    exact first.trans (ih _)

/-- While no two issued snapshots share a tag, every run of the fleet is a run of each client. -/
theorem Tracks.run {w : Fleet} (reached : Reachable setting w.db) {i : Nat} (connected : client.baseUrl = server.base)
    (events : List FleetEvent) (reads : ReadsBack world (issues (w.run setting world server events).db key))
    (distinct : ((issues (w.run setting world server events).db key).map Issue.tag).Nodup)
    (sound : Polling.Sound Issue.tag s) (tracks : Tracks world client key w.db (w.pollers i) s) :
    ∃ final, Tracks world client key (w.run setting world server events).db ((w.run setting world server events).pollers i)
      final ∧ Polling.Sound Issue.tag final ∧ Polling.Advances s final := by
  induction events generalizing w s with
  | nil => exact ⟨s,tracks,sound,Polling.Advances.refl s⟩
  | cons event rest ih =>
    have whole := issues_fleet setting world server w (event::rest) key
    have after := issues_fleet setting world server (w.step setting world server event) rest key
    obtain ⟨moves,next⟩ := tracks.step reached connected (fun v member => reads v (whole.subset member)) sound event
    have apart : ((Polling.run Issue.tag (loads world client.verification) s moves).log.map Issue.tag).Nodup := by
      rw [next.log]
      exact distinct.sublist (after.map Issue.tag).sublist
    obtain ⟨kept,advanced⟩ := sound.run apart
    obtain ⟨final,last,lasting,more⟩ := ih (reachable_step reached event) reads distinct kept next
    exact ⟨final,last,lasting,advanced.trans more⟩

theorem revision_of_shows {verification : SnapshotVerification} {v : Issue} {loaded : LoadedSnapshot}
    (sealed_ : v.Sealed key) (shows : Shows world verification v loaded) : loaded.revision = v.revision := by
  have valid := shows.loaded.validated
  unfold DeploymentSnapshot.modelValidate at valid
  split at valid
  next found read =>
    rw [LoadedSnapshot.revision,← Except.ok.inj valid]
    simp only [DeploymentSnapshot.read,Option.bind_eq_bind,Option.bind_eq_some_iff] at read
    obtain ⟨d,members,_,_,_,_,_,_,revision,counted,_,_,_,_,_,_,_,_,built⟩ := read
    cases (Read.members_eq_some members).1
    obtain ⟨_,rfl⟩ := validated_eq_ok.mp (toOption_eq_some.mp built)
    obtain ⟨value,there,number⟩ := Read.field_eq_some counted
    have stated := sealed_.revision
    rw [Dict.get,there] at stated
    change value = .int v.revision at stated
    rw [stated,Pydantic.laxInt_int] at number
    exact (Option.some.inj number).symm
  next => cases valid

/-- A Runtime of this Control Plane that has fetched nothing yet. -/
structure Poller.Fresh (server : Server) (p : Poller) : Prop where
  idle : p.phase = .idle
  empty : p.store.current = none
  connected : p.store.client.baseUrl = server.base

/-- What a Runtime holds at a moment, and at a later one: a snapshot that was issued to its
deployment, never one older than before, and after a poll the last one when it was answered. -/
structure Consistent (world : Surroundings) (server : Server) (key : Str) (verification : SnapshotVerification) (i : Nat)
    (middle final : Fleet) : Prop where
  issued : ∀ loaded ∈ (middle.pollers i).store.current, ∃ v ∈ issues middle.db key,
    Shows world verification v loaded ∧ loaded.revision = v.revision
  forward : ∀ loaded ∈ (middle.pollers i).store.current, ∃ next ∈ (final.pollers i).store.current,
    loaded.revision ≤ next.revision
  answered : compareDigest (middle.pollers i).store.client.serviceToken server.serviceToken = .ok true →
    ∀ request, (middle.pollers i).phase = .asked request → issues middle.db key ≠ [] →
      ∃ r, server.serve middle.db request = .response r ∧ r.status < 400
  current : ∀ r seen, (middle.pollers i).phase = .answered (.response r) seen → r.status < 400 →
    ∃ v, (issues seen key).getLast? = some v ∧
      (r.status = 304 → ∃ loaded ∈ (middle.pollers i).store.current, Shows world verification v loaded) ∧
      ((∃ loaded, Loaded world.scheme world.engine verification v.document loaded) →
        ∀ now, ∃ held ∈ ((middle.pollers i).finish world now).store.current, Shows world verification v held)

theorem exists_shown {verification : SnapshotVerification} {held : Option Issue} {current : Option LoadedSnapshot} {v : Issue}
    (shown : Option.Rel (Shows world verification) held current) (there : held = some v) :
    ∃ loaded ∈ current, Shows world verification v loaded := by
  subst there
  cases shown with
  | some shows => exact ⟨_,rfl,shows⟩

theorem answered_of_tracks {db : Database} {p : Poller} (reached : Reachable setting db) (connected : client.baseUrl = server.base)
    (tracks : Tracks world client key db p s) (authorized : compareDigest p.store.client.serviceToken server.serviceToken = .ok true)
    {request : HttpRequest} (asked : p.phase = .asked request) (filled : issues db key ≠ []) :
    ∃ r, server.serve db request = .response r ∧ r.status < 400 := by
  have sealed_ := sealed_issues reached key
  have keyed : CodePoint.ofChar '/' ∉ key := by
    cases found : db.deployment key with
    | none =>
      rw [issues,found] at filled
      exact absurd rfl filled
    | some d => exact slash_of_resourceKey (deploymentKey_of_reachable reached key d found)
  obtain ⟨calls,rfl⟩ := reached
  have rows := (runCalls_sound setting calls Database.Sound.empty).1
  obtain ⟨store,phase⟩ := p
  obtain ⟨log,held,phase'⟩ := s
  obtain ⟨polls,names,_,_,inStep⟩ := tracks
  dsimp only at polls names inStep asked authorized
  subst polls names asked
  cases inStep with
  | asked tagged => exact serve_total rows sealed_ connected authorized keyed filled

theorem current_of_tracks {db : Database} {p : Poller} (sound : Polling.Sound Issue.tag s)
    (tracks : Tracks world client key db p s) {r : Response} {seen : Database} (answered : p.phase = .answered (.response r) seen)
    (served : r.status < 400) : ∃ v, (issues seen key).getLast? = some v ∧
      (r.status = 304 → ∃ loaded ∈ p.store.current, Shows world client.verification v loaded) ∧
      ((∃ loaded, Loaded world.scheme world.engine client.verification v.document loaded) →
        ∀ now, ∃ held ∈ (p.finish world now).store.current, Shows world client.verification v held) := by
  obtain ⟨store,phase⟩ := p
  obtain ⟨log,held,phase'⟩ := s
  obtain ⟨polls,names,_,shown,inStep⟩ := tracks
  dsimp only at polls names shown inStep answered
  subst polls names answered
  cases inStep with
  | @answered _ _ given n answers prior =>
    obtain ⟨_,_,truthful⟩ := sound.phase
    have arrived : given ≠ .failed := by
      rintro rfl
      cases answers with
      | refused status => omega
    have finished (accepted : ∀ v, given = .changed v → loads world store.client.verification v = true) (now : Rat) :
        Option.Rel (Shows world store.client.verification) (log.take n).getLast?
          (Poller.finish world now ⟨store,.answered (.response r) seen⟩).store.current := by
      obtain ⟨current,refreshed,settled⟩ := refresh_settles shown answers now
      have last : Polling.settle (loads world store.client.verification) held given = (log.take n).getLast? :=
        Polling.held_finish sound rfl arrived accepted
      change Option.Rel _ _ (store.refresh world (fun _ => .response r) now).2.current
      rw [refreshed,← last]
      exact settled
    rw [prior]
    cases given with
    | failed => exact absurd rfl arrived
    | unchanged =>
      obtain ⟨v,there,last⟩ := truthful
      exact ⟨v,last,fun _ => exists_shown shown there,
        fun _ now => exists_shown (finished (fun _ other => by cases other) now) last⟩
    | changed v =>
      refine ⟨v,truthful,fun unchanged => ?_,fun loadable now => exists_shown (finished ?_ now) truthful⟩
      · cases answers with
        | changed serves _ _ =>
          rw [Response.serves,unchanged] at serves
          cases serves
      · intro u same
        cases same
        exact loads_iff.mpr loadable

/-- What is held stands in the log of the deployment. -/
theorem exists_issue {db : Database} {p : Poller} (sound : Polling.Sound Issue.tag s) (tracks : Tracks world client key db p s)
    {loaded : LoadedSnapshot} (present : loaded ∈ p.store.current) :
    ∃ (k : Nat) (v : Issue), s.held = some v ∧ (issues db key)[k]? = some v ∧ Shows world client.verification v loaded := by
  have shown := tracks.held
  rw [present] at shown
  cases held : s.held with
  | none =>
    rw [held] at shown
    cases shown
  | some v =>
    rw [held] at shown
    cases shown with
    | some shows =>
      obtain ⟨k,_,found⟩ := sound.held v held
      rw [tracks.log] at found
      exact ⟨k,v,rfl,found,shows⟩

theorem sound_of_reachable {db : Database} (reached : Reachable setting db) : db.Sound := by
  obtain ⟨calls,rfl⟩ := reached
  exact (runCalls_sound setting calls Database.Sound.empty).1

/-- A Runtime that has fetched nothing is an abstract client that holds nothing. -/
theorem Poller.Fresh.tracked {w : Fleet} (reached : Reachable setting w.db) {i : Nat} (fresh : (w.pollers i).Fresh server)
    (events : List FleetEvent)
    (reads : ReadsBack world (issues (w.run setting world server events).db (w.pollers i).store.deploymentKey))
    (apart : NoCollision (issues (w.run setting world server events).db (w.pollers i).store.deploymentKey)) :
    ∃ s, Tracks world (w.pollers i).store.client (w.pollers i).store.deploymentKey (w.run setting world server events).db
      ((w.run setting world server events).pollers i) s ∧ Polling.Sound Issue.tag s := by
  have start : Tracks world (w.pollers i).store.client (w.pollers i).store.deploymentKey w.db (w.pollers i)
      ⟨issues w.db (w.pollers i).store.deploymentKey,none,.idle⟩ := by
    refine ⟨rfl,rfl,rfl,?_,?_⟩
    · rw [fresh.empty]
      exact .none
    · rw [fresh.idle]
      exact .idle
  have sound : Polling.Sound Issue.tag (⟨issues w.db (w.pollers i).store.deploymentKey,none,.idle⟩ : Polling.State Issue Str) :=
    ⟨fun _ none_ => (by cases none_),trivial⟩
  have distinct := nodup_tags (reachable_run world server reached events) apart
  obtain ⟨s,tracks,sound,_⟩ := start.run reached fresh.connected events reads distinct sound
  exact ⟨s,tracks,sound⟩

/-- Whatever the Control Plane commits and the network loses while it polls, a Runtime that
starts without a snapshot serves issued snapshots only and never goes back. -/
theorem polling_consistent (setting : Setting) (world : Surroundings) (server : Server) {w : Fleet}
    (reached : Reachable setting w.db) {i : Nat} (fresh : (w.pollers i).Fresh server) (earlier later : List FleetEvent)
    (reads : ReadsBack world (issues (w.run setting world server (earlier ++ later)).db (w.pollers i).store.deploymentKey))
    (apart : NoCollision (issues (w.run setting world server (earlier ++ later)).db (w.pollers i).store.deploymentKey)) :
    Consistent world server (w.pollers i).store.deploymentKey (w.pollers i).store.client.verification i
      (w.run setting world server earlier) (w.run setting world server (earlier ++ later)) := by
  have split_ : w.run setting world server (earlier ++ later) =
      (w.run setting world server earlier).run setting world server later := List.foldl_append
  rw [split_] at reads apart ⊢
  have reachedMiddle := reachable_run world server reached earlier
  have reachedFinal := reachable_run world server reachedMiddle later
  have grown := issues_fleet setting world server (w.run setting world server earlier) later
    (w.pollers i).store.deploymentKey
  obtain ⟨s,tracks,sound⟩ := fresh.tracked reached earlier (fun v member => reads v (grown.subset member))
    (fun v first u second => apart v (grown.subset first) u (grown.subset second))
  obtain ⟨t,last,lasting,advanced⟩ := tracks.run reachedMiddle fresh.connected later reads (nodup_tags reachedFinal apart) sound
  constructor
  · intro loaded present
    obtain ⟨k,v,_,found,shows⟩ := exists_issue sound tracks present
    have member := List.mem_of_getElem? found
    exact ⟨v,member,shows,revision_of_shows (sealed_issues reachedMiddle _ v member) shows⟩
  · intro loaded present
    obtain ⟨k,v,held,found,shows⟩ := exists_issue sound tracks present
    obtain ⟨u,there,l,after,found'⟩ := advanced.held v held k (tracks.log ▸ found)
    rw [last.log] at found'
    obtain ⟨next,present',shows'⟩ := exists_shown last.held there
    refine ⟨next,present',?_⟩
    rw [revision_of_shows (sealed_issues reachedMiddle _ v (List.mem_of_getElem? found)) shows,
      revision_of_shows (sealed_issues reachedFinal _ u (List.mem_of_getElem? found')) shows',
      revision_of_issues (sound_of_reachable reachedMiddle) found,revision_of_issues (sound_of_reachable reachedFinal) found']
    omega
  · exact fun authorized request asked filled =>
      answered_of_tracks reachedMiddle fresh.connected tracks authorized asked filled
  · exact fun r seen answered served => current_of_tracks sound tracks answered served

/-- Two Runtimes of a deployment never serve different tools under one revision, at whatever
times they do and whichever keys they trust. -/
theorem polling_agreement (setting : Setting) (world : Surroundings) (server : Server) {w : Fleet}
    (reached : Reachable setting w.db) {i j : Nat} (first : (w.pollers i).Fresh server) (second : (w.pollers j).Fresh server)
    (same : (w.pollers i).store.deploymentKey = (w.pollers j).store.deploymentKey) (earlier later : List FleetEvent)
    (reads : ReadsBack world (issues (w.run setting world server (earlier ++ later)).db (w.pollers i).store.deploymentKey))
    (apart : NoCollision (issues (w.run setting world server (earlier ++ later)).db (w.pollers i).store.deploymentKey)) :
    ∀ a ∈ ((w.run setting world server earlier).pollers i).store.current,
      ∀ b ∈ ((w.run setting world server (earlier ++ later)).pollers j).store.current, a.revision = b.revision →
        a.snapshot = b.snapshot ∧ a.toolsByName = b.toolsByName ∧ a.etag = b.etag := by
  have split_ : w.run setting world server (earlier ++ later) =
      (w.run setting world server earlier).run setting world server later := List.foldl_append
  have grown := issues_fleet setting world server (w.run setting world server earlier) later
    (w.pollers i).store.deploymentKey
  rw [← split_] at grown
  have reachedMiddle := reachable_run world server reached earlier
  have reachedFinal := reachable_run world server reached (earlier ++ later)
  obtain ⟨s,tracks,sound⟩ := first.tracked reached earlier (fun v member => reads v (grown.subset member))
    (fun v one u other => apart v (grown.subset one) u (grown.subset other))
  obtain ⟨t,last,lasting⟩ := second.tracked reached (earlier ++ later) (same ▸ reads) (same ▸ apart)
  intro a held b held' revision
  obtain ⟨k,v,_,found,shows⟩ := exists_issue sound tracks held
  obtain ⟨l,u,_,found',shows'⟩ := exists_issue lasting last held'
  rw [← same] at found'
  rw [revision_of_shows (sealed_issues reachedMiddle _ v (List.mem_of_getElem? found)) shows,
    revision_of_shows (sealed_issues reachedFinal _ u (List.mem_of_getElem? found')) shows',
    revision_of_issues (sound_of_reachable reachedMiddle) found,
    revision_of_issues (sound_of_reachable reachedFinal) found'] at revision
  have position : k = l := by omega
  subst position
  -- A position of the log never changes what it holds.
  obtain ⟨more,whole⟩ := grown
  obtain ⟨small,_⟩ := List.getElem?_eq_some_iff.mp found
  rw [← whole,List.getElem?_append_left small,found] at found'
  cases found'
  have snapshots : a.snapshot = b.snapshot :=
    Except.ok.inj (shows.loaded.validated.symm.trans shows'.loaded.validated)
  refine ⟨snapshots,?_,shows.etag.trans shows'.etag.symm⟩
  have indexed := shows.loaded.indexed
  rw [snapshots,shows'.loaded.indexed] at indexed
  exact (Except.ok.inj indexed).symm

end Runs

end Fleets

section Desk

attribute [local instance] counterTables counterFields

/-- The call that makes the desk's first snapshot. -/
def deskIssue : Call := ⟨.createSnapshot "prod" [deskSelection] "admin" (some deskSigningKey),deskTime⟩

def deskFleet : Fleet where
  db := deskStore
  pollers _ := ⟨SnapshotStore.new (SnapshotClient.new "http://control.test/" "token" ⟨.required,deskRing⟩) "prod" 60,.idle⟩

def deskServer : Server := ⟨"http://control.test","token","r-1"⟩

/-- A body is read by looking it up among the rendered snapshots. -/
def deskWorld (log : List Issue) : Surroundings where
  scheme := deskScheme
  engine := desk.engine
  json content := (log.find? (fun v => Utf8.bytes (Json.render canonicalOptions (.dict v.document)) == content)).map
    (fun v => .dict v.document)

theorem issues_desk : ∃ v, issues (deskIssue.after desk deskStore) "prod" = [v] := by
  have reached : Reachable desk deskStore := ⟨_,rfl⟩
  obtain ⟨next,row,created⟩ := deskStore_offers.created reached (by decide) (by decide)
  have ran : deskIssue.after desk deskStore = next := by
    have done : deskIssue.run desk deskStore = (createSnapshot deskScheme desk.engine deskStore "prod" [deskSelection] "admin"
        (some deskSigningKey) deskTime).map (fun made => made.1) := rfl
    rw [Call.after,done,created]
    rfl
  have empty : issues deskStore "prod" = [] := by
    obtain ⟨d,_,found,fresh,_⟩ := deskStore_offers
    rw [issues_eq found,Deployment.issues,fresh]
    rfl
  have whole : createSnapshot desk.scheme desk.engine deskStore "prod" [deskSelection] "admin" (some deskSigningKey)
      deskTime = .ok (next,row) := created
  refine ⟨row.issue,?_⟩
  rw [ran,(issues_created whole).1,empty]
  rfl

theorem readsBack_desk (v : Issue) : ReadsBack (deskWorld [v]) [v] := by
  intro u member
  rw [List.mem_singleton.mp member]
  simp [deskWorld]

theorem noCollision_singleton (v : Issue) : NoCollision [v] := by
  intro u first w second data other taken otherTaken _
  rw [List.mem_singleton.mp first] at taken
  rw [List.mem_singleton.mp second,taken] at otherTaken
  exact Except.ok.inj otherTaken

theorem deskFleet_db : deskFleet.db = deskStore := by rw [deskFleet]

theorem reachable_deskFleet : Reachable desk deskFleet.db := by
  rw [deskFleet_db]
  exact ⟨_,rfl⟩

/-- The snapshot is issued between the question and the answer. -/
theorem polling_consistent_desk : ∃ v, issues (deskIssue.after desk deskStore) "prod" = [v] ∧
    Consistent (deskWorld [v]) deskServer "prod" ⟨.required,deskRing⟩ 0
      (deskFleet.run desk (deskWorld [v]) deskServer [.ask 0,.call deskIssue,.answer 0])
      (deskFleet.run desk (deskWorld [v]) deskServer ([.ask 0,.call deskIssue,.answer 0] ++ [.finish 0 5])) := by
  obtain ⟨v,log⟩ := issues_desk
  have final (w : Fleet) (c : Call) : (w.run desk (deskWorld [v]) deskServer
      ([.ask 0,.call c,.answer 0] ++ [.finish 0 5])).db = c.after desk w.db := rfl
  refine ⟨v,log,polling_consistent desk (deskWorld [v]) deskServer reachable_deskFleet ⟨rfl,rfl,rfl⟩
    [.ask 0,.call deskIssue,.answer 0] [.finish 0 5] ?_ ?_⟩
  · rw [final,deskFleet_db]
    change ReadsBack _ (issues (deskIssue.after desk deskStore) "prod")
    rw [log]
    exact readsBack_desk v
  · rw [final,deskFleet_db]
    change NoCollision (issues (deskIssue.after desk deskStore) "prod")
    rw [log]
    exact noCollision_singleton v

/-- Two Runtimes that poll one after the other. -/
theorem polling_agreement_desk : ∃ v, issues (deskIssue.after desk deskStore) "prod" = [v] ∧
    ∀ a ∈ ((deskFleet.run desk (deskWorld [v]) deskServer [.call deskIssue,.ask 0,.answer 0,.finish 0 5]).pollers 0).store.current,
      ∀ b ∈ ((deskFleet.run desk (deskWorld [v]) deskServer ([.call deskIssue,.ask 0,.answer 0,.finish 0 5] ++
        [.ask 1,.answer 1,.finish 1 9])).pollers 1).store.current, a.revision = b.revision →
        a.snapshot = b.snapshot ∧ a.toolsByName = b.toolsByName ∧ a.etag = b.etag := by
  obtain ⟨v,log⟩ := issues_desk
  have final (w : Fleet) (c : Call) : (w.run desk (deskWorld [v]) deskServer ([.call c,.ask 0,.answer 0,.finish 0 5] ++
      [.ask 1,.answer 1,.finish 1 9])).db = c.after desk w.db := rfl
  refine ⟨v,log,polling_agreement desk (deskWorld [v]) deskServer (w := deskFleet) (i := 0) (j := 1) reachable_deskFleet
    ⟨rfl,rfl,rfl⟩ ⟨rfl,rfl,rfl⟩ rfl [.call deskIssue,.ask 0,.answer 0,.finish 0 5] [.ask 1,.answer 1,.finish 1 9] ?_ ?_⟩
  · rw [final,deskFleet_db]
    change ReadsBack _ (issues (deskIssue.after desk deskStore) "prod")
    rw [log]
    exact readsBack_desk v
  · rw [final,deskFleet_db]
    change NoCollision (issues (deskIssue.after desk deskStore) "prod")
    rw [log]
    exact noCollision_singleton v

end Desk

end ToolLayer.Delivery
