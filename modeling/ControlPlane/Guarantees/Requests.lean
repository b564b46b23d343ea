import ControlPlane.Controller.Changes
import ControlPlane.Controller.Scenario
import ControlPlane.Guarantees.Refinement
import ControlPlane.Protocol.Lossless
import ControlPlane.Rpc.Server

/-!
# What clients can rely on

The daemon with its clients is the daemon of the other guarantees, and the history of its requests
is one of the store: each request is answered as if it had happened at one moment between its
arrival and its answer, whatever the controller, the other requests, failures and crashes do in
between.
-/

namespace ControlPlane

open Interaction Storage

variable {σ : Type} {P : ProviderModel σ} {texts : Texts} {lib : Jsonrpsee} {context : RpcContext}

/-! ## Handlers -/

namespace Handler

/-- A handler, its outcome put into a response. -/
abbrev responding (lib : Jsonrpsee) (handler : Handler) : Program Effect Answer RpcReply := do
  let outcome ← handler.run
  return lib.bounded outcome

variable {method : Method} {α : Type} {describe : Json → String} {wire : Wire α}
  {params : Option Json} {rest : α → Handler}

theorem parseParams_some {value : α} (h : wire.decode (params.getD .null) = some value) :
    responding lib (parseParams describe wire params >>= rest) = responding lib (rest value) := by
  unfold parseParams
  rw [h]
  rfl

theorem parseParams_none (h : wire.decode (params.getD .null) = none) :
    responding lib (parseParams describe wire params >>= rest) =
      .done (lib.bounded
        (.error (AppError.invalidArgument (describe (params.getD .null))).intoRpcError)) := by
  unfold parseParams
  rw [h]
  rfl

/-- A handler that returns what one call answers. -/
theorem atomic_query {call : Call} {offered : Offered call} {encode : call.Result → Json}
    (h : ∀ answer, method.Answers texts lib params ⟨call, answer⟩
      (lib.bounded (outcome encode answer))) :
    Atomic Meant (contract texts lib context) (.call method.name params)
      (responding lib (attempt call offered >>= fun value => pure (encode value))) := by
  have hanswers : ∀ answer, Answers texts lib (.call method.name params) ⟨call, answer⟩
      (lib.bounded (outcome encode answer)) := fun answer => .called method rfl (h answer)
  intro answer meant hmeant
  cases hmeant with
  | storage =>
    refine ⟨fun hnone => (by cases hnone), fun act hact => ?_⟩
    cases hact
    refine ⟨⟨_, hanswers answer⟩, ?_⟩
    cases answer with
    | ok value => exact hanswers (.ok value)
    | error error => exact hanswers (.error error)
  | fault =>
    exact ⟨fun _ => .called method rfl (.failed (h (.error (.internal "")))),
      fun act hact => (by cases hact)⟩

/-- A handler that returns what a mutator answers, and wakes the controller if it succeeds. -/
theorem atomic_mutator {call : Timestamp → Call} {offered : ∀ now, Offered (call now)}
    {encode : ∀ {now}, (call now).Result → Json}
    (h : ∀ now answer, method.Answers texts lib params ⟨call now, answer⟩
      (lib.bounded (outcome encode answer))) :
    Atomic Meant (contract texts lib context) (.call method.name params)
      (responding lib (nowTimestamp >>= fun now => attempt (call now) (offered now) >>= fun value =>
        wake >>= fun _ => pure (encode value))) := by
  have hanswers : ∀ now answer, Answers texts lib (.call method.name params) ⟨call now, answer⟩
      (lib.bounded (outcome encode answer)) := fun now answer => .called method rfl (h now answer)
  intro now meant hmeant
  cases hmeant
  refine ⟨fun _ => ?_, fun act hact => by cases hact⟩
  intro answer meant hmeant
  cases hmeant with
  | storage =>
    refine ⟨fun hnone => (by cases hnone), fun act hact => ?_⟩
    cases hact
    refine ⟨⟨_, hanswers now answer⟩, ?_⟩
    cases answer with
    | ok value =>
      intro woken meant hmeant
      cases hmeant
      exact ⟨rfl, hanswers now (.ok value)⟩
    | error error => exact hanswers now (.error error)
  | fault =>
    exact ⟨fun _ => .called method rfl (.failed (h now (.error (.internal "")))),
      fun act hact => (by cases hact)⟩

/-- A handler reads its parameters first, and refuses those it does not accept. -/
theorem atomic_parseParams (haccepts : method.Accepts texts params ↔
      (wire.decode (params.getD .null)).isSome)
    (h : ∀ value, wire.decode (params.getD .null) = some value →
      Atomic Meant (contract texts lib context) (.call method.name params)
        (responding lib (rest value))) :
    Atomic Meant (contract texts lib context) (.call method.name params)
      (responding lib (parseParams (lib.describe method) wire params >>= rest)) := by
  cases hread : wire.decode (params.getD .null) with
  | none =>
    rw [parseParams_none hread]
    rw [hread] at haccepts
    exact .called method rfl (.refused fun haccepted => by cases haccepts.mp haccepted)
  | some value =>
    rw [parseParams_some hread]
    exact h value hread

end Handler

open Handler in
/-- Every handler does at most one call to `Storage`, and returns what it answers. -/
theorem atomic_handler (params : Option Json) (method : Method) :
    Atomic Meant (contract texts lib context) (.call method.name params)
      (responding lib (method.handler texts lib context params)) := by
  cases method with
  | systemInfo => exact atomic_parseParams .rfl fun _ hread => .called .systemInfo rfl (.info hread)
  | hostClaimCreate =>
    exact atomic_parseParams .rfl fun _ hread => atomic_mutator fun _ _ => .create hread
  | hostClaimGet => exact atomic_parseParams .rfl fun _ hread => atomic_query fun _ => .get hread
  | hostClaimList => exact atomic_parseParams .rfl fun _ hread => atomic_query fun _ => .list hread
  | hostClaimDelete =>
    exact atomic_parseParams .rfl fun _ hread => atomic_mutator fun _ _ => .delete hread
  | hostGet => exact atomic_parseParams .rfl fun _ hread => atomic_query fun _ => .getHost hread
  | hostList => exact atomic_parseParams .rfl fun _ hread => atomic_query fun _ => .listHosts hread

/-- The methods that are registered are those of the protocol, each under its name. -/
theorem lookup_rpcModule {methods : List (String × Method)} (h : rpcModule = .ok methods)
    (name : String) :
    (∃ method, name = method.name ∧ methods.lookup name = some method) ∨
      (∀ method : Method, name ≠ method.name) ∧ methods.lookup name = none := by
  have hall : rpcModule = .ok (Method.all.map fun method => (method.name, method)) := by decide
  rw [h] at hall
  cases hall
  have hmem : ∀ method : Method, method ∈ Method.all := by
    intro method
    cases method <;> decide
  cases hlookup : (Method.all.map fun method => (method.name, method)).lookup name with
  | none =>
    refine .inr ⟨fun method hname => ?_, rfl⟩
    have hnone := List.lookup_eq_none_iff.mp hlookup _
      (List.mem_map_of_mem (f := fun method => (method.name, method)) (hmem method))
    simp [hname] at hnone
  | some method =>
    obtain ⟨before, after, hsplit, -⟩ := List.lookup_eq_some_iff.mp hlookup
    have hin : (name, method) ∈ Method.all.map fun method => (method.name, method) := by
      rw [hsplit]
      exact List.mem_append_right _ List.mem_cons_self
    obtain ⟨other, -, heq⟩ := List.mem_map.mp hin
    obtain ⟨hname, rfl⟩ := Prod.mk.inj heq
    exact .inl ⟨other, hname.symm, rfl⟩

/-- Every message is served by at most one call to `Storage`. -/
theorem atomic_serveMessage {methods : List (String × Method)} (h : rpcModule = .ok methods)
    (message : Message) :
    Atomic Meant (contract texts lib context) message
      (serveMessage texts lib context methods message) := by
  cases message with
  | call name params =>
    unfold serveMessage
    dsimp only
    rcases lookup_rpcModule h name with ⟨method, rfl, hlookup⟩ | ⟨hunknown, hlookup⟩
    · rw [hlookup]
      exact atomic_handler params method
    · rw [hlookup]
      exact .unknown hunknown
  | notification method params => exact .notification
  | batch => exact .batch

/-! ## The daemon under its clients -/

/-- What the controller does to the tables, as calls. -/
theorem call_of_exec {world world' : World σ} {effect : Effect}
    {answer : ControlPlane.Answer effect} (h : World.exec P world effect answer world') :
    world'.database = world.database ∨
      ∃ call : Call, world'.database = (call.perform world.database).2 ∧
        ¬Handler.Offered call ∧ ∀ id, call = .finalizeClaim id → effect = .finalizeClaim id := by
  cases effect with
  | nowUnixMs | nowTimestamp | wake | enterSpan | listClaims | getHost | provider =>
    exact .inl (answered_reads rfl (.inl h))
  | ensureHost claimId planId resources =>
    obtain ⟨hostId, now, -, -, hworld⟩ := h
    refine .inr ⟨.ensureHost claimId planId resources hostId now, ?_, id,
      fun id heq => by cases heq⟩
    rw [hworld, ← Statements.perform_ensureHost]
    rfl
  | saveHost record =>
    refine .inr ⟨.saveHost record, ?_, id, fun id heq => by cases heq⟩
    rw [h.2, ← Statements.perform_saveHost]
    rfl
  | saveClaimStatus record =>
    refine .inr ⟨.saveClaimStatus record, ?_, id, fun id heq => by cases heq⟩
    rw [h.2, ← Statements.perform_saveClaimStatus]
    rfl
  | finalizeClaim claimId =>
    refine .inr ⟨.finalizeClaim claimId, ?_, id, fun id heq => by cases heq; rfl⟩
    rw [h.2, ← Statements.perform_finalizeClaim]
    rfl

/-- An effect of a handler is a step of the daemon that is not the controller's, or none. -/
theorem interfere_of_exec {c c' : Daemon σ} {effect : Handler.Effect}
    {answer : Handler.Answer effect} (h : Server.Exec c effect answer c') :
    c' = c ∨ (daemon P).Step reconcileOnce c .interfere c' := by
  obtain ⟨world, task, log⟩ := c
  cases h with
  | nowTimestamp => exact .inl rfl
  | fault => exact .inl rfl
  | wake => exact .inr (.interfere .wake)
  | @storage call offered =>
    cases call with
    | createClaim id spec now =>
      refine .inr (.interfere ?_)
      show World.Interfere P world
        { world with
          database := (Session.perform (Statements.createClaim id spec now) world.database).2 }
      rw [Statements.perform_createClaim]
      exact .createClaim id spec now
    | markClaimDeleting id now =>
      refine .inr (.interfere ?_)
      show World.Interfere P world
        { world with
          database := (Session.perform (Statements.markClaimDeleting id now) world.database).2 }
      rw [Statements.perform_markClaimDeleting]
      exact .markClaimDeleting id now
    | getClaim | listClaims | getHost | listHosts => exact .inl rfl
    | saveClaimStatus | ensureHost | saveHost | finalizeClaim => cases offered

section Server

variable {methods : List (String × Method)} {provider : σ} {s : ServerState σ}

/-- With its clients, the daemon goes through states of the daemon. -/
theorem daemon_of_server
    (h : (server P texts lib context methods).Reach (ServerState.initial provider) s) :
    Reachable P System.anyStep provider s.world := by
  induction h with
  | refl => exact .refl
  | tail _ hstep ih =>
    cases hstep with
    | invoke | respond | abandon => exact ih
    | crash hcrash => exact System.Reach.step ih hcrash trivial
    | others hothers =>
      cases hothers with
      | controller hstep => exact System.Reach.step ih hstep trivial
      | drift hdrift => exact System.Reach.step ih (.interfere (.drift _ hdrift)) trivial
    | perform _ hexec =>
      rcases interfere_of_exec hexec with hsame | hstep
      · rw [hsame]
        exact ih
      · exact System.Reach.step ih hstep trivial

/-- The store, where a claim is closed only after its deletion was asked for. -/
def Store.governed : Machine Answered Store where
  step store act store' := store.Does act store' ∧
    ∀ id claim, act.call = .finalizeClaim id → store.claim id = some claim →
      claim.resource.deletionTimestamp.isSome

/-- What a reachable daemon has stored. -/
structure Stores (P : ProviderModel σ) (provider : σ) (c : Daemon σ) (store : Store) : Prop where
  reachable : Reachable P System.anyStep provider c
  stored : c.world.database.store? = store

theorem Stores.readable {c : Daemon σ} {store : Store} (h : Stores P provider c store) :
    c.world.database.Readable :=
  have hinv : c.world.database.Invariant := (Reachable.sound h.reachable).inv
  hinv.readable

/-- A step that leaves the tables alone is none of the store. -/
theorem Stores.stutter {c c' : Daemon σ} {store : Store} (h : Stores P provider c store)
    (hreachable : Reachable P System.anyStep provider c')
    (hsame : c'.world.database = c.world.database) :
    Simulated Store.governed (Stores P provider) store c' none :=
  .stutter ⟨hreachable, by rw [hsame]; exact h.stored⟩

/-- A call is an action of the store. -/
theorem Stores.call {c c' : Daemon σ} {store : Store} (h : Stores P provider c store)
    (hreachable : Reachable P System.anyStep provider c') (call : Call)
    (hcall : c'.world.database = (call.perform c.world.database).2)
    (hgoverned : ∀ id claim, call = .finalizeClaim id → store.claim id = some claim →
      claim.resource.deletionTimestamp.isSome) :
    Simulated Store.governed (Stores P provider) store c'
      (some ⟨call, (call.perform c.world.database).1⟩) := by
  have hdoes := call.does h.readable
  rw [h.stored] at hdoes
  exact .action ⟨hdoes, hgoverned⟩ ⟨hreachable, by rw [hcall]⟩

/-- A step of the controller is an action of the store, or none. -/
theorem Stores.controller {c c' : Daemon σ} {store : Store} {label : Label}
    (h : Stores P provider c store) (hstep : (daemon P).Step reconcileOnce c label c')
    (hother : label ≠ .interfere) (hcrash : label ≠ .crash) :
    ∃ meant, Simulated Store.governed (Stores P provider) store c' meant ∧
      ∀ act ∈ meant, ¬Handler.Offered act.call := by
  have hreachable := System.Reach.step h.reachable hstep trivial
  have sound := Reachable.sound h.reachable
  have hnone : ∀ act ∈ (none : Option Answered), ¬Handler.Offered act.call := fun _ hmem => by
    cases hmem
  cases hstep with
  | interfere => exact absurd rfl hother
  | crash => exact absurd rfl hcrash
  | start => exact ⟨_, h.stutter hreachable rfl, hnone⟩
  | finish => exact ⟨_, h.stutter hreachable rfl, hnone⟩
  | fault hfault => exact ⟨_, h.stutter hreachable (by rw [fault_world hfault]), hnone⟩
  | @perform world effect next answer world' log hexec =>
    rcases call_of_exec hexec with hsame | ⟨call, hcall, hoffered, hfinal⟩
    · exact ⟨_, h.stutter hreachable hsame, hnone⟩
    · refine ⟨_, h.call hreachable call hcall fun id claim heq hclaim => ?_, fun act hmem => ?_⟩
      · have hawait : AwaitPoint log world.database effect := sound.issue rfl
        rw [hfinal id heq] at hawait
        obtain ⟨stored, hstored, hdeleting, -⟩ := hawait.finalizeClaim_cases
        have hsame : world.database.store?.claim id = some claim := by
          rw [show world.database.store? = store from h.stored]
          exact hclaim
        rw [show world.database.store?.claim id = some stored from hstored] at hsame
        cases hsame
        exact hdeleting
      · cases hmem
        exact hoffered

/-- The server does what its contract with the store says. -/
theorem server_implements (hmethods : rpcModule = .ok methods) :
    (server P texts lib context methods).Implements Store.governed (contract texts lib context)
      Meant (Stores P provider) where
  atomic := atomic_serveMessage hmethods
  exec := by
    intro c effect answer c' store hexec h
    have hreachable : Reachable P System.anyStep provider c' := by
      rcases interfere_of_exec hexec with hsame | hstep
      · rw [hsame]
        exact h.reachable
      · exact System.Reach.step h.reachable hstep trivial
    cases hexec with
    | nowTimestamp => exact ⟨_, .nowTimestamp, h.stutter hreachable rfl⟩
    | fault => exact ⟨_, .fault, h.stutter hreachable rfl⟩
    | wake => exact ⟨_, .wake, h.stutter hreachable rfl⟩
    | @storage call offered =>
      refine ⟨_, .storage, h.call hreachable call rfl fun id claim heq _ => ?_⟩
      subst heq
      cases offered
  others := by
    intro c c' store hothers h
    cases hothers with
    | controller hstep hother hcrash => exact h.controller hstep hother hcrash
    | drift hdrift =>
      have hreachable := System.Reach.step h.reachable (.interfere (.drift _ hdrift)) trivial
      exact ⟨_, h.stutter hreachable rfl, fun act hmem => by cases hmem⟩
  crash := by
    intro c c' store hcrash h
    refine ⟨System.Reach.step h.reachable hcrash trivial, ?_⟩
    cases hcrash with
    | crash hcrash =>
      obtain ⟨provider', -, rfl⟩ := hcrash
      exact h.stored

/-- The invariant of the server, at what the daemon has stored. -/
theorem linear_of_server (hmethods : rpcModule = .ok methods)
    (h : (server P texts lib context methods).Reach (ServerState.initial provider) s) :
    ∃ order, Serving.Linear Store.governed (contract texts lib context) Meant (Stores P provider)
      Store.empty s order s.world.world.database.store? := by
  have hstart : Stores P provider (.idle (World.initial provider)) Store.empty := ⟨.refl, rfl⟩
  obtain ⟨order, last, hlinear⟩ := Serving.Reach.linear h (server_implements hmethods) hstart
  obtain rfl := hlinear.related.stored
  exact ⟨order, hlinear⟩

/-- Whatever the controller, the other requests, failures and crashes do, requests are answered as
    the store answers them in one order, which keeps to real time; a request that fails otherwise
    has done nothing. -/
theorem requests_are_linearizable (hmethods : rpcModule = .ok methods)
    (h : (server P texts lib context methods).Reach (ServerState.initial provider) s) :
    ∃ order, Linearization Store.governed (contract texts lib context) Store.empty s.history order
      s.world.world.database.store? := by
  obtain ⟨order, hlinear⟩ := linear_of_server hmethods h
  exact ⟨order, hlinear.linearization⟩

end Server

/-! ## A run of the server -/

namespace OneClient

/-- What the libraries answer, as far as this run shows it. -/
def library : Jsonrpsee where
  describe _ _ := "Invalid params"
  methodNotFound := ⟨-32601, "Method not found", none⟩
  batchesNotSupported := ⟨-32005, "Batch requests are not supported", none⟩
  oversizedResponse := ⟨-32008, "Response is too big", none⟩
  size _ := 512

def methods : List (String × Method) := Method.all.map fun method => (method.name, method)

/-- The claim that is created, and its parameters on the wire. -/
def params : CreateHostClaimParams := ⟨⟨"00000000-0000-0000-0000-000000000001"⟩, ⟨⟨1, 1, 1⟩⟩⟩

def created : HostClaim := initialClaim params.id params.spec ⟨0⟩

def createParams : Json := .object [("id", .string params.id.text),
  ("spec", .object [("resources", .object
    [("vcpus", .integer 1), ("memory_bytes", .integer 1), ("storage_bytes", .integer 1)])])]

def getParams : Json := .object [("id", .string params.id.text)]

/-- The server of the run. -/
noncomputable abbrev oneServer :=
  server Script.model Texts.canonical library ⟨"0.1.0", "rustc", ⟨0⟩⟩ methods

/-- The history of the run: a claim is created and then asked for. -/
noncomputable def history : List (Seen Message RpcReply) :=
  [.invoked 0 (.call Method.hostClaimCreate.name (some createParams)),
    .responded 0 (some (.ok ((Wire.hostClaim Texts.canonical).encode created))),
    .invoked 1 (.call Method.hostClaimGet.name (some getParams)),
    .responded 1 (some (.ok ((Wire.hostClaim Texts.canonical).encode created)))]

/-- The run. -/
theorem reachable : ∃ s, oneServer.Reach (ServerState.initial Script.willing) s ∧
    s.history = history := by
  have hstart : oneServer.Reach (ServerState.initial Script.willing)
    (ServerState.initial Script.willing) := .refl
  have hcreated := Serving.Reach.serve hstart 0
    (.call Method.hostClaimCreate.name (some createParams)) (fun _ hmem => by cases hmem)
    (.call (@Server.Exec.nowTimestamp _ _ ⟨0⟩) (.call .storage (.call .wake .done)))
  have hgot := Serving.Reach.serve hcreated 1 (.call Method.hostClaimGet.name (some getParams))
    (fun _ hmem => ?_) (.call .storage .done)
  · exact ⟨_, hgot, rfl⟩
  · simp [ServerState.initial, Serving.State.idle] at hmem

end OneClient

/-- The daemon under that client. -/
theorem daemon_of_oneClient : ∃ s : ServerState Script, s.history = OneClient.history ∧
    Reachable Script.model System.anyStep Script.willing s.world := by
  obtain ⟨s, h, hhistory⟩ := OneClient.reachable
  exact ⟨s, hhistory, daemon_of_server h⟩

/-- The history of that client. -/
theorem linearizable_of_oneClient : ∃ order last, Linearization Store.governed
    (contract Texts.canonical OneClient.library ⟨"0.1.0", "rustc", ⟨0⟩⟩) Store.empty
    OneClient.history order last := by
  obtain ⟨s, h, hhistory⟩ := OneClient.reachable
  obtain ⟨order, hlinear⟩ := requests_are_linearizable (show rpcModule = _ by decide) h
  rw [hhistory] at hlinear
  exact ⟨order, _, hlinear⟩

end ControlPlane
