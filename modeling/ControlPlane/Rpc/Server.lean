import ControlPlane.Controller.World
import ControlPlane.Interaction.Requests
import ControlPlane.Rpc.Methods

/-!
# The daemon and its clients

The local RPC server beside the controller: any number of requests in flight, each run by its
handler, on the database the controller works on. The calls to `Storage` of the handlers and of
the controller interleave; a call may fail for a reason of the database; a connection that is
closed, or times out, drops its handler; a crash drops all of them and the pass in progress.
-/

namespace ControlPlane

open Interaction

variable {σ : Type}

namespace Server

/-- An effect of a handler, done and answered. A call to `Storage` that fails for a reason of the
    database has written nothing. -/
inductive Exec (c : Daemon σ) : (effect : Handler.Effect) → Handler.Answer effect → Daemon σ →
    Prop where
  | nowTimestamp {now} : Exec c .nowTimestamp now c
  | storage {call offered} :
      Exec c (.storage call offered) (call.perform c.world.database).1
        { c with world.database := (call.perform c.world.database).2 }
  | fault {call offered text} : Exec c (.storage call offered) (.error (.internal text)) c
  | wake : Exec c .wake () { c with world.permit := true }

/-- A step of the controller, or of the provider on its own. -/
inductive Others (P : ProviderModel σ) (c : Daemon σ) : Daemon σ → Prop where
  | controller {label c'} : (daemon P).Step reconcileOnce c label c' → label ≠ .interfere →
      label ≠ .crash → Others P c c'
  | drift {provider} : P.drift c.world.provider provider →
      Others P c { c with world.provider := provider }

end Server

/-- The daemon with its clients. -/
def server (P : ProviderModel σ) (texts : Texts) (lib : Jsonrpsee) (context : RpcContext)
    (methods : List (String × Method)) :
    Serving Message RpcReply Handler.Effect Handler.Answer (Daemon σ) where
  main := serveMessage texts lib context methods
  exec := Server.Exec
  others := Server.Others P
  crash c c' := (daemon P).Step reconcileOnce c .crash c'

/-- A state of the daemon and its clients. -/
abbrev ServerState (σ : Type) :=
  Serving.State Message RpcReply Handler.Effect Handler.Answer (Daemon σ)

/-- A server started for the first time. -/
def ServerState.initial (provider : σ) : ServerState σ := .idle (.idle (World.initial provider))

/-! ## What requests ask of the store -/

/-- The outcome of a handler that returns what a call answers. -/
def outcome {α : Type} (encode : α → Json) : Except AppError α → Except ErrorObject Json
  | .ok value => .ok (encode value)
  | .error error => .error error.intoRpcError

/-- The parameters a method reads. -/
def Method.Accepts (texts : Texts) (params : Option Json) : Method → Prop
  | .systemInfo | .hostClaimList | .hostList =>
    (Wire.emptyParams.decode (params.getD .null)).isSome
  | .hostClaimCreate => ((Wire.createHostClaimParams texts).decode (params.getD .null)).isSome
  | .hostClaimGet => ((Wire.getHostClaimParams texts).decode (params.getD .null)).isSome
  | .hostClaimDelete => ((Wire.deleteHostClaimParams texts).decode (params.getD .null)).isSome
  | .hostGet => ((Wire.getHostParams texts).decode (params.getD .null)).isSome

/-- The call to `Storage` a method makes, and the reply that is made of its answer. -/
inductive Method.Answers (texts : Texts) (lib : Jsonrpsee) (params : Option Json) :
    Method → Storage.Answered → RpcReply → Prop where
  | create {claim now answer} :
      (Wire.createHostClaimParams texts).decode (params.getD .null) = some claim →
      Answers texts lib params .hostClaimCreate ⟨.createClaim claim.id claim.spec now, answer⟩
        (lib.bounded (outcome (Wire.hostClaim texts).encode answer))
  | get {id answer} : (Wire.getHostClaimParams texts).decode (params.getD .null) = some id →
      Answers texts lib params .hostClaimGet ⟨.getClaim id, answer⟩
        (lib.bounded (outcome (fun record : HostClaimRecord =>
          (Wire.hostClaim texts).encode record.resource) answer))
  | list {answer} : Wire.emptyParams.decode (params.getD .null) = some () →
      Answers texts lib params .hostClaimList ⟨.listClaims, answer⟩
        (lib.bounded (outcome (fun records : List HostClaimRecord =>
          (Wire.hostClaimList texts).encode ⟨records.map (·.resource)⟩) answer))
  | delete {id now answer} :
      (Wire.deleteHostClaimParams texts).decode (params.getD .null) = some id →
      Answers texts lib params .hostClaimDelete ⟨.markClaimDeleting id now, answer⟩
        (lib.bounded (outcome (Wire.hostClaim texts).encode answer))
  | getHost {id answer} : (Wire.getHostParams texts).decode (params.getD .null) = some id →
      Answers texts lib params .hostGet ⟨.getHost id, answer⟩
        (lib.bounded (outcome (fun record : HostRecord =>
          (Wire.host texts).encode record.resource) answer))
  | listHosts {answer} : Wire.emptyParams.decode (params.getD .null) = some () →
      Answers texts lib params .hostList ⟨.listHosts, answer⟩
        (lib.bounded (outcome (fun records : List HostRecord =>
          (Wire.hostList texts).encode ⟨records.map (·.resource)⟩) answer))

/-- The replies of a method that has called nothing: it refuses its parameters, it is
    `system.info`, or its call has failed for a reason of the database. -/
inductive Method.Aside (texts : Texts) (lib : Jsonrpsee) (context : RpcContext)
    (params : Option Json) : Method → RpcReply → Prop where
  | refused {method : Method} : ¬method.Accepts texts params →
      Aside texts lib context params method
        (lib.bounded (.error
          (AppError.invalidArgument (lib.describe method (params.getD .null))).intoRpcError))
  | info : Wire.emptyParams.decode (params.getD .null) = some () →
      Aside texts lib context params .systemInfo
        (lib.bounded (.ok ((Wire.systemInfoResult texts).encode {
          systemName := "Control Plane"
          binaryVersion := context.cargoPkgVersion
          rustVersion := context.controlPlaneRustcVersion
          protocolVersion
          startedAt := context.startedAt })))
  | failed {method : Method} {act reply text} : method.Answers texts lib params act reply →
      Aside texts lib context params method
        (lib.bounded (.error (AppError.internal text).intoRpcError))

/-- The call to `Storage` a message asks for, and the reply it then gets. -/
inductive Answers (texts : Texts) (lib : Jsonrpsee) : Message → Storage.Answered → RpcReply →
    Prop where
  | called {name params act reply} (method : Method) : name = method.name →
      method.Answers texts lib params act reply → Answers texts lib (.call name params) act reply

/-- The replies to a message that has called nothing. -/
inductive Aside (texts : Texts) (lib : Jsonrpsee) (context : RpcContext) : Message → RpcReply →
    Prop where
  | notification {method params} : Aside texts lib context (.notification method params) none
  | batch : Aside texts lib context .batch (some (.error lib.batchesNotSupported))
  | unknown {name params} : (∀ method : Method, name ≠ method.name) →
      Aside texts lib context (.call name params) (lib.bounded (.error lib.methodNotFound))
  | called {name params reply} (method : Method) : name = method.name →
      method.Aside texts lib context params reply →
      Aside texts lib context (.call name params) reply

/-- What messages ask of the store. -/
def contract (texts : Texts) (lib : Jsonrpsee) (context : RpcContext) :
    Contract Message RpcReply Storage.Answered where
  answers := Answers texts lib
  aside := Aside texts lib context
  others act := ¬Handler.Offered act.call

/-- What an effect of a handler may have been for the store: a call that fails for a reason of the
    database is none. -/
inductive Meant : (effect : Handler.Effect) → Handler.Answer effect → Option Storage.Answered →
    Prop where
  | nowTimestamp {now} : Meant .nowTimestamp now none
  | wake : Meant .wake () none
  | storage {call offered answer} : Meant (.storage call offered) answer (some ⟨call, answer⟩)
  | fault {call offered text} : Meant (.storage call offered) (.error (.internal text)) none

end ControlPlane
