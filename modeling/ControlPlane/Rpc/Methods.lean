import ControlPlane.Protocol.Wire
import ControlPlane.Storage.Calls

/-!
# The methods of the local RPC server

`rpc_module`: what every method reads from its parameters, which calls to `Storage` it awaits, when
it wakes the controller and what it answers, and `AppError::into_rpc_error`. A handler is a program
over these effects. The text of a `serde` error is a parameter.
-/

namespace ControlPlane

open Interaction

/-! ## Errors -/

/-- `ErrorObjectOwned`. -/
structure ErrorObject where
  code : Int32
  message : String
  data : Option Json

/-- `INVALID_ARGUMENT_CODE`. -/
def invalidArgumentCode : Int32 := -32100

/-- `NOT_FOUND_CODE`. -/
def notFoundCode : Int32 := -32101

/-- `CONFLICT_CODE`. -/
def conflictCode : Int32 := -32102

/-- `jsonrpsee::types::error::INTERNAL_ERROR_CODE`. -/
def internalErrorCode : Int32 := -32603

/-- The code, the kind, the resource and the message of an error. -/
def AppError.described : AppError → Int32 × RpcErrorKind × Option String × String
  | .invalidArgument message => (invalidArgumentCode, .invalidArgument, none, message)
  | .notFound resourceType resourceId =>
    (notFoundCode, .notFound, some resourceId, s!"{resourceType} {resourceId} was not found")
  | .conflict resourceType resourceId message =>
    (conflictCode, .conflict, some resourceId,
      s!"conflict for {resourceType} {resourceId}: {message}")
  | .internal _ => (internalErrorCode, .internal, none, "Internal error")

/-- `AppError::into_rpc_error`. -/
def AppError.intoRpcError (error : AppError) : ErrorObject :=
  let (code, kind, resourceId, message) := error.described
  { code, message, data := some (Wire.rpcErrorData.encode { kind, resourceId, details := none }) }

namespace Handler

/-! ## Programs -/

/-- The calls to `Storage` that handlers make. -/
def Offered : Storage.Call → Prop
  | .createClaim _ _ _ | .getClaim _ | .listClaims | .markClaimDeleting _ _ | .getHost _
  | .listHosts => True
  | .saveClaimStatus _ | .ensureHost _ _ _ _ _ | .saveHost _ | .finalizeClaim _ => False

/-- What a handler reaches outside itself; `nowTimestamp` is the `Timestamp::now()` of a mutator of
    `Storage`. -/
inductive Effect where
  | nowTimestamp
  | storage (call : Storage.Call) (offered : Offered call)
  | wake

/-- What an effect answers. -/
abbrev Answer : Effect → Type
  | .nowTimestamp => Timestamp
  | .storage call _ => Except AppError call.Result
  | .wake => Unit

end Handler

/-- A handler, up to its result or its error. -/
abbrev Handler := ExceptT ErrorObject (Program Handler.Effect Handler.Answer) Json

/-- What the server is built with and when it was started: the environment of the build, and the
    fields of `RpcContext` that are no handles. -/
structure RpcContext where
  cargoPkgVersion : String
  controlPlaneRustcVersion : String
  startedAt : Timestamp

/-- `PROTOCOL_VERSION`. -/
def protocolVersion : String := "1"

namespace Handler

/-- A part of a handler. -/
abbrev Part (α : Type) := ExceptT ErrorObject (Program Effect Answer) α

/-- `parse_params`. Absent parameters are read as `null`; `describe` is what `serde` says about
    those it refuses. -/
def parseParams {α : Type} (describe : Json → String) (wire : Wire α) (params : Option Json) :
    Part α :=
  match wire.decode (params.getD .null) with
  | some value => pure value
  | none => throw (AppError.invalidArgument (describe (params.getD .null))).intoRpcError

/-- Await a call to `Storage` and return its error, as `map_err(AppError::into_rpc_error)?` does. -/
def attempt (call : Storage.Call) (offered : Offered call) : Part call.Result :=
  ExceptT.mk do
    match ← Program.perform (Effect.storage call offered) with
    | .ok value => pure (.ok value)
    | .error error => pure (.error error.intoRpcError)

/-- `Timestamp::now` -/
def nowTimestamp : Part Timestamp :=
  ExceptT.lift (Program.perform Effect.nowTimestamp)

/-- `ReconcileHandle::wake` -/
def wake : Part Unit :=
  ExceptT.lift (Program.perform Effect.wake)

variable (texts : Texts) (describe : Json → String)

/-! ## Methods -/

/-- `system.info` -/
def systemInfo (context : RpcContext) (params : Option Json) : Handler := do
  let _ ← parseParams describe Wire.emptyParams params
  return (Wire.systemInfoResult texts).encode {
    systemName := "Control Plane"
    binaryVersion := context.cargoPkgVersion
    rustVersion := context.controlPlaneRustcVersion
    protocolVersion
    startedAt := context.startedAt }

/-- `host.claim.create` -/
def hostClaimCreate (params : Option Json) : Handler := do
  let params ← parseParams describe (Wire.createHostClaimParams texts) params
  let now ← nowTimestamp
  let claim ← attempt (.createClaim params.id params.spec now) trivial
  wake
  return (Wire.hostClaim texts).encode claim

/-- `host.claim.get` -/
def hostClaimGet (params : Option Json) : Handler := do
  let id ← parseParams describe (Wire.getHostClaimParams texts) params
  let record ← attempt (.getClaim id) trivial
  return (Wire.hostClaim texts).encode record.resource

/-- `host.claim.list` -/
def hostClaimList (params : Option Json) : Handler := do
  let _ ← parseParams describe Wire.emptyParams params
  let records ← attempt .listClaims trivial
  return (Wire.hostClaimList texts).encode ⟨records.map (·.resource)⟩

/-- `host.claim.delete` -/
def hostClaimDelete (params : Option Json) : Handler := do
  let id ← parseParams describe (Wire.deleteHostClaimParams texts) params
  let now ← nowTimestamp
  let claim ← attempt (.markClaimDeleting id now) trivial
  wake
  return (Wire.hostClaim texts).encode claim

/-- `host.get` -/
def hostGet (params : Option Json) : Handler := do
  let id ← parseParams describe (Wire.getHostParams texts) params
  let record ← attempt (.getHost id) trivial
  return (Wire.host texts).encode record.resource

/-- `host.list` -/
def hostList (params : Option Json) : Handler := do
  let _ ← parseParams describe Wire.emptyParams params
  let records ← attempt .listHosts trivial
  return (Wire.hostList texts).encode ⟨records.map (·.resource)⟩

end Handler

/-- The constants of `method`. -/
inductive Method where
  | systemInfo
  | hostClaimCreate
  | hostClaimGet
  | hostClaimList
  | hostClaimDelete
  | hostGet
  | hostList
  deriving DecidableEq

/-- The name of a method. -/
def Method.name : Method → String
  | .systemInfo => "system.info"
  | .hostClaimCreate => "host.claim.create"
  | .hostClaimGet => "host.claim.get"
  | .hostClaimList => "host.claim.list"
  | .hostClaimDelete => "host.claim.delete"
  | .hostGet => "host.get"
  | .hostList => "host.list"

/-- The methods, in the order in which `rpc_module` registers them. -/
def Method.all : List Method :=
  [.systemInfo, .hostClaimCreate, .hostClaimGet, .hostClaimList, .hostClaimDelete, .hostGet,
    .hostList]

/-- `RpcModule::register_async_method`: a name is registered once. -/
def registerAsyncMethod (methods : List (String × Method)) (method : Method) :
    Except String (List (String × Method)) :=
  if (methods.lookup method.name).isSome then
    .error s!"Method {method.name} was already registered"
  else .ok (methods ++ [(method.name, method)])

/-- `rpc_module` -/
def rpcModule : Except String (List (String × Method)) :=
  Method.all.foldlM registerAsyncMethod []

/-! ## Messages -/

/-- What arrives in a request body. -/
inductive Message where
  | call (method : String) (params : Option Json)
  | notification (method : String) (params : Option Json)
  | batch

/-- What the body of the response tells; `none` is the empty `MethodResponse::notification()`. -/
abbrev RpcReply := Option (Except ErrorObject Json)

/-- What `jsonrpsee` answers on its own: what `serde` says about parameters a method refuses, the
    errors for methods nobody registered and for batches, the size of a response in bytes and the
    error it puts in the place of one that is too large. -/
structure Jsonrpsee where
  describe : Method → Json → String
  methodNotFound : ErrorObject
  batchesNotSupported : ErrorObject
  oversizedResponse : ErrorObject
  size : Except ErrorObject Json → Nat

/-- `MAX_RESPONSE_BYTES`. -/
def maxResponseBytes : Nat := 4 * 1024 * 1024

/-- The response of a call, unless it is too large. -/
def Jsonrpsee.bounded (lib : Jsonrpsee) (outcome : Except ErrorObject Json) : RpcReply :=
  some (if lib.size outcome ≤ maxResponseBytes then outcome else .error lib.oversizedResponse)

variable (texts : Texts) (lib : Jsonrpsee) (context : RpcContext)

/-- The handler registered for a method. -/
def Method.handler (params : Option Json) : Method → Handler
  | .systemInfo => Handler.systemInfo texts (lib.describe .systemInfo) context params
  | .hostClaimCreate => Handler.hostClaimCreate texts (lib.describe .hostClaimCreate) params
  | .hostClaimGet => Handler.hostClaimGet texts (lib.describe .hostClaimGet) params
  | .hostClaimList => Handler.hostClaimList texts (lib.describe .hostClaimList) params
  | .hostClaimDelete => Handler.hostClaimDelete texts (lib.describe .hostClaimDelete) params
  | .hostGet => Handler.hostGet texts (lib.describe .hostGet) params
  | .hostList => Handler.hostList texts (lib.describe .hostList) params

/-- What the server does with a message: it calls the method, once; `RejectNotifications` answers
    a notification without calling anything, and batches are disabled. -/
def serveMessage (methods : List (String × Method)) : Message →
    Program Handler.Effect Handler.Answer RpcReply
  | .call name params =>
    match methods.lookup name with
    | some method => do
      let outcome ← (method.handler texts lib context params).run
      return lib.bounded outcome
    | none => return lib.bounded (.error lib.methodNotFound)
  | .notification _ _ => return none
  | .batch => return some (.error lib.batchesNotSupported)

end ControlPlane
