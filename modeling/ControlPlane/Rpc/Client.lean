import ControlPlane.Rpc.Methods

/-!
# The operator client

`RpcClient::call` of `control-cli` after the exchange of the two bodies: the envelope it puts
around the parameters, and what it makes of the response. The commands of `run` are the calls it
makes, each with the type of its result.
-/

namespace ControlPlane

/-- `JsonRpcErrorObject`. -/
structure JsonRpcErrorObject where
  code : Int32
  message : String
  data : Option Json

/-- `JsonRpcResponse<R>`. -/
structure JsonRpcResponse (R : Type) where
  jsonrpc : String
  id : String
  result : Option R
  error : Option JsonRpcErrorObject

namespace Wire

open Json

/-- `JsonRpcRequest<P>`, which is only written. -/
def encodeRequest (id method : String) (params : Json) : Json :=
  .object [("jsonrpc", .string "2.0"), ("id", .string id), ("method", .string method),
    ("params", params)]

/-- `JsonRpcErrorObject`, which is only read; its `data` has a default, so that an array may end
    before it. -/
def decodeErrorObject (json : Json) : Option JsonRpcErrorObject := do
  let members ←
    match json with
    | .array [code, message] => some [("code", code), ("message", message)]
    | json => fields ["code", "message", "data"] json
  return {
    code := ← required int32.decode "code" members
    message := ← required string.decode "message" members
    data := ← optional value.decode "data" members }

/-- `JsonRpcResponse<R>`, which is only read. -/
def decodeResponse {R : Type} (result : Wire R) (json : Json) : Option (JsonRpcResponse R) := do
  let members ← fields ["jsonrpc", "id", "result", "error"] json
  return {
    jsonrpc := ← required string.decode "jsonrpc" members
    id := ← required string.decode "id" members
    result := ← optional result.decode "result" members
    error := ← optional decodeErrorObject "error" members }

end Wire

/-- The errors of `RpcClient::call` once it has a body. `rpc` is `RpcCallError`. -/
inductive CallError where
  | decode
  | unsupportedVersion (version : String)
  | idMismatch (expected received : String)
  | rpc (error : JsonRpcErrorObject)
  | both
  | neither

/-- The end of `RpcClient::call`. -/
def RpcClient.finish {R : Type} (result : Wire R) (requestId : String) (body : Json) :
    Except CallError R := do
  let some response := Wire.decodeResponse result body | throw .decode
  if response.jsonrpc ≠ "2.0" then
    throw (.unsupportedVersion response.jsonrpc)
  if response.id ≠ requestId then
    throw (.idMismatch requestId response.id)
  match response.result, response.error with
  | some value, none => return value
  | none, some error => throw (.rpc error)
  | some _, some _ => throw .both
  | none, none => throw .neither

/-- The commands of `run`, with the identity `HostCommand::Create` was given or has drawn. -/
inductive Command where
  | systemInfo
  | claimCreate (id : HostClaimId) (vcpus : UInt32) (memory storage : UInt64)
  | claimGet (id : HostClaimId)
  | claimList
  | claimDelete (id : HostClaimId)
  | hostGet (id : HostId)
  | hostList

namespace Command

/-- The type a command decodes its result into. -/
abbrev Result : Command → Type
  | .systemInfo => SystemInfoResult
  | .claimCreate _ _ _ _ => HostClaim
  | .claimGet _ => HostClaim
  | .claimList => HostClaimList
  | .claimDelete _ => HostClaim
  | .hostGet _ => Host
  | .hostList => HostList

/-- The method a command calls. -/
def method : Command → Method
  | .systemInfo => .systemInfo
  | .claimCreate _ _ _ _ => .hostClaimCreate
  | .claimGet _ => .hostClaimGet
  | .claimList => .hostClaimList
  | .claimDelete _ => .hostClaimDelete
  | .hostGet _ => .hostGet
  | .hostList => .hostList

variable (texts : Texts)

/-- The parameters it sends. -/
def params : Command → Json
  | .systemInfo | .claimList | .hostList => Wire.emptyParams.encode ()
  | .claimCreate id vcpus memory storage =>
    (Wire.createHostClaimParams texts).encode ⟨id, ⟨⟨vcpus, memory, storage⟩⟩⟩
  | .claimGet id => (Wire.getHostClaimParams texts).encode id
  | .claimDelete id => (Wire.deleteHostClaimParams texts).encode id
  | .hostGet id => (Wire.getHostParams texts).encode id

/-- How its result is read. -/
def wire : (command : Command) → Wire command.Result
  | .systemInfo => Wire.systemInfoResult texts
  | .claimCreate _ _ _ _ => Wire.hostClaim texts
  | .claimGet _ => Wire.hostClaim texts
  | .claimList => Wire.hostClaimList texts
  | .claimDelete _ => Wire.hostClaim texts
  | .hostGet _ => Wire.host texts
  | .hostList => Wire.hostList texts

/-- The body it sends. -/
def request (requestId : String) (command : Command) : Json :=
  Wire.encodeRequest requestId command.method.name (command.params texts)

/-- What it makes of the body it receives. -/
def finish (requestId : String) (command : Command) (body : Json) :
    Except CallError command.Result :=
  RpcClient.finish (command.wire texts) requestId body

end Command

end ControlPlane
