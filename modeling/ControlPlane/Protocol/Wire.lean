import ControlPlane.Json
import ControlPlane.Timestamps

/-!
# The wire format

How the types of `control-plane-protocol` are serialized and deserialized (`resources.rs`,
`rpc.rs`): every record refuses members it does not know. The texts of identities and instants
are read by the `uuid` and `jiff` crates, which are a parameter here.
-/

namespace ControlPlane

/-- What `Uuid::parse_str` and `Timestamp::from_str` make of a text: the canonical form of the
    identity, and an instant. Both read what their `Display` prints. -/
structure Texts where
  uuid : String → Option String
  timestamp : String → Option Timestamp
  uuid_canonical : ∀ {text canonical}, uuid text = some canonical → uuid canonical = some canonical
  timestamp_text : ∀ {t}, t.Representable → timestamp t.text = some t
  timestamp_representable : ∀ {text t}, timestamp text = some t → t.Representable

/-! ## Resources -/

/-- `ConditionStatus`, renamed to snake case. -/
def ConditionStatus.name : ConditionStatus → String
  | .true => "true"
  | .false => "false"
  | .unknown => "unknown"

/-- `HostPhase`, renamed to snake case. -/
def HostPhase.name : HostPhase → String
  | .pending => "pending"
  | .provisioning => "provisioning"
  | .ready => "ready"
  | .deleting => "deleting"
  | .failed => "failed"

namespace Wire

open Json

def conditionStatus : Wire ConditionStatus where
  encode status := .string status.name
  decode json := do
    match ← variant json with
    | "true" => return .true
    | "false" => return .false
    | "unknown" => return .unknown
    | _ => none

def hostPhase : Wire HostPhase where
  encode phase := .string phase.name
  decode json := do
    match ← variant json with
    | "pending" => return .pending
    | "provisioning" => return .provisioning
    | "ready" => return .ready
    | "deleting" => return .deleting
    | "failed" => return .failed
    | _ => none

def hostResources : Wire HostResources where
  encode resources := .object [
    ("vcpus", uint32.encode resources.vcpus),
    ("memory_bytes", uint64.encode resources.memoryBytes),
    ("storage_bytes", uint64.encode resources.storageBytes)]
  decode json := do
    let members ← fields ["vcpus", "memory_bytes", "storage_bytes"] json
    return {
      vcpus := ← required uint32.decode "vcpus" members
      memoryBytes := ← required uint64.decode "memory_bytes" members
      storageBytes := ← required uint64.decode "storage_bytes" members }

def hostClaimSpec : Wire HostClaimSpec where
  encode spec := .object [("resources", hostResources.encode spec.resources)]
  decode json := do
    let members ← fields ["resources"] json
    return { resources := ← required hostResources.decode "resources" members }

section

variable (texts : Texts)

/-- `resource_id!`: a type of identities, by its text. -/
def resourceId {α : Type} (make : String → α) (text : α → String) : Wire α where
  encode id := .string (text id)
  decode json := do return make (← texts.uuid (← string.decode json))

def hostClaimId : Wire HostClaimId := resourceId texts HostClaimId.mk HostClaimId.text

def hostId : Wire HostId := resourceId texts HostId.mk HostId.text

def timestamp : Wire Timestamp where
  encode t := .string t.text
  decode json := do texts.timestamp (← string.decode json)

def condition : Wire Condition where
  encode condition := .object [
    ("type", string.encode condition.conditionType),
    ("status", conditionStatus.encode condition.status),
    ("reason", string.encode condition.reason),
    ("message", string.encode condition.message),
    ("observed_generation", uint64.encode condition.observedGeneration),
    ("last_transition_at", (timestamp texts).encode condition.lastTransitionAt)]
  decode json := do
    let members ← fields ["type", "status", "reason", "message", "observed_generation",
      "last_transition_at"] json
    return {
      conditionType := ← required string.decode "type" members
      status := ← required conditionStatus.decode "status" members
      reason := ← required string.decode "reason" members
      message := ← required string.decode "message" members
      observedGeneration := ← required uint64.decode "observed_generation" members
      lastTransitionAt := ← required (timestamp texts).decode "last_transition_at" members }

def hostClaimStatus : Wire HostClaimStatus where
  encode status := .object [
    ("observed_generation", uint64.encode status.observedGeneration),
    ("host_id", (option (hostId texts)).encode status.hostId),
    ("conditions", (list (condition texts)).encode status.conditions)]
  decode json := do
    let members ← fields ["observed_generation", "host_id", "conditions"] json
    return {
      observedGeneration := ← required uint64.decode "observed_generation" members
      hostId := ← optional (hostId texts).decode "host_id" members
      conditions := ← required (list (condition texts)).decode "conditions" members }

def hostClaim : Wire HostClaim where
  encode claim := .object [
    ("id", (hostClaimId texts).encode claim.id),
    ("generation", uint64.encode claim.generation),
    ("created_at", (timestamp texts).encode claim.createdAt),
    ("deletion_timestamp", (option (timestamp texts)).encode claim.deletionTimestamp),
    ("spec", hostClaimSpec.encode claim.spec),
    ("status", (hostClaimStatus texts).encode claim.status)]
  decode json := do
    let members ← fields ["id", "generation", "created_at", "deletion_timestamp", "spec",
      "status"] json
    return {
      id := ← required (hostClaimId texts).decode "id" members
      generation := ← required uint64.decode "generation" members
      createdAt := ← required (timestamp texts).decode "created_at" members
      deletionTimestamp := ← optional (timestamp texts).decode "deletion_timestamp" members
      spec := ← required hostClaimSpec.decode "spec" members
      status := ← required (hostClaimStatus texts).decode "status" members }

def hostStatus : Wire HostStatus where
  encode status := .object [
    ("phase", hostPhase.encode status.phase),
    ("provider_resource_id", (option string).encode status.providerResourceId),
    ("observed_at", (option (timestamp texts)).encode status.observedAt),
    ("conditions", (list (condition texts)).encode status.conditions)]
  decode json := do
    let members ← fields ["phase", "provider_resource_id", "observed_at", "conditions"] json
    return {
      phase := ← required hostPhase.decode "phase" members
      providerResourceId := ← optional string.decode "provider_resource_id" members
      observedAt := ← optional (timestamp texts).decode "observed_at" members
      conditions := ← required (list (condition texts)).decode "conditions" members }

def host : Wire Host where
  encode host := .object [
    ("id", (hostId texts).encode host.id),
    ("claim_id", (hostClaimId texts).encode host.claimId),
    ("created_at", (timestamp texts).encode host.createdAt),
    ("allocatable_resources", hostResources.encode host.allocatableResources),
    ("status", (hostStatus texts).encode host.status)]
  decode json := do
    let members ← fields ["id", "claim_id", "created_at", "allocatable_resources",
      "status"] json
    return {
      id := ← required (hostId texts).decode "id" members
      claimId := ← required (hostClaimId texts).decode "claim_id" members
      createdAt := ← required (timestamp texts).decode "created_at" members
      allocatableResources := ← required hostResources.decode "allocatable_resources" members
      status := ← required (hostStatus texts).decode "status" members }

end

end Wire

/-! ## Parameters and results -/

/-- `SystemInfoResult`. -/
structure SystemInfoResult where
  systemName : String
  binaryVersion : String
  rustVersion : String
  protocolVersion : String
  startedAt : Timestamp
  deriving DecidableEq, Repr

/-- `CreateHostClaimParams`. -/
structure CreateHostClaimParams where
  id : HostClaimId
  spec : HostClaimSpec
  deriving DecidableEq, Repr

/-- `HostClaimList`. -/
structure HostClaimList where
  items : List HostClaim
  deriving DecidableEq, Repr

/-- `HostList`. -/
structure HostList where
  items : List Host
  deriving DecidableEq, Repr

/-- `RpcErrorKind`. -/
inductive RpcErrorKind where
  | invalidArgument
  | notFound
  | conflict
  | unavailable
  | internal
  deriving DecidableEq, Repr

/-- `RpcErrorKind`, renamed to snake case. -/
def RpcErrorKind.name : RpcErrorKind → String
  | .invalidArgument => "invalid_argument"
  | .notFound => "not_found"
  | .conflict => "conflict"
  | .unavailable => "unavailable"
  | .internal => "internal"

/-- `RpcErrorData`. -/
structure RpcErrorData where
  kind : RpcErrorKind
  resourceId : Option String
  details : Option Json

namespace Wire

open Json

/-- `EmptyParams`, which has no fields. -/
def emptyParams : Wire Unit where
  encode _ := .object []
  decode json := do
    let _ ← fields [] json
    return ()

/-- Any tree. -/
def value : Wire Json := ⟨id, some⟩

def rpcErrorKind : Wire RpcErrorKind where
  encode kind := .string kind.name
  decode json := do
    match ← variant json with
    | "invalid_argument" => return .invalidArgument
    | "not_found" => return .notFound
    | "conflict" => return .conflict
    | "unavailable" => return .unavailable
    | "internal" => return .internal
    | _ => none

def rpcErrorData : Wire RpcErrorData where
  encode data := .object [
    ("kind", rpcErrorKind.encode data.kind),
    ("resource_id", (option string).encode data.resourceId),
    ("details", (option value).encode data.details)]
  decode json := do
    let members ← fields ["kind", "resource_id", "details"] json
    return {
      kind := ← required rpcErrorKind.decode "kind" members
      resourceId := ← optional string.decode "resource_id" members
      details := ← optional value.decode "details" members }

section

variable (texts : Texts)

def systemInfoResult : Wire SystemInfoResult where
  encode info := .object [
    ("system_name", string.encode info.systemName),
    ("binary_version", string.encode info.binaryVersion),
    ("rust_version", string.encode info.rustVersion),
    ("protocol_version", string.encode info.protocolVersion),
    ("started_at", (timestamp texts).encode info.startedAt)]
  decode json := do
    let members ← fields ["system_name", "binary_version", "rust_version", "protocol_version",
      "started_at"] json
    return {
      systemName := ← required string.decode "system_name" members
      binaryVersion := ← required string.decode "binary_version" members
      rustVersion := ← required string.decode "rust_version" members
      protocolVersion := ← required string.decode "protocol_version" members
      startedAt := ← required (timestamp texts).decode "started_at" members }

def createHostClaimParams : Wire CreateHostClaimParams where
  encode params := .object [
    ("id", (hostClaimId texts).encode params.id),
    ("spec", hostClaimSpec.encode params.spec)]
  decode json := do
    let members ← fields ["id", "spec"] json
    return {
      id := ← required (hostClaimId texts).decode "id" members
      spec := ← required hostClaimSpec.decode "spec" members }

/-- A record of one identity: `GetHostClaimParams`, `DeleteHostClaimParams` and `GetHostParams`. -/
def idParams {α : Type} (wire : Wire α) : Wire α where
  encode id := .object [("id", wire.encode id)]
  decode json := do
    let members ← fields ["id"] json
    required wire.decode "id" members

def getHostClaimParams : Wire HostClaimId := idParams (hostClaimId texts)

def deleteHostClaimParams : Wire HostClaimId := idParams (hostClaimId texts)

def getHostParams : Wire HostId := idParams (hostId texts)

/-- A record whose only field is a list. -/
def itemList {α β : Type} (wire : Wire α) (make : List α → β) (items : β → List α) : Wire β where
  encode value := .object [("items", (list wire).encode (items value))]
  decode json := do
    let members ← fields ["items"] json
    return make (← required (list wire).decode "items" members)

def hostClaimList : Wire HostClaimList :=
  itemList (hostClaim texts) HostClaimList.mk HostClaimList.items

def hostList : Wire HostList := itemList (host texts) HostList.mk HostList.items

end

end Wire

end ControlPlane
