import ControlPlane.Guarantees.Acknowledged
import ControlPlane.Rpc.Client

/-!
# What the operator is told

A command of the operator from its parameters to its result: the request is read as it was meant,
and the call of the client ends with what the store answered, or with the error the store answered,
whatever the order of the members in the bodies. What the client prints of it is not modelled.
-/

namespace ControlPlane

open Interaction Storage Json

/-! ## Responses -/

/-- The members of an error object. -/
def ErrorObject.members (error : ErrorObject) : List (String × Json) :=
  match error.data with
  | none => [("code", .integer error.code.toInt), ("message", .string error.message)]
  | some data =>
    [("code", .integer error.code.toInt), ("message", .string error.message), ("data", data)]

/-- The body of a response: a JSON-RPC 2.0 response object, its members and those of the result in
    any order. -/
inductive Framed (requestId : String) : Except ErrorObject Json → Json → Prop where
  | result {value arrived members} : Reordered arrived value →
      members.Perm [("jsonrpc", .string "2.0"), ("id", .string requestId), ("result", arrived)] →
      Framed requestId (.ok value) (.object members)
  | error {error : ErrorObject} {details members} : details.Perm error.members →
      members.Perm [("jsonrpc", .string "2.0"), ("id", .string requestId),
        ("error", .object details)] →
      Framed requestId (.error error) (.object members)

/-- `null`, seen as an absent member. -/
def Json.present : Json → Option Json
  | .null => none
  | json => some json

/-- The error a client sees. -/
def ErrorObject.seen (error : ErrorObject) : JsonRpcErrorObject :=
  { code := error.code, message := error.message, data := error.data.bind Json.present }

theorem ErrorObject.nodup_members (error : ErrorObject) :
    (error.members.map Prod.fst).Nodup := by
  obtain ⟨code, message, data⟩ := error
  cases data with
  | none => exact (by decide : ["code", "message"].Nodup)
  | some data => exact (by decide : ["code", "message", "data"].Nodup)

theorem ErrorObject.members_known (error : ErrorObject) :
    ∀ name ∈ error.members.map Prod.fst, name ∈ ["code", "message", "data"] := by
  obtain ⟨code, message, data⟩ := error
  cases data <;> simp [ErrorObject.members]

/-- An error object is read as the error it was made of. -/
theorem decodeErrorObject_framed {error : ErrorObject} {details : List (String × Json)}
    (h : details.Perm error.members) :
    Wire.decodeErrorObject (.object details) = some error.seen := by
  have hnodup := error.nodup_members
  have hcode : required Wire.int32.decode "code" error.members = some error.code := by
    obtain ⟨code, message, data⟩ := error
    have hread : Wire.int32.decode (.integer code.toInt) = some code :=
      (Wire.carries_int32 code).decode_encode
    cases data <;> exact required_cons_self.trans hread
  have hmessage : required Wire.string.decode "message" error.members = some error.message := by
    obtain ⟨code, message, data⟩ := error
    cases data <;> exact (required_cons_of_ne (by decide)).trans required_cons_self
  have hdata : Json.optional Wire.value.decode "data" error.members =
      some (error.data.bind Json.present) := by
    obtain ⟨code, message, data⟩ := error
    unfold ErrorObject.members
    cases data with
    | none => rfl
    | some data =>
      rw [optional_cons_of_ne (by decide), optional_cons_of_ne (by decide)]
      cases data <;> rfl
  show (fields ["code", "message", "data"] (.object details)).bind _ = _
  rw [fields_perm h hnodup error.members_known, Option.bind_some]
  refine Option.bind_eq_some_iff.mpr ⟨_, (required_perm h hnodup).trans hcode, ?_⟩
  refine Option.bind_eq_some_iff.mpr ⟨_, (required_perm h hnodup).trans hmessage, ?_⟩
  exact Option.bind_eq_some_iff.mpr ⟨_, (optional_perm h hnodup).trans hdata, rfl⟩

section Response

variable {R : Type} {wire : Wire R} {requestId : String} {body : Json}

/-- A result is read as it was written. -/
theorem finish_result {legible : R → Prop} {value : R} (hwire : wire.Lossless legible)
    (hlegible : legible value) (h : Framed requestId (.ok (wire.encode value)) body) :
    RpcClient.finish wire requestId body = .ok value := by
  cases h with
  | @result _ json members hjson hperm =>
    have hread : wire.decode json = some value := hwire.decode_reordered hlegible hjson
    have hpresent : json ≠ .null := fun hnull =>
      (hwire.carries hlegible).encode_ne_null (hjson.null_iff.mp hnull)
    have hnodup : ([("jsonrpc", Json.string "2.0"), ("id", .string requestId),
        ("result", json)].map Prod.fst).Nodup := (by decide : ["jsonrpc", "id", "result"].Nodup)
    have hresponse : Wire.decodeResponse wire (.object members) =
        some ⟨"2.0", requestId, some value, none⟩ := by
      show (fields ["jsonrpc", "id", "result", "error"] (.object members)).bind _ = _
      rw [fields_perm hperm hnodup (by simp), Option.bind_some]
      refine Option.bind_eq_some_iff.mpr ⟨"2.0", ?_, ?_⟩
      · rw [required_perm hperm hnodup]
        exact required_cons_self
      refine Option.bind_eq_some_iff.mpr ⟨requestId, ?_, ?_⟩
      · rw [required_perm hperm hnodup, required_cons_of_ne (by decide)]
        exact required_cons_self
      refine Option.bind_eq_some_iff.mpr ⟨some value, ?_, ?_⟩
      · rw [optional_perm hperm hnodup, optional_cons_of_ne (by decide),
          optional_cons_of_ne (by decide), optional_cons_self hpresent, hread]
        rfl
      refine Option.bind_eq_some_iff.mpr ⟨none, ?_, rfl⟩
      rw [optional_perm hperm hnodup, optional_cons_of_ne (by decide),
        optional_cons_of_ne (by decide), optional_cons_of_ne (by decide)]
      rfl
    unfold RpcClient.finish
    rw [hresponse]
    simp
    rfl

/-- An error is read as it was written. -/
theorem finish_error {error : ErrorObject} (h : Framed requestId (.error error) body) :
    RpcClient.finish wire requestId body = .error (.rpc error.seen) := by
  cases h with
  | @error _ details members hdetails hperm =>
    have hnodup : ([("jsonrpc", Json.string "2.0"), ("id", .string requestId),
        ("error", .object details)].map Prod.fst).Nodup :=
      (by decide : ["jsonrpc", "id", "error"].Nodup)
    have hresponse : Wire.decodeResponse wire (.object members) =
        some ⟨"2.0", requestId, none, some error.seen⟩ := by
      show (fields ["jsonrpc", "id", "result", "error"] (.object members)).bind _ = _
      rw [fields_perm hperm hnodup (by simp), Option.bind_some]
      refine Option.bind_eq_some_iff.mpr ⟨"2.0", ?_, ?_⟩
      · rw [required_perm hperm hnodup]
        exact required_cons_self
      refine Option.bind_eq_some_iff.mpr ⟨requestId, ?_, ?_⟩
      · rw [required_perm hperm hnodup, required_cons_of_ne (by decide)]
        exact required_cons_self
      refine Option.bind_eq_some_iff.mpr ⟨none, ?_, ?_⟩
      · rw [optional_perm hperm hnodup, optional_cons_of_ne (by decide),
          optional_cons_of_ne (by decide), optional_cons_of_ne (by decide)]
        rfl
      refine Option.bind_eq_some_iff.mpr ⟨some error.seen, ?_, rfl⟩
      rw [optional_perm hperm hnodup, optional_cons_of_ne (by decide),
        optional_cons_of_ne (by decide), optional_cons_self (fun heq => by cases heq),
        decodeErrorObject_framed hdetails]
      rfl
    unfold RpcClient.finish
    rw [hresponse]
    simp
    rfl

end Response

/-! ## Commands -/

namespace Command

variable (texts : Texts)

/-- What a command sends is read back: its identity is canonical. -/
def Sendable : Command → Prop
  | .systemInfo | .claimList | .hostList => True
  | .claimCreate id _ _ _ | .claimGet id | .claimDelete id => id.Legible texts
  | .hostGet id => id.Legible texts

/-- What a command gets is read back. -/
def Legible : (command : Command) → command.Result → Prop
  | .systemInfo => fun info => info.startedAt.Representable
  | .claimCreate _ _ _ _ => HostClaim.Legible texts
  | .claimGet _ => HostClaim.Legible texts
  | .claimList => HostClaimList.Legible texts
  | .claimDelete _ => HostClaim.Legible texts
  | .hostGet _ => Host.Legible texts
  | .hostList => HostList.Legible texts

theorem lossless (command : Command) :
    (command.wire texts).Lossless (command.Legible texts) := by
  cases command with
  | systemInfo => exact Wire.lossless_systemInfoResult texts
  | claimCreate => exact Wire.lossless_hostClaim texts
  | claimGet => exact Wire.lossless_hostClaim texts
  | claimList => exact Wire.lossless_hostClaimList texts
  | claimDelete => exact Wire.lossless_hostClaim texts
  | hostGet => exact Wire.lossless_host texts
  | hostList => exact Wire.lossless_hostList texts

/-- The call to `Storage` that a command comes down to, and what its answer tells the operator. -/
inductive Told : (command : Command) → Answered → Except AppError command.Result → Prop where
  | create {id vcpus memory storage now answer} : Told (.claimCreate id vcpus memory storage)
      ⟨.createClaim id ⟨⟨vcpus, memory, storage⟩⟩ now, answer⟩ answer
  | get {id answer} : Told (.claimGet id) ⟨.getClaim id, answer⟩
      (answer.map fun record : HostClaimRecord => record.resource)
  | list {answer} : Told .claimList ⟨.listClaims, answer⟩
      (answer.map fun records : List HostClaimRecord => ⟨records.map (·.resource)⟩)
  | delete {id now answer} : Told (.claimDelete id) ⟨.markClaimDeleting id now, answer⟩ answer
  | getHost {id answer} : Told (.hostGet id) ⟨.getHost id, answer⟩
      (answer.map fun record : HostRecord => record.resource)
  | listHosts {answer} : Told .hostList ⟨.listHosts, answer⟩
      (answer.map fun records : List HostRecord => ⟨records.map (·.resource)⟩)

variable {texts} {lib : Jsonrpsee}

/-- The reply to a command is made of what it is told. -/
theorem told_of_answers {command : Command} (hsendable : command.Sendable texts) {act : Answered}
    {reply : RpcReply}
    (h : command.method.Answers texts lib (some (command.params texts)) act reply) :
    ∃ answer, command.Told act answer ∧
      reply = lib.bounded (outcome (command.wire texts).encode answer) := by
  have hmap : ∀ {α β : Type} {encode : β → Json} {f : α → β} {answer : Except AppError α},
      outcome (fun value => encode (f value)) answer = outcome encode (answer.map f) := by
    intro α β encode f answer
    cases answer <;> rfl
  cases command with
  | systemInfo => cases h
  | claimCreate id vcpus memory storage =>
    have hread : (Wire.createHostClaimParams texts).decode
        ((Wire.createHostClaimParams texts).encode ⟨id, ⟨⟨vcpus, memory, storage⟩⟩⟩) = _ :=
      (Wire.lossless_createHostClaimParams texts).decode_encode hsendable
    cases h with
    | create hsome =>
      obtain rfl := Option.some.inj (hread.symm.trans hsome)
      exact ⟨_, .create, rfl⟩
  | claimGet id =>
    have hread := (Wire.lossless_idParams (Wire.lossless_hostClaimId texts)).decode_encode hsendable
    cases h with
    | get hsome =>
      obtain rfl := Option.some.inj (hread.symm.trans hsome)
      exact ⟨_, .get, congrArg lib.bounded hmap⟩
  | claimList =>
    cases h with
    | list => exact ⟨_, .list, congrArg lib.bounded hmap⟩
  | claimDelete id =>
    have hread := (Wire.lossless_idParams (Wire.lossless_hostClaimId texts)).decode_encode hsendable
    cases h with
    | delete hsome =>
      obtain rfl := Option.some.inj (hread.symm.trans hsome)
      exact ⟨_, .delete, rfl⟩
  | hostGet id =>
    have hread := (Wire.lossless_idParams (Wire.lossless_hostId texts)).decode_encode hsendable
    cases h with
    | getHost hsome =>
      obtain rfl := Option.some.inj (hread.symm.trans hsome)
      exact ⟨_, .getHost, congrArg lib.bounded hmap⟩
  | hostList =>
    cases h with
    | listHosts => exact ⟨_, .listHosts, congrArg lib.bounded hmap⟩

/-- The server accepts what a command sends. -/
theorem accepted {command : Command} (hsendable : command.Sendable texts) :
    command.method.Accepts texts (some (command.params texts)) := by
  cases command with
  | systemInfo | claimList | hostList => exact rfl
  | claimCreate id vcpus memory storage =>
    have hread : (Wire.createHostClaimParams texts).decode
        ((Wire.createHostClaimParams texts).encode ⟨id, ⟨⟨vcpus, memory, storage⟩⟩⟩) = _ :=
      (Wire.lossless_createHostClaimParams texts).decode_encode hsendable
    exact Option.isSome_iff_exists.mpr ⟨_, hread⟩
  | claimGet id | claimDelete id =>
    have hread := (Wire.lossless_idParams (Wire.lossless_hostClaimId texts)).decode_encode hsendable
    exact Option.isSome_iff_exists.mpr ⟨_, hread⟩
  | hostGet id =>
    have hread := (Wire.lossless_idParams (Wire.lossless_hostId texts)).decode_encode hsendable
    exact Option.isSome_iff_exists.mpr ⟨_, hread⟩

/-- What a command may end with, given the order in which the store has answered. -/
inductive Concluded (texts : Texts) (lib : Jsonrpsee) (context : RpcContext)
    (order : List (Option Nat × Answered)) (ticket : Nat) :
    (command : Command) → Except CallError command.Result → Prop where
  /-- what the store answered -/
  | answered {command act answer result} : (some ticket, act) ∈ order → command.Told act answer →
      (∀ value, answer = .ok value → command.Legible texts value → result = .ok value) →
      (∀ error, answer = .error error → result = .error (.rpc error.intoRpcError.seen)) →
      Concluded texts lib context order ticket command result
  /-- the call to the store has failed and done nothing -/
  | failed {command text} : (∀ act, (some ticket, act) ∉ order) →
      Concluded texts lib context order ticket command
        (.error (.rpc (AppError.internal text).intoRpcError.seen))
  /-- the answer did not fit into a response -/
  | oversized {command} : Concluded texts lib context order ticket command
      (.error (.rpc lib.oversizedResponse.seen))
  | info {result} : (context.startedAt.Representable → result = .ok {
        systemName := "Control Plane"
        binaryVersion := context.cargoPkgVersion
        rustVersion := context.controlPlaneRustcVersion
        protocolVersion
        startedAt := context.startedAt }) →
      Concluded texts lib context order ticket .systemInfo result

end Command

/-- A response that was not replaced. -/
theorem Jsonrpsee.bounded_cases {lib : Jsonrpsee} {outcome reply : Except ErrorObject Json}
    (h : some reply = lib.bounded outcome) :
    reply = outcome ∨ reply = .error lib.oversizedResponse := by
  unfold bounded at h
  split at h
  · exact .inl (Option.some.inj h)
  · exact .inr (Option.some.inj h)

/-- A reply that was given aside. -/
theorem Command.concluded_aside {texts : Texts} {lib : Jsonrpsee} {context : RpcContext}
    {order : List (Option Nat × Answered)} {ticket : Nat} {command : Command} {requestId : String}
    {reply : Except ErrorObject Json} {body : Json} (hsendable : command.Sendable texts)
    (haside : Aside texts lib context
      (.call command.method.name (some (command.params texts))) (some reply))
    (hnone : ∀ act, (some ticket, act) ∉ order) (hframed : Framed requestId reply body) :
    command.Concluded texts lib context order ticket (command.finish texts requestId body) := by
  by_cases hinfo : command.method = .systemInfo
  · cases command with
    | systemInfo =>
      generalize hreply : some reply = given at haside
      cases haside with
      | unknown hunknown => exact absurd rfl (hunknown .systemInfo)
      | called method hname haside =>
        rw [← Method.name_injective hname] at haside
        cases haside with
        | refused hrefused => exact absurd rfl hrefused
        | failed hanswers => cases hanswers
        | info =>
          rcases Jsonrpsee.bounded_cases hreply with rfl | rfl
          · refine .info fun hstarted => ?_
            exact finish_result (Wire.lossless_systemInfoResult texts) hstarted hframed
          · have hfinish : Command.finish texts requestId .systemInfo body = _ :=
              finish_error hframed
            rw [hfinish]
            exact .oversized
    | claimCreate | claimGet | claimList | claimDelete | hostGet | hostList => cases hinfo
  · obtain ⟨hrefused | ⟨text, hreply⟩, -⟩ := haside.error hinfo
    · exact absurd (accepted hsendable) hrefused
    · rcases Jsonrpsee.bounded_cases hreply with rfl | rfl
      · have hfinish : command.finish texts requestId body = _ := finish_error hframed
        rw [hfinish]
        exact .failed hnone
      · have hfinish : command.finish texts requestId body = _ := finish_error hframed
        rw [hfinish]
        exact .oversized

variable {σ : Type} {P : ProviderModel σ} {texts : Texts} {lib : Jsonrpsee} {context : RpcContext}
  {methods : List (String × Method)} {provider : σ} {s : ServerState σ}

/-- The call of a command whose request is answered ends with the value the store answered, if it is
    legible, or with the object of the error the store answered, at its moment in one order of all
    calls that keeps to real time; otherwise with the error for a failed call, which has then done
    nothing, or for a response that is too large. -/
theorem command_is_told (hmethods : rpcModule = .ok methods)
    (h : (server P texts lib context methods).Reach (ServerState.initial provider) s) :
    ∃ order, Linearization Store.governed (contract texts lib context) Store.empty s.history order
        s.world.world.database.store? ∧
      ∀ (command : Command) (ticket : Nat) (requestId : String)
        (reply : Except ErrorObject Json) (body : Json), command.Sendable texts →
        .invoked ticket (.call command.method.name (some (command.params texts))) ∈ s.history →
        .responded ticket (some reply) ∈ s.history → Framed requestId reply body →
        command.Concluded texts lib context order ticket
          (command.finish texts requestId body) := by
  obtain ⟨order, ⟨hlinear, -, -, -, -⟩⟩ := linear_of_server hmethods h
  refine ⟨order, hlinear, ?_⟩
  intro command ticket requestId reply body hsendable hinvoked hresponded hframed
  rcases hlinear.answered ticket _ _ hinvoked hresponded with
    ⟨haside, hnone⟩ | ⟨act, hact, hanswers⟩
  · exact Command.concluded_aside hsendable haside hnone hframed
  · obtain ⟨answer, htold, hreply⟩ := Command.told_of_answers hsendable (Answers.method hanswers)
    rcases Jsonrpsee.bounded_cases hreply with rfl | rfl
    · refine .answered hact htold ?_ ?_
      · rintro value rfl hlegible
        exact finish_result (command.lossless texts) hlegible hframed
      · rintro error rfl
        exact finish_error hframed
    · have hfinish : command.finish texts requestId body = _ := finish_error hframed
      rw [hfinish]
      exact .oversized

theorem OneClient.legible_created : OneClient.created.Legible Texts.canonical where
  id := rfl
  createdAt := by decide
  deletionTimestamp _ h := by cases h
  status :=
    { hostId := fun _ h => by cases h
      conditions := show ∀ condition ∈ OneClient.created.status.conditions,
        condition.lastTransitionAt.Representable by decide }

/-- The claim as it arrives at that client, with its members in another order. -/
noncomputable def OneClient.arrived : Json :=
  .object [
    ("id", .string params.id.text),
    ("generation", .integer 1),
    ("deletion_timestamp", .null),
    ("created_at", .string (Timestamp.text ⟨0⟩)),
    ("spec", Wire.hostClaimSpec.encode created.spec),
    ("status", (Wire.hostClaimStatus Texts.canonical).encode created.status)]

/-- The response to that client, with its members in another order. -/
noncomputable def OneClient.response : Json :=
  .object [("id", .string "request"), ("result", arrived), ("jsonrpc", .string "2.0")]

/-- The client that asked for a claim gets the one it has created. -/
theorem told_to_oneClient :
    Command.finish Texts.canonical "request" (.claimGet OneClient.params.id) OneClient.response =
      .ok OneClient.created ∧
    ∃ order last, Linearization Store.governed
        (contract Texts.canonical OneClient.library ⟨"0.1.0", "rustc", ⟨0⟩⟩) Store.empty
        OneClient.history order last ∧
      Command.Concluded Texts.canonical OneClient.library ⟨"0.1.0", "rustc", ⟨0⟩⟩ order 1
        (.claimGet OneClient.params.id) (.ok OneClient.created) := by
  have hframed : Framed "request" (.ok ((Wire.hostClaim Texts.canonical).encode OneClient.created))
      OneClient.response := by
    have harrived : OneClient.arrived.Reordered
        ((Wire.hostClaim Texts.canonical).encode OneClient.created) :=
      .members (.cons _ (.cons _ (.swap _ _ _)))
    refine .result harrived ?_
    show List.Perm ([_, _] ++ [_]) ([_] ++ [_, _])
    exact List.perm_append_comm
  have hfinish : Command.finish Texts.canonical "request" (.claimGet OneClient.params.id)
      OneClient.response = .ok OneClient.created :=
    finish_result (Wire.lossless_hostClaim Texts.canonical) OneClient.legible_created hframed
  obtain ⟨s, h, hhistory⟩ := OneClient.reachable
  obtain ⟨order, hlinear, htold⟩ :=
    command_is_told (show rpcModule = .ok OneClient.methods by decide) h
  refine ⟨hfinish, order, _, hhistory ▸ hlinear, ?_⟩
  rw [← hfinish]
  refine htold (.claimGet OneClient.params.id) 1 "request" _ _
    (show Texts.canonical.uuid _ = some _ from rfl) ?_ ?_ hframed
  · rw [hhistory]
    exact List.mem_cons_of_mem _ (List.mem_cons_of_mem _ List.mem_cons_self)
  · rw [hhistory]
    exact List.mem_cons_of_mem _ (List.mem_cons_of_mem _
      (List.mem_cons_of_mem _ List.mem_cons_self))

end ControlPlane
