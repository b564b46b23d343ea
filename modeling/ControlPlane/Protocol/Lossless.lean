import ControlPlane.Protocol.Wire

/-!
# What the wire carries

A value is legible if its identities are in canonical form and its instants are ones `jiff` can
represent. What is read is legible, and what is legible is read back as it was written, in whatever
order the members of the objects arrive.
-/

namespace ControlPlane

variable (texts : Texts)

/-! ## Legible values -/

def HostClaimId.Legible (id : HostClaimId) : Prop := texts.uuid id.text = some id.text

def HostId.Legible (id : HostId) : Prop := texts.uuid id.text = some id.text

def Condition.Legible (condition : Condition) : Prop := condition.lastTransitionAt.Representable

structure HostClaimStatus.Legible (status : HostClaimStatus) : Prop where
  hostId : ∀ id ∈ status.hostId, id.Legible texts
  conditions : ∀ condition ∈ status.conditions, condition.Legible

structure HostClaim.Legible (claim : HostClaim) : Prop where
  id : claim.id.Legible texts
  createdAt : claim.createdAt.Representable
  deletionTimestamp : ∀ t ∈ claim.deletionTimestamp, t.Representable
  status : claim.status.Legible texts

structure HostStatus.Legible (status : HostStatus) : Prop where
  observedAt : ∀ t ∈ status.observedAt, t.Representable
  conditions : ∀ condition ∈ status.conditions, condition.Legible

structure Host.Legible (host : Host) : Prop where
  id : host.id.Legible texts
  claimId : host.claimId.Legible texts
  createdAt : host.createdAt.Representable
  status : host.status.Legible

def HostClaimList.Legible (claims : HostClaimList) : Prop :=
  ∀ claim ∈ claims.items, claim.Legible texts

def HostList.Legible (hosts : HostList) : Prop :=
  ∀ host ∈ hosts.items, host.Legible texts

namespace Wire

/-- A wire that carries exactly the values it can read, and to which the order of members does
    not matter. -/
structure Lossless {α : Type} (wire : Wire α) (legible : α → Prop) : Prop where
  carries : ∀ {value}, legible value → wire.Carries value
  legible : ∀ {json value}, wire.decode json = some value → legible value
  unordered : Json.Unordered wire.decode

/-- Nothing about a value is lost. -/
def Any {α : Type} (_ : α) : Prop := True

@[simp] theorem any {α : Type} (value : α) : Any value := trivial

open Json

/-! ## Its parts -/

section Parts

variable {α : Type} {wire : Wire α} {legible : α → Prop} {json : Json}

theorem lossless_string : string.Lossless Any :=
  ⟨fun _ => carries_string _, fun _ => trivial, .of_leaf (fun _ => rfl) (fun _ => rfl)⟩

theorem lossless_uint32 : uint32.Lossless Any :=
  ⟨fun _ => carries_uint32 _, fun _ => trivial, .of_leaf (fun _ => rfl) (fun _ => rfl)⟩

theorem lossless_uint64 : uint64.Lossless Any :=
  ⟨fun _ => carries_uint64 _, fun _ => trivial, .of_leaf (fun _ => rfl) (fun _ => rfl)⟩

theorem Lossless.decode_encode (h : wire.Lossless legible) {value : α} (hlegible : legible value) :
    wire.decode (wire.encode value) = some value :=
  (h.carries hlegible).decode_encode

/-- What was written is read back, in whatever order the members arrive. -/
theorem Lossless.decode_reordered (h : wire.Lossless legible) {value : α}
    (hlegible : legible value) (hjson : Reordered json (wire.encode value)) :
    wire.decode json = some value :=
  (h.unordered _ _ hjson).trans (h.decode_encode hlegible)

/-- What a field that must be there reads as. -/
theorem Lossless.required (h : wire.Lossless legible) {name : String}
    {members : List (String × Json)} {value : α}
    (hread : Json.required wire.decode name members = some value) : legible value := by
  obtain ⟨json, -, hdecode⟩ := mem_of_required hread
  exact h.legible hdecode

/-- What a field that may be absent reads as. -/
theorem Lossless.optional (h : wire.Lossless legible) {name : String}
    {members : List (String × Json)} {value : Option α}
    (hread : Json.optional wire.decode name members = some value) :
    ∀ a ∈ value, legible a := by
  unfold Json.optional at hread
  split at hread
  · cases hread
    intro a ha
    cases ha
  · cases hread
    intro a ha
    cases ha
  · obtain ⟨a, hdecode, rfl⟩ := Option.map_eq_some_iff.mp hread
    intro b hb
    cases hb
    exact h.legible hdecode

theorem Lossless.optional_encode (h : wire.Lossless legible) {name : String} {value : Option α}
    (hlegible : ∀ a ∈ value, legible a) (members : List (String × Json)) :
    Json.optional wire.decode name ((name, (Wire.option wire).encode value) :: members) =
      some value :=
  Wire.optional_encode fun a ha => h.carries (hlegible a ha)

theorem Lossless.list (h : wire.Lossless legible) :
    (list wire).Lossless fun values => ∀ value ∈ values, legible value := by
  refine ⟨?_, ?_, list_unordered h.unordered⟩
  · intro values hvalues
    exact list_carries fun value hmem => h.carries (hvalues value hmem)
  · intro json values hdecode
    unfold Wire.list at hdecode
    dsimp only at hdecode
    split at hdecode
    · rename_i items
      induction items generalizing values with
      | nil =>
        cases hdecode
        intro value hmem
        cases hmem
      | cons item items ih =>
        rw [List.mapM_cons] at hdecode
        obtain ⟨first, hfirst, hrest⟩ := Option.bind_eq_some_iff.mp hdecode
        obtain ⟨rest, hitems, hvalues⟩ := Option.bind_eq_some_iff.mp hrest
        cases hvalues
        intro value hmem
        rcases List.mem_cons.mp hmem with rfl | hmem
        · exact h.legible hfirst
        · exact ih hitems value hmem
    · cases hdecode

end Parts

variable (texts : Texts)

theorem lossless_conditionStatus : conditionStatus.Lossless Any := by
  refine ⟨fun {status} _ => ⟨?_, fun h => by cases h⟩, fun _ => trivial, unordered_variant.bind _⟩
  cases status <;> rfl

theorem lossless_hostPhase : hostPhase.Lossless Any := by
  refine ⟨fun {phase} _ => ⟨?_, fun h => by cases h⟩, fun _ => trivial, unordered_variant.bind _⟩
  cases phase <;> rfl

/-- The identities of a type made by `resource_id!`. -/
theorem lossless_resourceId {α : Type} {make : String → α} {text : α → String}
    (hmake : ∀ id, make (text id) = id) (htext : ∀ id, text (make id) = id) :
    (resourceId texts make text).Lossless fun id => texts.uuid (text id) = some (text id) := by
  refine ⟨?_, ?_, lossless_string.unordered.bind _⟩
  · intro id hid
    refine ⟨?_, fun h => by cases h⟩
    show (texts.uuid (text id)).bind (fun text => some (make text)) = _
    rw [hid, Option.bind_some, hmake]
  · intro json id h
    obtain ⟨read, -, hrest⟩ := Option.bind_eq_some_iff.mp h
    obtain ⟨canonical, huuid, hid⟩ := Option.bind_eq_some_iff.mp hrest
    cases hid
    rw [htext]
    exact texts.uuid_canonical huuid

theorem lossless_hostClaimId : (hostClaimId texts).Lossless (HostClaimId.Legible texts) :=
  lossless_resourceId texts (fun _ => rfl) fun _ => rfl

theorem lossless_hostId : (hostId texts).Lossless (HostId.Legible texts) :=
  lossless_resourceId texts (fun _ => rfl) fun _ => rfl

theorem lossless_timestamp : (timestamp texts).Lossless Timestamp.Representable := by
  refine ⟨?_, ?_, lossless_string.unordered.bind _⟩
  · intro t ht
    exact ⟨texts.timestamp_text ht, fun h => by cases h⟩
  · intro json t h
    obtain ⟨text, -, hread⟩ := Option.bind_eq_some_iff.mp h
    exact texts.timestamp_representable hread

/-! ## Its records -/

theorem lossless_hostResources : hostResources.Lossless Any := by
  refine ⟨fun {resources} _ => ⟨?_, fun h => by cases h⟩, fun _ => trivial,
    .fields fun hsame => ?_⟩
  · unfold hostResources
    dsimp only
    rw [fields_object]
    · simp -implicitDefEqProofs [required_cons_of_ne, lossless_uint32.decode_encode,
        lossless_uint64.decode_encode]
    · rfl
    · decide
  · simp only [lossless_uint32.unordered.required hsame, lossless_uint64.unordered.required hsame]

theorem lossless_hostClaimSpec : hostClaimSpec.Lossless Any := by
  refine ⟨fun {spec} _ => ⟨?_, fun h => by cases h⟩, fun _ => trivial, .fields fun hsame => ?_⟩
  · unfold hostClaimSpec
    dsimp only
    rw [fields_object]
    · simp -implicitDefEqProofs [lossless_hostResources.decode_encode]
    · rfl
    · decide
  · simp only [lossless_hostResources.unordered.required hsame]

theorem lossless_condition : (condition texts).Lossless Condition.Legible := by
  refine ⟨?_, ?_, .fields fun hsame => ?_⟩
  · intro condition hlegible
    refine ⟨?_, fun h => by cases h⟩
    have htransition : condition.lastTransitionAt.Representable := hlegible
    unfold Wire.condition
    dsimp only
    rw [fields_object]
    · simp -implicitDefEqProofs [required_cons_of_ne, lossless_string.decode_encode,
        lossless_uint64.decode_encode, lossless_conditionStatus.decode_encode,
        (lossless_timestamp texts).decode_encode,
        htransition]
    · rfl
    · decide
  · intro json value h
    simp only [Wire.condition, Option.bind_eq_bind, Option.bind_eq_some_iff, Option.pure_def,
      Option.some_inj] at h
    obtain ⟨members, -, conditionType, -, status, -, reason, -, message, -, generation, -,
      transition, htransition, rfl⟩ := h
    exact (lossless_timestamp texts).required htransition
  · simp only [lossless_string.unordered.required hsame,
      lossless_uint64.unordered.required hsame,
      lossless_conditionStatus.unordered.required hsame,
      (lossless_timestamp texts).unordered.required hsame]

theorem lossless_hostClaimStatus :
    (hostClaimStatus texts).Lossless (HostClaimStatus.Legible texts) := by
  have hconditions := (lossless_condition texts).list
  refine ⟨?_, ?_, .fields fun hsame => ?_⟩
  · rintro status ⟨hid, hlegible⟩
    refine ⟨?_, fun h => by cases h⟩
    unfold hostClaimStatus
    dsimp only
    rw [fields_object]
    · simp -implicitDefEqProofs [required_cons_of_ne, optional_cons_of_ne,
        lossless_uint64.decode_encode, (lossless_hostId texts).optional_encode hid,
        hconditions.decode_encode hlegible]
    · rfl
    · decide
  · intro json value h
    simp only [hostClaimStatus, Option.bind_eq_bind, Option.bind_eq_some_iff, Option.pure_def,
      Option.some_inj] at h
    obtain ⟨members, -, generation, -, id, hid, conditions, hread, rfl⟩ := h
    exact ⟨(lossless_hostId texts).optional hid, hconditions.required hread⟩
  · simp only [lossless_uint64.unordered.required hsame,
      (lossless_hostId texts).unordered.optional hsame, hconditions.unordered.required hsame]

theorem lossless_hostClaim : (hostClaim texts).Lossless (HostClaim.Legible texts) := by
  have hstatus := lossless_hostClaimStatus texts
  have htime := lossless_timestamp texts
  refine ⟨?_, ?_, .fields fun hsame => ?_⟩
  · rintro claim ⟨hid, hcreated, hdeletion, hlegible⟩
    refine ⟨?_, fun h => by cases h⟩
    unfold hostClaim
    dsimp only
    rw [fields_object]
    · simp -implicitDefEqProofs [required_cons_of_ne, optional_cons_of_ne,
        lossless_uint64.decode_encode, lossless_hostClaimSpec.decode_encode,
        (lossless_hostClaimId texts).decode_encode hid,
        htime.decode_encode hcreated, htime.optional_encode hdeletion,
        hstatus.decode_encode hlegible]
    · rfl
    · decide
  · intro json value h
    simp only [hostClaim, Option.bind_eq_bind, Option.bind_eq_some_iff, Option.pure_def,
      Option.some_inj] at h
    obtain ⟨members, -, id, hid, generation, -, created, hcreated, deletion, hdeletion, spec, -,
      status, hread, rfl⟩ := h
    exact ⟨(lossless_hostClaimId texts).required hid, htime.required hcreated,
      htime.optional hdeletion, hstatus.required hread⟩
  · simp only [(lossless_hostClaimId texts).unordered.required hsame,
      lossless_uint64.unordered.required hsame, htime.unordered.required hsame,
      htime.unordered.optional hsame, lossless_hostClaimSpec.unordered.required hsame,
      hstatus.unordered.required hsame]

theorem lossless_hostStatus : (hostStatus texts).Lossless HostStatus.Legible := by
  have hconditions := (lossless_condition texts).list
  refine ⟨?_, ?_, .fields fun hsame => ?_⟩
  · rintro status ⟨hobserved, hlegible⟩
    refine ⟨?_, fun h => by cases h⟩
    unfold hostStatus
    dsimp only
    rw [fields_object]
    · simp -implicitDefEqProofs [required_cons_of_ne, optional_cons_of_ne,
        lossless_hostPhase.decode_encode,
        lossless_string.optional_encode, (lossless_timestamp texts).optional_encode hobserved,
        hconditions.decode_encode hlegible]
    · rfl
    · decide
  · intro json value h
    simp only [hostStatus, Option.bind_eq_bind, Option.bind_eq_some_iff, Option.pure_def,
      Option.some_inj] at h
    obtain ⟨members, -, phase, -, resourceId, -, observed, hobserved, conditions, hread, rfl⟩ := h
    exact ⟨(lossless_timestamp texts).optional hobserved, hconditions.required hread⟩
  · simp only [lossless_hostPhase.unordered.required hsame,
      lossless_string.unordered.optional hsame,
      (lossless_timestamp texts).unordered.optional hsame, hconditions.unordered.required hsame]

theorem lossless_host : (host texts).Lossless (Host.Legible texts) := by
  have hstatus := lossless_hostStatus texts
  have htime := lossless_timestamp texts
  refine ⟨?_, ?_, .fields fun hsame => ?_⟩
  · rintro host ⟨hid, hclaimId, hcreated, hlegible⟩
    refine ⟨?_, fun h => by cases h⟩
    unfold Wire.host
    dsimp only
    rw [fields_object]
    · simp -implicitDefEqProofs [required_cons_of_ne, lossless_hostResources.decode_encode,
        (lossless_hostId texts).decode_encode hid,
        (lossless_hostClaimId texts).decode_encode hclaimId, htime.decode_encode hcreated,
        hstatus.decode_encode hlegible]
    · rfl
    · decide
  · intro json value h
    simp only [Wire.host, Option.bind_eq_bind, Option.bind_eq_some_iff, Option.pure_def,
      Option.some_inj] at h
    obtain ⟨members, -, id, hid, claimId, hclaimId, created, hcreated, resources, -, status, hread,
      rfl⟩ := h
    exact ⟨(lossless_hostId texts).required hid, (lossless_hostClaimId texts).required hclaimId,
      htime.required hcreated, hstatus.required hread⟩
  · simp only [(lossless_hostId texts).unordered.required hsame,
      (lossless_hostClaimId texts).unordered.required hsame, htime.unordered.required hsame,
      lossless_hostResources.unordered.required hsame, hstatus.unordered.required hsame]

/-! ## Parameters and results -/

theorem lossless_emptyParams : emptyParams.Lossless Any :=
  ⟨fun _ => ⟨rfl, fun h => by cases h⟩, fun _ => trivial, .fields fun _ => rfl⟩

theorem lossless_rpcErrorKind : rpcErrorKind.Lossless Any := by
  refine ⟨fun {kind} _ => ⟨?_, fun h => by cases h⟩, fun _ => trivial, unordered_variant.bind _⟩
  cases kind <;> rfl

/-- The details of an error are any tree but `null`, which reads as no details. -/
theorem decode_rpcErrorData {data : RpcErrorData} {canonical members : List (String × Json)}
    (hdetails : data.details ≠ some .null) (hencode : rpcErrorData.encode data = .object canonical)
    (hperm : members.Perm canonical) : rpcErrorData.decode (.object members) = some data := by
  cases hencode
  have hnodup : (["kind", "resource_id", "details"] : List String).Nodup := by decide
  have hpresent : ∀ json ∈ data.details, value.Carries json := by
    intro json hjson
    refine ⟨rfl, fun hnull => hdetails ?_⟩
    rw [Option.mem_def.mp hjson]
    exact congrArg some hnull
  show (fields ["kind", "resource_id", "details"] (.object members)).bind _ = _
  rw [fields_perm hperm hnodup (by simp), Option.bind_some]
  refine Option.bind_eq_some_iff.mpr ⟨data.kind, ?_, ?_⟩
  · rw [required_perm hperm hnodup, required_cons_self]
    exact lossless_rpcErrorKind.decode_encode trivial
  refine Option.bind_eq_some_iff.mpr ⟨data.resourceId, ?_, ?_⟩
  · rw [optional_perm hperm hnodup, optional_cons_of_ne (by decide)]
    exact lossless_string.optional_encode (fun _ _ => trivial) _
  refine Option.bind_eq_some_iff.mpr ⟨data.details, ?_, rfl⟩
  rw [optional_perm hperm hnodup, optional_cons_of_ne (by decide),
    optional_cons_of_ne (by decide)]
  exact Wire.optional_encode hpresent

theorem details_of_rpcErrorData {json : Json} {data : RpcErrorData}
    (h : rpcErrorData.decode json = some data) : data.details ≠ some .null := by
  obtain ⟨members, -, hrest⟩ := Option.bind_eq_some_iff.mp h
  obtain ⟨kind, -, hrest⟩ := Option.bind_eq_some_iff.mp hrest
  obtain ⟨resourceId, -, hrest⟩ := Option.bind_eq_some_iff.mp hrest
  obtain ⟨details, hread, hdata⟩ := Option.bind_eq_some_iff.mp hrest
  cases hdata
  show details ≠ some .null
  unfold Json.optional at hread
  split at hread
  · cases hread
    exact fun h => by cases h
  · cases hread
    exact fun h => by cases h
  · rename_i hnull _
    cases hread
    exact fun h => hnull (Option.some.inj h)

theorem lossless_systemInfoResult :
    (systemInfoResult texts).Lossless fun info => info.startedAt.Representable := by
  refine ⟨?_, ?_, .fields fun hsame => ?_⟩
  · intro info hstarted
    refine ⟨?_, fun h => by cases h⟩
    unfold systemInfoResult
    dsimp only
    rw [fields_object]
    · simp -implicitDefEqProofs [required_cons_of_ne, lossless_string.decode_encode,
        (lossless_timestamp texts).decode_encode hstarted]
    · rfl
    · decide
  · intro json value h
    simp only [systemInfoResult, Option.bind_eq_bind, Option.bind_eq_some_iff, Option.pure_def,
      Option.some_inj] at h
    obtain ⟨members, -, systemName, -, binaryVersion, -, rustVersion, -, protocolVersion, -,
      started, hstarted, rfl⟩ := h
    exact (lossless_timestamp texts).required hstarted
  · simp only [lossless_string.unordered.required hsame,
      (lossless_timestamp texts).unordered.required hsame]

theorem lossless_createHostClaimParams :
    (createHostClaimParams texts).Lossless fun params => params.id.Legible texts := by
  refine ⟨?_, ?_, .fields fun hsame => ?_⟩
  · intro params hid
    refine ⟨?_, fun h => by cases h⟩
    unfold createHostClaimParams
    dsimp only
    rw [fields_object]
    · simp -implicitDefEqProofs [required_cons_of_ne, lossless_hostClaimSpec.decode_encode,
        (lossless_hostClaimId texts).decode_encode hid]
    · rfl
    · decide
  · intro json value h
    simp only [createHostClaimParams, Option.bind_eq_bind, Option.bind_eq_some_iff, Option.pure_def,
      Option.some_inj] at h
    obtain ⟨members, -, id, hid, spec, -, rfl⟩ := h
    exact (lossless_hostClaimId texts).required hid
  · simp only [(lossless_hostClaimId texts).unordered.required hsame,
      lossless_hostClaimSpec.unordered.required hsame]

theorem lossless_idParams {α : Type} {wire : Wire α} {legible : α → Prop}
    (h : wire.Lossless legible) : (idParams wire).Lossless legible := by
  refine ⟨?_, ?_, .fields fun hsame => ?_⟩
  · intro id hid
    refine ⟨?_, fun h => by cases h⟩
    unfold idParams
    dsimp only
    rw [fields_object]
    · simp -implicitDefEqProofs [h.decode_encode hid]
    · rfl
    · decide
  · intro json value hread
    simp only [idParams, Option.bind_eq_bind, Option.bind_eq_some_iff] at hread
    obtain ⟨members, -, hid⟩ := hread
    exact h.required hid
  · simp only [h.unordered.required hsame]

theorem lossless_itemList {α β : Type} {wire : Wire α} {legible : α → Prop} {make : List α → β}
    {items : β → List α} (hmake : ∀ value, make (items value) = value)
    (hitems : ∀ values, items (make values) = values) (h : wire.Lossless legible) :
    (itemList wire make items).Lossless fun value => ∀ a ∈ items value, legible a := by
  refine ⟨?_, ?_, .fields fun hsame => ?_⟩
  · intro value hlegible
    refine ⟨?_, fun h => by cases h⟩
    unfold itemList
    dsimp only
    rw [fields_object]
    · simp -implicitDefEqProofs [h.list.decode_encode hlegible, hmake]
    · rfl
    · decide
  · intro json value hread
    simp only [itemList, Option.bind_eq_bind, Option.bind_eq_some_iff, Option.pure_def,
      Option.some_inj] at hread
    obtain ⟨members, -, values, hvalues, rfl⟩ := hread
    rw [hitems]
    exact h.list.required hvalues
  · simp only [h.list.unordered.required hsame]

theorem lossless_hostClaimList :
    (hostClaimList texts).Lossless (HostClaimList.Legible texts) :=
  lossless_itemList (fun _ => rfl) (fun _ => rfl) (lossless_hostClaim texts)

theorem lossless_hostList : (hostList texts).Lossless (HostList.Legible texts) :=
  lossless_itemList (fun _ => rfl) (fun _ => rfl) (lossless_host texts)

/-! ## Strictness -/

/-- An object is read as a record only if its members are fields of the record, each at most
    once. -/
def Strict {α : Type} (wire : Wire α) (names : List String) : Prop :=
  ∀ members value, wire.decode (.object members) = some value →
    (∀ name ∈ members.map Prod.fst, name ∈ names) ∧ (members.map Prod.fst).Nodup

theorem strict_of_fields {α : Type} {wire : Wire α} {names : List String}
    {read : List (String × Json) → Option α}
    (h : ∀ json, wire.decode json = (fields names json).bind read) (hnodup : names.Nodup) :
    wire.Strict names := by
  intro members value hdecode
  rw [h] at hdecode
  obtain ⟨seen, hfields, -⟩ := Option.bind_eq_some_iff.mp hdecode
  have hsame : seen = members := by
    have hcases := hfields
    unfold fields at hcases
    dsimp only at hcases
    split at hcases
    · exact (Option.some.inj hcases).symm
    · cases hcases
  rw [← hsame]
  exact fields_ok hfields hnodup

end Wire

/-! ## Canonical texts -/

/-- The hyphenated form in lower case. -/
def isHyphenated (text : String) : Bool :=
  text.toList.length == 36 && text.toList.zipIdx.all fun (char, index) =>
    if index ∈ [8, 13, 18, 23] then char == '-'
    else '0' ≤ char ∧ char ≤ '9' ∨ 'a' ≤ char ∧ char ≤ 'f'

open Classical in
/-- The instant a text is printed for. -/
noncomputable def printedFor (text : String) : Option Timestamp :=
  if h : ∃ t : Timestamp, t.Representable ∧ t.text = text then some h.choose else none

/-- Different instants print differently. -/
theorem Timestamp.text_injective {t t' : Timestamp} (h : t.Representable) (h' : t'.Representable)
    (heq : t.text = t'.text) : t = t' := by
  have hne : ∀ {earlier later : Timestamp}, earlier.Representable → later.Representable →
      earlier.unixNanos < later.unixNanos → earlier.text ≠ later.text := by
    intro earlier later hearlier hlater hlt
    by_cases hovertaken : Overtaken earlier later
    · exact (text_lt_of_overtaken hearlier hlt hovertaken).ne'
    · exact (text_lt_of_not_overtaken hearlier hlater hlt hovertaken).ne
  rcases lt_trichotomy t.unixNanos t'.unixNanos with hlt | hsame | hlt
  · exact absurd heq (hne h h' hlt)
  · exact eq_of_unixNanos hsame
  · exact absurd heq.symm (hne h' h hlt)

/-- Parsers of what `Display` prints. -/
noncomputable def Texts.canonical : Texts where
  uuid text := if isHyphenated text then some text else none
  timestamp := printedFor
  uuid_canonical := by
    intro text canonical h
    split at h
    · rename_i hcanonical
      cases h
      exact if_pos hcanonical
    · cases h
  timestamp_text := by
    intro t h
    have hexists : ∃ t' : Timestamp, t'.Representable ∧ t'.text = t.text := ⟨t, h, rfl⟩
    unfold printedFor
    rw [dif_pos hexists]
    obtain ⟨hchosen, htext⟩ := hexists.choose_spec
    rw [Timestamp.text_injective hchosen h htext]
  timestamp_representable := by
    intro text t h
    unfold printedFor at h
    split at h
    · rename_i hexists
      cases h
      exact hexists.choose_spec.1
    · cases h

/-! ## The protocol -/

open Wire in
/-- The wire format loses nothing: every resource, parameter and result is read back as it was
    written, in whatever order the members of its objects arrive, provided that its identities are
    canonical and its instants are representable, as all are that were read. No record is read from
    an object with a member it does not have, or with one of them twice. -/
theorem protocol_is_lossless (texts : Texts) :
    ((hostClaimId texts).Lossless (HostClaimId.Legible texts) ∧
      (hostId texts).Lossless (HostId.Legible texts) ∧ hostResources.Lossless Any ∧
      hostClaimSpec.Lossless Any ∧ Wire.conditionStatus.Lossless Any ∧
      (condition texts).Lossless Condition.Legible ∧
      (hostClaimStatus texts).Lossless (HostClaimStatus.Legible texts) ∧
      (hostClaim texts).Lossless (HostClaim.Legible texts) ∧ hostPhase.Lossless Any ∧
      (hostStatus texts).Lossless HostStatus.Legible ∧
      (host texts).Lossless (Host.Legible texts)) ∧
    (emptyParams.Lossless Any ∧
      (systemInfoResult texts).Lossless (fun info => info.startedAt.Representable) ∧
      (createHostClaimParams texts).Lossless (fun params => params.id.Legible texts) ∧
      (getHostClaimParams texts).Lossless (HostClaimId.Legible texts) ∧
      (deleteHostClaimParams texts).Lossless (HostClaimId.Legible texts) ∧
      (getHostParams texts).Lossless (HostId.Legible texts) ∧
      (hostClaimList texts).Lossless (HostClaimList.Legible texts) ∧
      (hostList texts).Lossless (HostList.Legible texts) ∧ rpcErrorKind.Lossless Any) ∧
    ((∀ data canonical members, data.details ≠ some .null →
        rpcErrorData.encode data = .object canonical → members.Perm canonical →
        rpcErrorData.decode (.object members) = some data) ∧
      ∀ json data, rpcErrorData.decode json = some data → data.details ≠ some .null) ∧
    (hostResources.Strict ["vcpus", "memory_bytes", "storage_bytes"] ∧
      hostClaimSpec.Strict ["resources"] ∧
      (condition texts).Strict ["type", "status", "reason", "message", "observed_generation",
        "last_transition_at"] ∧
      (hostClaimStatus texts).Strict ["observed_generation", "host_id", "conditions"] ∧
      (hostClaim texts).Strict ["id", "generation", "created_at", "deletion_timestamp", "spec",
        "status"] ∧
      (hostStatus texts).Strict ["phase", "provider_resource_id", "observed_at", "conditions"] ∧
      (host texts).Strict ["id", "claim_id", "created_at", "allocatable_resources", "status"]) ∧
    (emptyParams.Strict [] ∧
      (systemInfoResult texts).Strict ["system_name", "binary_version", "rust_version",
        "protocol_version", "started_at"] ∧
      (createHostClaimParams texts).Strict ["id", "spec"] ∧
      (getHostClaimParams texts).Strict ["id"] ∧ (deleteHostClaimParams texts).Strict ["id"] ∧
      (getHostParams texts).Strict ["id"] ∧ (hostClaimList texts).Strict ["items"] ∧
      (hostList texts).Strict ["items"] ∧
      rpcErrorData.Strict ["kind", "resource_id", "details"]) := by
  refine ⟨?_, ?_, ⟨fun _ _ _ => decode_rpcErrorData, fun _ _ => details_of_rpcErrorData⟩, ?_, ?_⟩
  · exact ⟨lossless_hostClaimId texts, lossless_hostId texts, lossless_hostResources,
      lossless_hostClaimSpec, lossless_conditionStatus, lossless_condition texts,
      lossless_hostClaimStatus texts, lossless_hostClaim texts, lossless_hostPhase,
      lossless_hostStatus texts, lossless_host texts⟩
  · exact ⟨lossless_emptyParams, lossless_systemInfoResult texts,
      lossless_createHostClaimParams texts, lossless_idParams (lossless_hostClaimId texts),
      lossless_idParams (lossless_hostClaimId texts), lossless_idParams (lossless_hostId texts),
      lossless_hostClaimList texts, lossless_hostList texts, lossless_rpcErrorKind⟩
  · refine ⟨?_, ?_, ?_, ?_, ?_, ?_, ?_⟩ <;> exact strict_of_fields (fun _ => rfl) (by decide)
  · refine ⟨?_, ?_, ?_, ?_, ?_, ?_, ?_, ?_, ?_⟩ <;>
      exact strict_of_fields (fun _ => rfl) (by decide)

/-- Parameters whose members come in another order, at every depth. -/
theorem lossless_of_canonical :
    (Wire.createHostClaimParams Texts.canonical).decode
      (.object [
        ("spec", .object [("resources", .object [("storage_bytes", .integer 3),
          ("vcpus", .integer 1), ("memory_bytes", .integer 2)])]),
        ("id", .string "00000000-0000-0000-0000-000000000001")]) =
      some ⟨⟨"00000000-0000-0000-0000-000000000001"⟩, ⟨⟨1, 2, 3⟩⟩⟩ := by
  obtain ⟨-, ⟨-, -, hcreate, -⟩, -⟩ := protocol_is_lossless Texts.canonical
  refine hcreate.decode_reordered (show Texts.canonical.uuid _ = some _ by rfl) ?_
  refine .trans (.members (List.Perm.swap _ _ _)) (.member [_] [] "spec" ?_)
  refine .member [] [] "resources" (.members ?_)
  show List.Perm ([_] ++ [_, _]) ([_, _] ++ [_])
  exact List.perm_append_comm

end ControlPlane
