import ControlPlane.Storage.Reached

/-!
# The mutators of the RPC handlers and of the assignment

`create_claim`, `mark_claim_deleting` and `ensure_host`, statement by statement: an error leaves
the tables as they were, and a call that succeeded can be made again without changing anything.
The second call draws a clock reading and an identity of its own.
-/

namespace ControlPlane

open Interaction Interaction.Session Storage Database

variable {db db' : Database} {id : HostClaimId} {spec : HostClaimSpec} {claimId : HostClaimId}
  {providerPlanId : String} {resources : HostResources}

/-- A method that leaves everything or nothing, and that is idempotent. At every call it makes its
    own draw from the clock and the identities. -/
structure AtomicAndIdempotent {Draw α : Type} (method : Draw → Statements.Method α)
    (db : Database) : Prop where
  atomic : ∀ draw error, (perform (method draw) db).1 = .error error →
    (perform (method draw) db).2 = db
  again : ∀ draw later value db', perform (method draw) db = (.ok value, db') →
    perform (method later) db' = (.ok value, db')

/-- A conflict on a claim. -/
def ConflictOn {α : Type} (id : HostClaimId) (answer : Except AppError α) : Prop :=
  ∃ message, answer = .error (.conflict "HostClaim" id.text message)

/-! ## A call that finds its work done -/

theorem fetchClaimRow_of_claim {stored : HostClaimRecord} (h : db.claim? id = some stored) :
    ∃ row, fetchClaimRow db id = some row ∧ internal (claimRecordFromRow row) = .ok stored := by
  obtain ⟨row, hmem, hid, hdecode⟩ := Database.claim?_eq_some.mp h
  refine ⟨joinHost db row, ?_, internal_eq_ok.mpr hdecode⟩
  unfold fetchClaimRow
  rw [(Keyed.find?_eq_some_iff db.schema.claimIds).mpr ⟨hmem, hid⟩]
  rfl

/-- `create_claim` for a stored claim. -/
theorem createClaim_stored {stored : HostClaimRecord} (h : db.claim? id = some stored)
    (now : Timestamp) :
    createClaim id spec now db = validateResources spec.resources >>= fun _ =>
      if stored.resource.spec = spec then .ok (stored.resource, db)
      else .error (.conflict "HostClaim" id.text "the existing claim has a different spec") := by
  obtain ⟨row, hfetch, hdecode⟩ := fetchClaimRow_of_claim h
  unfold createClaim
  rw [hfetch]
  congr 1
  funext _
  show (internal (claimRecordFromRow row) >>= _) = _
  rw [hdecode]
  rfl

/-- `mark_claim_deleting` for a claim being deleted. -/
theorem markClaimDeleting_deleting {stored : HostClaimRecord} (h : db.claim? id = some stored)
    (hdeleting : stored.resource.deletionTimestamp.isSome) (now : Timestamp) :
    markClaimDeleting id now db = .ok (stored.resource, db) := by
  obtain ⟨row, hfetch, hdecode⟩ := fetchClaimRow_of_claim h
  have hnot : ¬ stored.resource.deletionTimestamp.isNone = true := by
    rw [Option.isNone_iff_eq_none]
    exact Option.isSome_iff_ne_none.mp hdeleting
  unfold markClaimDeleting
  rw [hfetch]
  show (internal (claimRecordFromRow row) >>= _) = _
  rw [hdecode]
  show (if _ then _ else _) = _
  rw [if_neg hnot]
  rfl

/-- `ensure_host` for a claim being deleted. -/
theorem ensureHost_deleting {stored : HostClaimRecord} (h : db.claim? claimId = some stored)
    (hdeleting : stored.resource.deletionTimestamp.isSome) (hostId : HostId) (now : Timestamp) :
    ensureHost claimId providerPlanId resources hostId now db =
      validateResources resources >>= fun _ =>
        .error (.conflict "HostClaim" claimId.text "the claim is being deleted") := by
  obtain ⟨row, hfetch, hdecode⟩ := fetchClaimRow_of_claim h
  unfold ensureHost
  rw [hfetch]
  congr 1
  funext _
  show (internal (claimRecordFromRow row) >>= _) = _
  rw [hdecode]
  show (if _ then _ else _) = _
  rw [if_pos hdeleting]
  rfl

/-- `ensure_host` for a claim in use that has a Host. -/
theorem ensureHost_assigned {stored : HostClaimRecord} {row : HostRow} {host : HostRecord}
    (h : db.claim? claimId = some stored) (hlive : stored.resource.deletionTimestamp = none)
    (hmem : row ∈ db.hosts) (howner : row.claimId = claimId)
    (hdecode : hostRecordFromRow row = .ok host) (hostId : HostId) (now : Timestamp) :
    ensureHost claimId providerPlanId resources hostId now db =
      validateResources resources >>= fun _ =>
        validateHostAssignment host providerPlanId resources >>= fun _ => .ok (host, db) := by
  obtain ⟨claimRow, hfetch, hclaim⟩ := fetchClaimRow_of_claim h
  have hbound : fetchHostForClaimRow db claimId = some row :=
    (Keyed.find?_eq_some_iff db.schema.hostClaimIds).mpr ⟨hmem, howner⟩
  have hnot : ¬ stored.resource.deletionTimestamp.isSome = true := by simp [hlive]
  unfold ensureHost
  rw [hfetch, hbound]
  congr 1
  funext _
  show (internal (claimRecordFromRow claimRow) >>= _) = _
  rw [hclaim]
  show (if _ then _ else _) = _
  rw [if_neg hnot]
  show (internal (hostRecordFromRow row) >>= _) = _
  rw [internal_eq_ok.mpr hdecode]
  rfl

/-- The arguments of a call that succeeded are valid. -/
theorem validated {α : Type} {valid : Except AppError Unit} {rest : Unit → Except AppError α}
    {value : α} (h : (valid >>= rest) = .ok value) : valid = .ok () := by
  obtain ⟨_, hvalid, -⟩ := bind_eq_ok.mp h
  exact hvalid

/-! ## What a successful call leaves -/

/-- After `create_claim` the claim is stored with its spec. -/
theorem createClaim_stores {now : Timestamp} {claim : HostClaim} (readable : db.Readable)
    (h : createClaim id spec now db = .ok (claim, db')) :
    ∃ stored, db'.claim? id = some stored ∧ stored.resource = claim ∧
      stored.resource.spec = spec := by
  rcases createClaim_ok readable h with ⟨stored, hstored, hclaim, rfl⟩ | ⟨-, hclaim, -, -, hview⟩
  · rw [createClaim_stored hstored] at h
    obtain ⟨_, -, hcases⟩ := bind_eq_ok.mp h
    split at hcases
    · rename_i hspec
      exact ⟨stored, hstored, hclaim.symm, hspec⟩
    · cases hcases
  · refine ⟨_, by rw [hview, Function.update_self], hclaim.symm, rfl⟩

/-- After `mark_claim_deleting` the claim is stored as it was returned, and being deleted. -/
theorem markClaimDeleting_stores {now : Timestamp} {claim : HostClaim} (readable : db.Readable)
    (h : markClaimDeleting id now db = .ok (claim, db')) :
    ∃ stored, db'.claim? id = some stored ∧ stored.resource = claim ∧
      stored.resource.deletionTimestamp.isSome := by
  obtain ⟨stored, hstored, hcases⟩ := markClaimDeleting_ok readable h
  rcases hcases with ⟨hdeleting, hclaim, rfl⟩ | ⟨-, hclaim, -, -, hview⟩
  · exact ⟨stored, hstored, hclaim.symm, hdeleting⟩
  · exact ⟨_, by rw [hview, Function.update_self], hclaim.symm, rfl⟩

/-- After `ensure_host` the claim is in use and has the Host that was returned, with the plan and
    the resources asked for. -/
theorem ensureHost_stores {hostId : HostId} {now : Timestamp} {host : HostRecord}
    (readable : db.Readable)
    (h : ensureHost claimId providerPlanId resources hostId now db = .ok (host, db')) :
    (∃ claim, db'.claim? claimId = some claim ∧ claim.resource.deletionTimestamp = none) ∧
      (∃ row ∈ db'.hosts, row.claimId = claimId ∧ hostRecordFromRow row = .ok host) ∧
      host.providerPlanId = providerPlanId ∧ host.resource.allocatableResources = resources := by
  obtain ⟨claim, hclaim, hlive, hcases⟩ := ensureHost_ok readable h
  rcases hcases with ⟨rfl, hhost, howner⟩ | ⟨-, -, rfl, hhost, hview⟩
  · obtain ⟨row, hmem, -, hdecode⟩ := host?_eq_some.mp hhost
    have hrow : row.claimId = claimId := (hostColumns hdecode).claimId.symm.trans howner
    rw [ensureHost_assigned hclaim hlive hmem hrow hdecode] at h
    obtain ⟨_, -, hassigned⟩ := bind_eq_ok.mp h
    have hvalid := validated hassigned
    unfold validateHostAssignment at hvalid
    split at hvalid
    · cases hvalid
    · rename_i hsame
      rw [not_or, not_not, not_not] at hsame
      exact ⟨⟨claim, hclaim, hlive⟩, ⟨row, hmem, hrow, hdecode⟩, hsame⟩
  · have hassigned : db'.claim? claimId = some (assignHost claim hostId now) := by
      rw [hview, Function.update_self]
    refine ⟨⟨_, hassigned, hlive⟩, ?_, rfl, rfl⟩
    have hstored : db'.host? hostId =
        some (newHost claimId providerPlanId resources hostId now) := by
      rw [hhost, Function.update_self]
    obtain ⟨row, hmem, -, hdecode⟩ := host?_eq_some.mp hstored
    exact ⟨row, hmem, (hostColumns hdecode).claimId.symm, hdecode⟩

/-- A stored Host with the plan and the resources asked for passes `validate_host_assignment`. -/
theorem validateHostAssignment_same {host : HostRecord}
    (hplan : host.providerPlanId = providerPlanId)
    (hresources : host.resource.allocatableResources = resources) :
    validateHostAssignment host providerPlanId resources = .ok () := by
  unfold validateHostAssignment
  rw [if_neg]
  rw [not_or, not_not, not_not]
  exact ⟨hplan, hresources⟩

/-! ## The three methods -/

theorem atomic_of_run {Draw α : Type} {method : Draw → Statements.Method α}
    {operation : Draw → Database → Except AppError (α × Database)}
    (hperform : ∀ draw db, perform (method draw) db = run (operation draw) db)
    (hagain : ∀ draw later value db', operation draw db = .ok (value, db') →
      operation later db' = .ok (value, db')) : AtomicAndIdempotent method db := by
  refine ⟨fun draw error herror => ?_, fun draw later value db' hok => ?_⟩
  · rw [hperform] at herror ⊢
    exact run_error herror
  · rw [hperform] at hok ⊢
    exact run_eq_ok.mpr (hagain draw later value db' (run_eq_ok.mp hok))

theorem createClaim_again (readable : db.Readable) (id : HostClaimId) (spec : HostClaimSpec) :
    AtomicAndIdempotent (Statements.createClaim id spec) db := by
  apply atomic_of_run fun now db => Statements.perform_createClaim id spec now
  intro now later claim db' h
  obtain ⟨stored, hstored, hclaim, hspec⟩ := createClaim_stores readable h
  have hvalid := validated h
  rw [createClaim_stored hstored, hvalid, hclaim]
  show (if _ then _ else _) = _
  rw [if_pos (hclaim ▸ hspec)]

theorem markClaimDeleting_again (readable : db.Readable) (id : HostClaimId) :
    AtomicAndIdempotent (Statements.markClaimDeleting id) db := by
  apply atomic_of_run fun now db => Statements.perform_markClaimDeleting id now
  intro now later claim db' h
  obtain ⟨stored, hstored, hclaim, hdeleting⟩ := markClaimDeleting_stores readable h
  rw [markClaimDeleting_deleting hstored hdeleting, hclaim]

theorem ensureHost_again (readable : db.Readable) (claimId : HostClaimId)
    (providerPlanId : String) (resources : HostResources) :
    AtomicAndIdempotent (fun draw : HostId × Timestamp =>
      Statements.ensureHost claimId providerPlanId resources draw.1 draw.2) db := by
  apply atomic_of_run fun draw db =>
    Statements.perform_ensureHost claimId providerPlanId resources draw.1 draw.2
  intro draw later host db' h
  obtain ⟨⟨claim, hclaim, hlive⟩, ⟨row, hmem, howner, hdecode⟩, hplan, hresources⟩ :=
    ensureHost_stores readable h
  rw [ensureHost_assigned hclaim hlive hmem howner hdecode, validated h,
    validateHostAssignment_same hplan hresources]
  rfl

/-- `ensure_host` for a bound claim, being deleted or not, with another plan or other resources. -/
theorem ensureHost_conflict {stored : HostClaimRecord} {row : HostRow} {host : HostRecord}
    (hvalid : validateResources resources = .ok ()) (h : db.claim? claimId = some stored)
    (hmem : row ∈ db.hosts) (howner : row.claimId = claimId)
    (hdecode : hostRecordFromRow row = .ok host)
    (hother : host.providerPlanId ≠ providerPlanId ∨
      host.resource.allocatableResources ≠ resources) (hostId : HostId) (now : Timestamp) :
    ConflictOn claimId (ensureHost claimId providerPlanId resources hostId now db) := by
  by_cases hdeleting : stored.resource.deletionTimestamp.isSome
  · rw [ensureHost_deleting h hdeleting, hvalid]
    exact ⟨_, rfl⟩
  · have hlive : stored.resource.deletionTimestamp = none := by simpa using hdeleting
    rw [ensureHost_assigned h hlive hmem howner hdecode, hvalid]
    unfold validateHostAssignment
    rw [if_pos hother, (hostColumns hdecode).claimId, howner]
    exact ⟨_, rfl⟩

/-- The answer of a method that is an atomic operation and answers with a conflict. -/
theorem ConflictOn.of_run {α : Type} {method : Statements.Method α}
    {operation : Database → Except AppError (α × Database)}
    (hperform : perform method db = run operation db) (h : ConflictOn id (operation db)) :
    ConflictOn id (perform method db).1 := by
  obtain ⟨message, hconflict⟩ := h
  refine ⟨message, ?_⟩
  rw [hperform, Statements.run_eq_settle, hconflict]
  rfl

/-- In every readable state: `create_claim`, `mark_claim_deleting` and `ensure_host` are atomic and
    idempotent; what they return is then the one row stored for the claim; and what they cannot
    reconcile with the stored rows is a conflict. -/
theorem mutators_are_atomic_and_idempotent (readable : db.Readable) :
    (∀ id spec, AtomicAndIdempotent (Statements.createClaim id spec) db) ∧
    (∀ id, AtomicAndIdempotent (Statements.markClaimDeleting id) db) ∧
    (∀ claimId providerPlanId resources, AtomicAndIdempotent (fun draw : HostId × Timestamp =>
      Statements.ensureHost claimId providerPlanId resources draw.1 draw.2) db) ∧
    (∀ id spec now claim db', perform (Statements.createClaim id spec now) db = (.ok claim, db') →
      db'.hostClaims.countP (fun row => row.id = id) = 1 ∧
        ∃ row ∈ db'.hostClaims, row.id = id ∧ ∃ record,
          claimRecordFromRow (joinHost db' row) = .ok record ∧ record.resource = claim ∧
            record.resource.spec = spec) ∧
    (∀ claimId providerPlanId resources hostId now host db',
      perform (Statements.ensureHost claimId providerPlanId resources hostId now) db =
        (.ok host, db') →
      db'.hosts.countP (fun row => row.claimId = claimId) = 1 ∧
        (∃ row ∈ db'.hosts, row.claimId = claimId ∧ hostRecordFromRow row = .ok host) ∧
        host.providerPlanId = providerPlanId ∧
        host.resource.allocatableResources = resources) ∧
    (∀ id spec now stored, validateResources spec.resources = .ok () →
      db.claim? id = some stored → stored.resource.spec ≠ spec →
      ConflictOn id (perform (Statements.createClaim id spec now) db).1) ∧
    (∀ claimId providerPlanId resources hostId now row host,
      validateResources resources = .ok () → row ∈ db.hosts → row.claimId = claimId →
      hostRecordFromRow row = .ok host →
      host.providerPlanId ≠ providerPlanId ∨ host.resource.allocatableResources ≠ resources →
      ConflictOn claimId
        (perform (Statements.ensureHost claimId providerPlanId resources hostId now) db).1) ∧
    (∀ claimId providerPlanId resources hostId now stored,
      validateResources resources = .ok () → db.claim? claimId = some stored →
      stored.resource.deletionTimestamp.isSome →
      ConflictOn claimId
        (perform (Statements.ensureHost claimId providerPlanId resources hostId now) db).1) := by
  refine ⟨createClaim_again readable, markClaimDeleting_again readable, ensureHost_again readable,
    ?_, ?_, ?_, ?_, ?_⟩
  · intro id spec now claim db' h
    rw [Statements.perform_createClaim, run_eq_ok] at h
    obtain ⟨stored, hstored, hclaim, hspec⟩ := createClaim_stores readable h
    obtain ⟨row, hmem, hid, hdecode⟩ := claim?_eq_some.mp hstored
    exact ⟨Keyed.countP_key_eq_one db'.schema.claimIds hmem hid,
      row, hmem, hid, stored, hdecode, hclaim, hspec⟩
  · intro claimId providerPlanId resources hostId now host db' h
    rw [Statements.perform_ensureHost, run_eq_ok] at h
    obtain ⟨-, ⟨row, hmem, howner, hdecode⟩, hassigned⟩ := ensureHost_stores readable h
    exact ⟨Keyed.countP_key_eq_one db'.schema.hostClaimIds hmem howner,
      ⟨row, hmem, howner, hdecode⟩, hassigned⟩
  · intro id spec now stored hvalid hstored hspec
    refine .of_run (Statements.perform_createClaim id spec now)
      ⟨"the existing claim has a different spec", ?_⟩
    rw [createClaim_stored hstored, hvalid]
    show (if _ then _ else _) = _
    rw [if_neg hspec]
  · intro claimId providerPlanId resources hostId now row host hvalid hmem howner hdecode hother
    obtain ⟨claimRow, hclaimMem, hid⟩ := List.mem_map.mp (db.schema.hostReferences row hmem)
    obtain ⟨stored, hstored, -⟩ := readable.claim_of_row hclaimMem
    rw [hid, howner] at hstored
    exact .of_run (Statements.perform_ensureHost ..)
      (ensureHost_conflict hvalid hstored hmem howner hdecode hother hostId now)
  · intro claimId providerPlanId resources hostId now stored hvalid hstored hdeleting
    refine .of_run (Statements.perform_ensureHost ..) ⟨"the claim is being deleted", ?_⟩
    rw [ensureHost_deleting hstored hdeleting, hvalid]
    rfl

/-- A database with one claim. -/
def oneClaim : Database :=
  Mutation.apply .empty (.createClaim ⟨"claim"⟩ ⟨⟨1, 1, 1⟩⟩ ⟨0⟩)

/-- The Host that is assigned to it. -/
def oneHost : HostRecord where
  resource := initialHost ⟨"host"⟩ ⟨"claim"⟩ ⟨1, 1, 1⟩ ⟨0⟩
  providerPlanId := "plan"
  retry := RetryState.default

/-- The database with one claim and its Host. -/
def oneBound : Database :=
  Mutation.apply oneClaim (.ensureHost ⟨"claim"⟩ "plan" ⟨1, 1, 1⟩ ⟨"host"⟩ ⟨0⟩)

theorem ensureHost_oneClaim :
    perform (Statements.ensureHost ⟨"claim"⟩ "plan" ⟨1, 1, 1⟩ ⟨"host"⟩ ⟨0⟩) oneClaim =
      (.ok oneHost, oneBound) := by
  decide +kernel

/-- In a database with one claim, and after a Host was assigned to it: the assignment can be made
    again, is the only one, and conflicts with another spec and with another plan. -/
theorem mutators_idempotent_on_oneClaim :
    AtomicAndIdempotent (fun draw : HostId × Timestamp =>
        Statements.ensureHost ⟨"claim"⟩ "plan" ⟨1, 1, 1⟩ draw.1 draw.2) oneClaim ∧
      AtomicAndIdempotent (Statements.markClaimDeleting ⟨"claim"⟩) oneBound ∧
      oneBound.hosts.countP (fun row => row.claimId = ⟨"claim"⟩) = 1 ∧
      ConflictOn ⟨"claim"⟩
        (perform (Statements.createClaim ⟨"claim"⟩ ⟨⟨2, 1, 1⟩⟩ ⟨0⟩) oneBound).1 ∧
      ConflictOn ⟨"claim"⟩
        (perform (Statements.ensureHost ⟨"claim"⟩ "other" ⟨1, 1, 1⟩ ⟨"another"⟩ ⟨1⟩)
          oneBound).1 := by
  have hreached : Reached oneClaim := .apply _ .empty
  obtain ⟨-, -, hensure, -, hassigned, -⟩ :=
    mutators_are_atomic_and_idempotent hreached.readable
  obtain ⟨honce, ⟨row, hmem, howner, hdecode⟩, -⟩ :=
    hassigned _ _ _ _ _ _ _ ensureHost_oneClaim
  have hbound : Reached oneBound := .apply _ hreached
  obtain ⟨-, hmark, -, -, -, hcreate, hconflict, -⟩ :=
    mutators_are_atomic_and_idempotent hbound.readable
  have hspec : (oneBound.claim? ⟨"claim"⟩).map (·.resource.spec) = some ⟨⟨1, 1, 1⟩⟩ := by
    decide +kernel
  obtain ⟨stored, hstored, hsame⟩ := Option.map_eq_some_iff.mp hspec
  refine ⟨hensure _ _ _, hmark _, honce, ?_, ?_⟩
  · exact hcreate _ _ _ stored (by decide +kernel) hstored (by rw [hsame]; decide)
  · exact hconflict _ _ _ _ _ row oneHost (by decide +kernel) hmem howner hdecode
      (.inl (by decide +kernel))

end ControlPlane
