import ControlPlane.Controller.Changes
import ControlPlane.Controller.Scenario

/-!
# A claim and its Host agree between two passes

Without crashes and storage failures, a live claim publishes the readiness of its Host whenever
no pass is in progress: between the save of a Host and the save of its claim the pass is about
to do the latter, and `save_claim_status` discards it only if the claim is no longer live.
-/

namespace ControlPlane

open Interaction

variable {σ : Type} {P : ProviderModel σ} {provider : σ} {c c' : Daemon σ} {label : Label}

/-- No crash and no storage failure. -/
def Smooth (_ : Daemon σ) (label : Label) (_ : Daemon σ) : Prop :=
  label ≠ .crash ∧ label ≠ .fault

/-- The pass is about to give the claim the readiness of its Host. -/
def AboutToAgree (c : Daemon σ) (id : HostClaimId) (host : HostRecord) : Prop :=
  ∃ record, c.pending = some (.saveClaimStatus record) ∧ record.resource.id = id ∧
    record.resource.deletionTimestamp = none ∧ record.reports "Ready" = host.reports "Ready"

/-- Every live claim agrees with its Host, if the Host is one of those meant, or is about to. -/
def AgreedOn (meant : HostRecord → Prop) (c : Daemon σ) : Prop :=
  ∀ id claim hostId host, c.world.database.claim? id = some claim →
    claim.resource.deletionTimestamp = none → claim.resource.status.hostId = some hostId →
    c.world.database.host? hostId = some host → meant host →
    claim.reports "Ready" = host.reports "Ready" ∨ AboutToAgree c id host

/-- Every live claim agrees with its Host, or is about to. -/
def Agreed (c : Daemon σ) : Prop :=
  AgreedOn (fun _ => True) c

/-- After a Host of a live claim was published, the pass comes to publish the claim. -/
theorem AwaitPoint.after_publish {log events : Happened} {db : Database} {effect : Effect}
    {record : HostRecord} {now : Timestamp} {claimId : HostClaimId} {hostId : HostId}
    (h : AwaitPoint log db effect)
    (hlog : log = ⟨.saveHost record, .ok ()⟩ :: ⟨.nowTimestamp, now⟩ :: events)
    (hspan : currentSpan events = some (.reconcileHost claimId hostId)) :
    ∃ status, effect = .saveClaimStatus status ∧ status.resource.id = claimId ∧
      status.resource.deletionTimestamp = none ∧
      status.reports "Ready" = record.reports "Ready" := by
  cases h with
  | nowTimestamp hquiet | wake hquiet =>
    rw [hlog] at hquiet
    exact hquiet.elim
  | enterDeletion _ hquiet | readHost _ hquiet | enterClaim _ hquiet =>
    rw [hlog] at hquiet
    exact hquiet.elim
  | publishDeletionConflict =>
    cases hlog
    cases hspan
  | delete =>
    cases hlog
    cases hspan
  | saveClaimStatus turn hlive publishing =>
    cases hlog
    have hpublishes := publishing.publishes turn.truthful.typed turn.typed
    rw [publishing.span] at hspan
    cases hspan
    refine ⟨_, rfl, ?_, ?_, hpublishes.agree⟩
    · rw [← hpublishes.claimKept]
      rfl
    · rw [← hpublishes.claimKept]
      exact hlive
  | _ => cases hlog

/-- The claim of a stored Host. -/
theorem claim_of_host {db : Database} {hostId : HostId} {host : HostRecord}
    {id : HostClaimId} (readable : db.Readable) (hhost : db.host? hostId = some host)
    (howner : host.resource.claimId = id) :
    ∃ claim, db.claim? id = some claim ∧ claim.resource.status.hostId = some hostId := by
  rw [← howner]
  exact Database.host?_claim readable hhost

/-- The owner of the Host a stored claim is bound to. -/
theorem owner_of_bound {db : Database} {hostId : HostId} {host : HostRecord}
    {id : HostClaimId} {claim : HostClaimRecord} (readable : db.Readable)
    (hclaim : db.claim? id = some claim) (hbound : claim.resource.status.hostId = some hostId)
    (hhost : db.host? hostId = some host) : host.resource.claimId = id := by
  obtain ⟨host', hhost', howner⟩ := (Database.claim?_hostId readable hclaim).mp hbound
  rw [hhost] at hhost'
  cases hhost'
  exact howner

/-- A deletion turn is not about the Host of a live claim. -/
theorem HostTurn.not_live {nowMs : Int64} {claim claim' : HostClaimRecord}
    {host stored current : HostRecord} {log : Happened} {db : Database}
    (turn : HostTurn nowMs claim host stored log db)
    (hdeleting : claim.resource.deletionTimestamp.isSome)
    (hcurrent : db.host? host.resource.id = some current)
    (hclaim : db.claim? current.resource.claimId = some claim') :
    claim'.resource.deletionTimestamp ≠ none := by
  rw [turn.stored] at hcurrent
  cases hcurrent
  have howner : stored.resource.claimId = claim.resource.id := by
    rw [← turn.kept]
    exact turn.owner
  rw [howner, turn.stored_of_deleting hdeleting] at hclaim
  cases hclaim
  exact Option.isSome_iff_ne_none.mp hdeleting

section Steps

variable {meant : HostRecord → Prop}

/-- A step that saves no claim status keeps the agreement. -/
theorem agreed_step_of_other
    (hintent : ∀ host, meant (provisioningIntent host) → meant host)
    (sound : System.Sound (discipline P) (fun _ log _ => Quiet log) c)
    (sound' : System.Sound (discipline P) (fun _ log _ => Quiet log) c')
    (hstep : (daemon P).Step reconcileOnce c label c') (hagreed : AgreedOn meant c)
    (hother : ∀ record, c.pending ≠ some (.saveClaimStatus record)) : AgreedOn meant c' := by
  have hinv : c.world.database.Invariant := sound.inv
  have hinv' : c'.world.database.Invariant := sound'.inv
  intro id claim hostId host hclaim hlive hbound hhost hmeant
  have howner := owner_of_bound hinv'.readable hclaim hbound hhost
  have hchange := host_change sound hstep hostId
  rw [hhost] at hchange
  generalize hbefore : c.world.database.host? hostId = before at hchange
  have hstrict : ∀ {claim host}, c.world.database.claim? id = some claim →
      claim.resource.deletionTimestamp = none → claim.resource.status.hostId = some hostId →
      c.world.database.host? hostId = some host → meant host →
      claim.reports "Ready" = host.reports "Ready" := by
    intro claim host hclaim hlive hbound hhost hmeant
    rcases hagreed _ _ _ _ hclaim hlive hbound hhost hmeant with hagree | ⟨record, hpending, -⟩
    · exact hagree
    · exact absurd hpending (hother record)
  cases hchange with
  | kept =>
    obtain ⟨claim', hclaim', hbound'⟩ := claim_of_host hinv.readable hbefore howner
    have hclaimChange := claim_change sound hstep hclaim'
    rw [hclaim] at hclaimChange
    cases hclaimChange with
    | kept => exact .inl (hstrict hclaim' hlive hbound' hbefore hmeant)
    | requested => cases hlive
    | assigned _ hunbound =>
      rw [hunbound] at hbound'
      cases hbound'
    | written hpending => exact absurd hpending (hother _)
  | @inserted claimId providerPlanId resources now claim' hpending hclaim' hlive' hunbound' =>
    have hid : claimId = id := howner
    subst hid
    have hclaimChange := claim_change sound hstep hclaim'
    rw [hclaim] at hclaimChange
    cases hclaimChange with
    | kept =>
      rw [hunbound'] at hbound
      cases hbound
    | requested => cases hlive
    | assigned =>
      left
      rw [(truthful_assignHost (hinv.claims hclaim').typed hlive' _ _).2]
      exact (Database.consistent_newHost _ _ _ _ _).2.1.symm
    | written hpending' => exact absurd hpending' (hother _)
  | @saved before record hpending hlog hid hawait =>
    have howner' : before.resource.claimId = id := howner
    obtain ⟨claim', hclaim', hbound'⟩ := claim_of_host hinv.readable hbefore howner'
    have hsame : claim = claim' := by
      have hclaimChange := claim_change sound hstep hclaim'
      rw [hclaim] at hclaimChange
      cases hclaimChange with
      | kept => rfl
      | requested => cases hlive
      | assigned _ hunbound =>
        rw [hunbound] at hbound'
        cases hbound'
      | written hpending' => exact absurd hpending' (hother _)
    subst hsame
    have hnotLive := hclaim'
    rw [← howner'] at hnotLive
    subst hid
    rcases hawait.saveHost_cases with ⟨_, _, _, _, _, turn, hdeleting, hhostId⟩ |
      ⟨stored, hstored, rfl⟩ |
      ⟨nowMs, turnClaim, host, stored, now, updated, events, base, turn, -, publishing, hevents,
        rfl⟩
    · rw [hhostId] at hbefore
      exact absurd hlive (turn.not_live hdeleting hbefore hnotLive)
    · rw [hbefore] at hstored
      cases hstored
      left
      rw [hstrict hclaim' hlive hbound' hbefore (hintent before hmeant)]
      rfl
    · right
      have hpublishes := publishing.publishes turn.truthful.typed turn.typed
      obtain ⟨-, -, program, hprogram⟩ := answered_of_log sound hstep hlog
      rw [hevents] at hlog
      cases program with
      | done value =>
        have hquiet := sound'.promise hprogram
        rw [hlog] at hquiet
        exact hquiet.elim
      | call effect next =>
        have hpending' : c'.pending = some effect := by
          unfold Config.pending
          rw [hprogram]
          rfl
        have hissue : AwaitPoint c'.log c'.world.database effect := sound'.issue hpending'
        obtain ⟨status, rfl, hstatusId, hstatusLive, hready⟩ :=
          hissue.after_publish hlog publishing.span
        refine ⟨status, hpending', ?_, hstatusLive, hready⟩
        have hhostId : updated.2.resource.id = host.resource.id := by
          rw [← hpublishes.hostKept]
          rfl
        rw [hhostId, turn.stored] at hbefore
        cases hbefore
        calc
          status.resource.id = turnClaim.resource.id := hstatusId
          _ = host.resource.claimId := turn.owner.symm
          _ = before.resource.claimId := by rw [← turn.kept]; rfl
          _ = id := howner'

/-- A step of other tasks keeps the agreement. -/
theorem agreed_step_of_rely (hinv : c.world.database.Invariant)
    (hinv' : c'.world.database.Invariant) (hrely : c.world.database.Rely c'.world.database)
    (hpending : c'.pending = c.pending) (hagreed : AgreedOn meant c) : AgreedOn meant c' := by
  intro id claim hostId host hclaim hlive hbound hhost hmeant
  have howner := owner_of_bound hinv'.readable hclaim hbound hhost
  rw [hrely.hosts] at hhost
  obtain ⟨claim', hclaim', hbound'⟩ := claim_of_host hinv.readable hhost howner
  have hid := Database.claim?_id hclaim'
  rcases hrely.claims hclaim' with hkept | ⟨-, _, hrequested⟩
  · rw [hid, hclaim] at hkept
    cases hkept
    rcases hagreed _ _ _ _ hclaim' hlive hbound' hhost hmeant with
      hagree | ⟨record, hrecord, hrest⟩
    · exact .inl hagree
    · exact .inr ⟨record, hpending.trans hrecord, hrest⟩
  · rw [hid, hclaim] at hrequested
    cases hrequested
    cases hlive

/-- A status about to be saved for a live claim with a Host is the readiness of that Host. -/
theorem AwaitPoint.agrees {log : Happened} {db : Database} {record stored : HostClaimRecord}
    {hostId : HostId} {host : HostRecord} (h : AwaitPoint log db (.saveClaimStatus record))
    (hstored : db.claim? record.resource.id = some stored)
    (hdeletion : stored.resource.deletionTimestamp = record.resource.deletionTimestamp)
    (hlive : stored.resource.deletionTimestamp = none)
    (hbound : stored.resource.status.hostId = some hostId) (hhost : db.host? hostId = some host) :
    (stored.withStatus record).reports "Ready" = host.reports "Ready" := by
  cases h with
  | publishDeletionConflict turn hdeleting =>
    rw [turn.toTurn.stored_eq rfl hstored hdeletion] at hlive
    exact absurd hlive (Option.isSome_iff_ne_none.mp hdeleting)
  | saveClaimStatus turn _ publishing =>
    have hpublishes := publishing.publishes turn.truthful.typed turn.typed
    rw [turn.toTurn.stored_eq hpublishes.claimKept hstored hdeletion] at hbound ⊢
    rw [turn.bound] at hbound
    cases hbound
    rw [turn.stored] at hhost
    cases hhost
    rw [hpublishes.claimKept]
    exact hpublishes.agree
  | saveUnsatisfiable turn _ hunbound =>
    rw [turn.stored_eq rfl hstored hdeletion, hunbound] at hbound
    cases hbound
  | saveProviderError turn _ hunbound =>
    rw [turn.stored_eq (kept_scheduleClaimProviderError _ _ _ _) hstored hdeletion,
      hunbound] at hbound
    cases hbound

/-- The save of a claim status leaves the claim in agreement. -/
theorem agreed_step_of_save (sound : System.Sound (discipline P) (fun _ log _ => Quiet log) c)
    {record : HostClaimRecord} {answer : Answer (.saveClaimStatus record)}
    (hpending : c.pending = some (.saveClaimStatus record))
    (hexec : World.exec P c.world (.saveClaimStatus record) answer c'.world)
    (hagreed : AgreedOn meant c) : AgreedOn meant c' := by
  have hinv : c.world.database.Invariant := sound.inv
  have hawait : AwaitPoint c.log c.world.database (.saveClaimStatus record) :=
    sound.issue hpending
  obtain ⟨saved, db', hsave⟩ : ∃ saved db',
      Storage.saveClaimStatus record c.world.database = .ok (saved, db') :=
    Storage.saveClaimStatus_succeeds hawait.saveClaimStatus_fits
  have hdb : c'.world.database = db' := by
    rw [hexec.2, Storage.run, hsave]
  intro id claim hostId host hclaim hlive hbound hhost hmeant
  left
  rw [hdb] at hclaim hhost
  rcases Storage.saveClaimStatus_ok hinv.readable hsave with
    ⟨-, -, hhosts, stored, hstored, hdeletion, hclaims⟩ | ⟨-, rfl, hstale⟩
  · rw [hhosts] at hhost
    rw [hclaims] at hclaim
    by_cases hid : id = record.resource.id
    · rw [hid, Function.update_self] at hclaim
      cases hclaim
      exact hawait.agrees hstored hdeletion hlive hbound hhost
    · rw [Function.update_of_ne hid] at hclaim
      rcases hagreed _ _ _ _ hclaim hlive hbound hhost hmeant with
        hagree | ⟨other, hother, hid', -⟩
      · exact hagree
      · rw [hpending] at hother
        cases hother
        exact absurd hid'.symm hid
  · rcases hagreed _ _ _ _ hclaim hlive hbound hhost hmeant with
      hagree | ⟨other, hother, hid, hlive', -⟩
    · exact hagree
    · rw [hpending] at hother
      cases hother
      rw [← hid] at hclaim
      exact absurd (hlive.trans hlive'.symm) (hstale claim hclaim)

/-- A crash or a storage failure takes the place of the save of a live claim that has not yet the
    readiness of a Host meant. -/
def Torn (meant : HostRecord → Prop) (c : Daemon σ) (label : Label) : Prop :=
  (label = .crash ∨ label = .fault) ∧ ∃ record claim hostId host,
    c.pending = some (.saveClaimStatus record) ∧
    c.world.database.claim? record.resource.id = some claim ∧
    claim.resource.deletionTimestamp = none ∧ claim.resource.status.hostId = some hostId ∧
    c.world.database.host? hostId = some host ∧ meant host ∧
    claim.reports "Ready" ≠ host.reports "Ready"

/-- A save that is torn from its Host's keeps the agreement, if there is nothing to tear. -/
theorem agreed_step_of_untorn {record : HostClaimRecord}
    (hpending : c.pending = some (.saveClaimStatus record)) (huntorn : ¬ Torn meant c label)
    (hlabel : label = .crash ∨ label = .fault)
    (hdatabase : c'.world.database = c.world.database) (hagreed : AgreedOn meant c) :
    AgreedOn meant c' := by
  intro id claim hostId host hclaim hlive hbound hhost hmeant
  rw [hdatabase] at hclaim hhost
  left
  rcases hagreed _ _ _ _ hclaim hlive hbound hhost hmeant with hagree | ⟨other, hother, hid, -⟩
  · exact hagree
  · rw [hpending] at hother
    cases hother
    by_contra hne
    rw [← hid] at hclaim
    exact huntorn ⟨hlabel, record, claim, hostId, host, hpending, hclaim, hlive, hbound, hhost,
      hmeant, hne⟩

/-- One step that tears nothing keeps the agreement. -/
theorem agreed_step (hintent : ∀ host, meant (provisioningIntent host) → meant host)
    (sound : System.Sound (discipline P) (fun _ log _ => Quiet log) c)
    (hstep : (daemon P).Step reconcileOnce c label c') (huntorn : ¬ Torn meant c label)
    (hagreed : AgreedOn meant c) : AgreedOn meant c' := by
  have sound' := sound.step (daemon_obeys P) hstep
  by_cases hsave : ∃ record, c.pending = some (.saveClaimStatus record)
  · obtain ⟨record, hpending⟩ := hsave
    cases hstep with
    | interfere hother =>
      exact agreed_step_of_rely sound.inv sound'.inv
        ((daemon_obeys P).interfere _ _ sound.inv hother).2 rfl hagreed
    | start => cases hpending
    | finish => cases hpending
    | crash hcrash =>
      obtain ⟨provider, -, rfl⟩ := hcrash
      exact agreed_step_of_untorn hpending huntorn (.inl rfl) rfl hagreed
    | fault hfault =>
      have hpending' := hpending
      cases hpending'
      obtain ⟨-, rfl⟩ := hfault
      exact agreed_step_of_untorn hpending huntorn (.inr rfl) rfl hagreed
    | perform hexec =>
      cases hpending
      exact agreed_step_of_save sound rfl hexec hagreed
  · exact agreed_step_of_other hintent sound sound' hstep hagreed fun record hpending =>
      hsave ⟨record, hpending⟩

/-- In a run that tears nothing, a live claim agrees with its Host, if that is one of those meant,
    or is about to. -/
theorem agreedOn_of_reachable
    {allowed : Daemon σ → Label → Daemon σ → Prop} (h : Reachable P allowed provider c)
    (hintent : ∀ host, meant (provisioningIntent host) → meant host)
    (hallowed : ∀ first label second, allowed first label second → ¬ Torn meant first label) :
    AgreedOn meant c := by
  refine h.invariant (AgreedOn meant) ?_ ?_
  · intro id claim hostId host hclaim
    simp [Config.idle, World.initial] at hclaim
  · intro first label second hfirst hstep hok hagreed
    exact agreed_step hintent (Reachable.sound hfirst) hstep (hallowed _ _ _ hok) hagreed

end Steps

/-- Without crashes and storage failures, a live claim agrees with its Host, or is about to. -/
theorem agreed_of_reachable (h : Reachable P Smooth provider c) : Agreed c := by
  refine agreedOn_of_reachable h (fun _ _ => trivial) ?_
  intro first label second hsmooth htorn
  rcases htorn.1 with hcrash | hfault
  · exact hsmooth.1 hcrash
  · exact hsmooth.2 hfault

/-! ## Agreement of what is stored -/

/-- Every stored live claim has the readiness of its Host, if that is one of those meant. -/
def StoredAgree (meant : HostRecord → Prop) (db : Database) : Prop :=
  ∀ id claim hostId host, db.claim? id = some claim → claim.resource.deletionTimestamp = none →
    claim.resource.status.hostId = some hostId → db.host? hostId = some host → meant host →
    claim.reports "Ready" = host.reports "Ready"

/-- The Ready condition of every live claim has the status of the Ready condition of its Host, if
    that is one of those chosen. -/
def ReadyMatches (chosen : HostRow → Prop) (db : Database) : Prop :=
  ∀ claim ∈ db.hostClaims, claim.deletionTimestamp = none →
    ∀ host ∈ db.hosts, host.claimId = claim.id → chosen host →
      conditionStatus claim.conditionsJson "Ready" = conditionStatus host.conditionsJson "Ready"

/-- The rows agree exactly if the records do. -/
theorem readyMatches_iff {chosen : HostRow → Prop} {meant : HostRecord → Prop} {db : Database}
    (hinv : db.Invariant)
    (hchosen : ∀ row host, hostRecordFromRow row = .ok host → (chosen row ↔ meant host)) :
    ReadyMatches chosen db ↔ StoredAgree meant db := by
  constructor
  · intro hmatches id claim hostId host hclaim hlive hbound hhost hmeant
    obtain ⟨claimRow, hclaimMem, rfl, hclaimDecode⟩ := Database.claim?_eq_some.mp hclaim
    obtain ⟨hostRow, hhostMem, howner, hid⟩ := (Database.claim?_hostId_row hclaim).mp hbound
    have hhostDecode : hostRecordFromRow hostRow = .ok host := by
      obtain ⟨stored, hstored, hdecode⟩ := hinv.readable.host_of_row hhostMem
      rw [hid, hhost] at hstored
      cases hstored
      exact hdecode
    have hagree := hmatches claimRow hclaimMem
      ((claimColumns hclaimDecode).deletionTimestamp.symm.trans hlive) hostRow hhostMem howner
      ((hchosen _ _ hhostDecode).mpr hmeant)
    unfold HostClaimRecord.reports HostRecord.reports
    rw [(claimColumns hclaimDecode).conditions, (hostColumns hhostDecode).conditions]
    exact hagree
  · intro hagree claimRow hclaimMem hlive hostRow hhostMem howner hmeant
    obtain ⟨claim, hclaim, hclaimDecode⟩ := hinv.readable.claim_of_row hclaimMem
    obtain ⟨host, hhost, hhostDecode⟩ := hinv.readable.host_of_row hhostMem
    have hbound : claim.resource.status.hostId = some hostRow.id :=
      (Database.claim?_hostId_row hclaim).mpr ⟨hostRow, hhostMem, howner, rfl⟩
    have hreports := hagree _ _ _ _ hclaim
      ((claimColumns hclaimDecode).deletionTimestamp.trans hlive) hbound hhost
      ((hchosen _ _ hhostDecode).mp hmeant)
    unfold HostClaimRecord.reports HostRecord.reports at hreports
    rw [(claimColumns hclaimDecode).conditions, (hostColumns hhostDecode).conditions] at hreports
    exact hreports

/-- Whenever no pass is in progress, the agreement is that of what is stored. -/
theorem AgreedOn.stored {meant : HostRecord → Prop} (h : AgreedOn meant c)
    (hidle : c.task = none) : StoredAgree meant c.world.database := by
  intro id claim hostId host hclaim hlive hbound hhost hmeant
  rcases h _ _ _ _ hclaim hlive hbound hhost hmeant with hagree | ⟨record, hpending, -⟩
  · exact hagree
  · unfold Config.pending at hpending
    rw [hidle] at hpending
    cases hpending

/-- The Host of a live claim is in phase ready, and has a recorded provider resource, if it is
    Ready. -/
theorem Database.Invariant.ready_row {db : Database} (hinv : db.Invariant)
    {claimRow : HostClaimRow} {hostRow : HostRow} (hclaimMem : claimRow ∈ db.hostClaims)
    (hlive : claimRow.deletionTimestamp = none) (hhostMem : hostRow ∈ db.hosts)
    (howner : hostRow.claimId = claimRow.id)
    (hready : conditionStatus hostRow.conditionsJson "Ready" = some .true) :
    hostRow.phase = "ready" ∧ hostRow.providerResourceId.isSome := by
  obtain ⟨claim, hclaim, hclaimDecode⟩ := hinv.readable.claim_of_row hclaimMem
  obtain ⟨host, hhost, hhostDecode⟩ := hinv.readable.host_of_row hhostMem
  have hhostColumns := hostColumns hhostDecode
  have hreports : host.reports "Ready" = some .true := by
    unfold HostRecord.reports
    rw [hhostColumns.conditions]
    exact hready
  rw [← howner, ← hhostColumns.claimId] at hclaim
  have hconsistent := hinv.consistent hhost hclaim
    ((claimColumns hclaimDecode).deletionTimestamp.trans hlive)
  constructor
  · rw [hostPhaseFromDb_eq_ok hhostColumns.phase, (hconsistent.ready.mp hreports).1]
    rfl
  · rw [← hhostColumns.providerResourceId]
    exact hconsistent.recorded hreports

/-- Whenever no pass is in progress, in a run without crashes and storage failures, the Ready
    condition of every live claim with a Host has the status of the Ready condition of that Host,
    and if it is True the Host is in phase ready with a recorded provider resource. -/
theorem claim_agrees_with_host (h : Reachable P Smooth provider c) (hidle : c.task = none) :
    ∀ claim ∈ c.world.database.hostClaims, claim.deletionTimestamp = none →
      ∀ host ∈ c.world.database.hosts, host.claimId = claim.id →
        conditionStatus claim.conditionsJson "Ready" = conditionStatus host.conditionsJson "Ready" ∧
        (conditionStatus claim.conditionsJson "Ready" = some .true →
          host.phase = "ready" ∧ host.providerResourceId.isSome) := by
  intro claimRow hclaimMem hlive hostRow hhostMem howner
  have hinv : c.world.database.Invariant := h.sound.inv
  have hmatches : ReadyMatches (fun _ => True) c.world.database :=
    (readyMatches_iff hinv fun _ _ _ => Iff.rfl).mpr ((agreed_of_reachable h).stored hidle)
  have hagree := hmatches claimRow hclaimMem hlive hostRow hhostMem howner trivial
  refine ⟨hagree, fun hready => ?_⟩
  rw [hagree] at hready
  exact hinv.ready_row hclaimMem hlive hhostMem howner hready

/-- A claim whose Host became Ready is Ready. -/
theorem claim_agrees_of_readied :
    ∃ claim ∈ (Script.played .willing Script.readied).world.database.hostClaims,
      conditionStatus claim.conditionsJson "Ready" = some .true := by
  have hreach : Reachable Script.model Smooth .willing (Script.played .willing Script.readied) := by
    refine Script.reachable_played (fun _ move => move.label ≠ .crash) ?_ (by decide +kernel)
    intro c move hmove
    refine ⟨of_decide_eq_true hmove, fun h => ?_⟩
    cases move <;> cases h
  have hidle : (Script.played .willing Script.readied).task.isNone = true := by decide +kernel
  have hhost : ∃ claim ∈ (Script.played .willing Script.readied).world.database.hostClaims,
      claim.deletionTimestamp = none ∧
        ∃ host ∈ (Script.played .willing Script.readied).world.database.hosts,
          host.claimId = claim.id ∧
            conditionStatus host.conditionsJson "Ready" = some .true := by decide +kernel
  obtain ⟨claim, hmem, hlive, host, hhost, howner, hready⟩ := hhost
  refine ⟨claim, hmem, ?_⟩
  rw [(claim_agrees_with_host hreach (Option.isNone_iff_eq_none.mp hidle) claim hmem hlive host
    hhost howner).1, hready]

end ControlPlane
