import ControlPlane.Guarantees.Schedules

/-!
# What a stopped record publishes

A Host the controller does not come back to says why, under its Ready condition, and so does a
claim without a plan. The exception is the deletion flow: `schedule_host_retry_only` stops for a
definitive error without a word in the conditions, so a Host is parked with whatever it last
published.
-/

namespace ControlPlane

open Interaction

variable {σ : Type} {P : ProviderModel σ} {provider : σ} {c c' : Daemon σ} {label : Label}
  {latest : Int64}

/-- What the row of a stopped Host says about itself. -/
def HostRow.Explained (row : HostRow) : Prop :=
  ∃ kind condition, row.lastErrorKind = some kind ∧
    kind ∈ ["ProviderRejected", "ProviderOwnershipConflict"] ∧
    publishedAs row.conditionsJson "Ready" = some condition ∧
    condition.status ≠ .true ∧ condition.reason = kind

/-- What the row of a parked claim says about itself. -/
def HostClaimRow.Explained (row : HostClaimRow) : Prop :=
  ∃ condition, publishedAs row.conditionsJson "Accepted" = some condition ∧
    condition.status = .false ∧ condition.reason = "ProviderRejected"

/-- The Host of a row is never touched again: it failed under a claim in use, or is parked. -/
def Database.Stopped (db : Database) (row : HostRow) : Prop :=
  (row.phase = "failed" ∧
    ∃ claim ∈ db.hostClaims, claim.id = row.claimId ∧ claim.deletionTimestamp = none) ∨
  row.nextReconcileAtUnixMs = some Int64.maxValue

/-- No record stops silently. -/
structure Database.StopsExplained (db : Database) : Prop where
  hosts : ∀ row ∈ db.hosts, db.Stopped row → row.Explained
  claims : ∀ row ∈ db.hostClaims, row.nextReconcileAtUnixMs = some Int64.maxValue →
    row.Explained

/-- The step does not park, in the deletion flow, a Host for a definitive error that its Ready
    condition does not publish yet. -/
def Unsilenced (c c' : Daemon σ) : Prop :=
  ∀ record, c'.log = ⟨.saveHost record, .ok ()⟩ :: c.log → InDeletion c.log → Rejected c.log →
    ∀ row ∈ c.world.database.hosts, row.id = record.resource.id →
      ∃ condition, publishedAs row.conditionsJson "Ready" = some condition ∧
        condition.status ≠ .true ∧ condition.reason = "ProviderRejected"

/-- A step that moreover reads no clock within a minute of the end of its range. -/
structure ParksPublished (c : Daemon σ) (label : Label) (c' : Daemon σ) : Prop where
  clock : ClockAtMost 9223372036854715806 c label c'
  published : Unsilenced c c'

/-! ## Rows and records -/

/-- A stopped Host, as a record. -/
def Database.HostStopped (db : Database) (host : HostRecord) : Prop :=
  (host.resource.status.phase = .failed ∧
    ∃ claim, db.claim? host.resource.claimId = some claim ∧
      claim.resource.deletionTimestamp = none) ∨
  host.retry.Parked

/-- What a parked claim publishes. -/
def HostClaimRecord.Explained (claim : HostClaimRecord) : Prop :=
  ∃ condition, publishedAs claim.resource.status.conditions "Accepted" = some condition ∧
    condition.status = .false ∧ condition.reason = "ProviderRejected"

theorem explained_of_host {row : HostRow} {host : HostRecord}
    (hdecode : hostRecordFromRow row = .ok host) : row.Explained ↔ host.Explained := by
  have hcolumns := hostColumns hdecode
  unfold HostRow.Explained HostRecord.Explained
  rw [hcolumns.lastErrorKind, hcolumns.conditions]

theorem stopped_of_host {db : Database} (readable : db.Readable) {row : HostRow}
    {host : HostRecord} (hdecode : hostRecordFromRow row = .ok host) :
    db.Stopped row ↔ db.HostStopped host := by
  have hcolumns := hostColumns hdecode
  unfold Database.Stopped Database.HostStopped RetryState.Parked
  rw [(hostColumns hdecode).failed_iff, hcolumns.nextReconcileAt]
  have hlive : (∃ claim ∈ db.hostClaims, claim.id = row.claimId ∧ claim.deletionTimestamp = none) ↔
      ∃ claim, db.claim? host.resource.claimId = some claim ∧
        claim.resource.deletionTimestamp = none := by
    rw [hcolumns.claimId]
    constructor
    · rintro ⟨claimRow, hmem, hid, hlive⟩
      obtain ⟨claim, hclaim, hclaimDecode⟩ := readable.claim_of_row hmem
      rw [hid] at hclaim
      exact ⟨claim, hclaim, (claimColumns hclaimDecode).deletionTimestamp.trans hlive⟩
    · rintro ⟨claim, hclaim, hlive⟩
      obtain ⟨claimRow, hmem, hid, hclaimDecode⟩ := Database.claim?_eq_some.mp hclaim
      exact ⟨claimRow, hmem, hid, (claimColumns hclaimDecode).deletionTimestamp.symm.trans hlive⟩
  rw [hlive]

/-- No record stops silently, in terms of records. -/
structure Explains (c : Daemon σ) : Prop where
  hosts : ∀ hostId host, c.world.database.host? hostId = some host →
    c.world.database.HostStopped host → host.Explained
  claims : ∀ id claim, c.world.database.claim? id = some claim → claim.retry.Parked →
    claim.Explained

theorem explains_iff (readable : c.world.database.Readable) :
    c.world.database.StopsExplained ↔ Explains c := by
  constructor
  · rintro ⟨hhosts, hclaims⟩
    refine ⟨fun hostId host hhost hstopped => ?_, fun id claim hclaim hparked => ?_⟩
    · obtain ⟨row, hmem, -, hdecode⟩ := Database.host?_eq_some.mp hhost
      exact (explained_of_host hdecode).mp
        (hhosts row hmem ((stopped_of_host readable hdecode).mpr hstopped))
    · obtain ⟨row, hmem, -, hdecode⟩ := Database.claim?_eq_some.mp hclaim
      have hcolumns := claimColumns hdecode
      have hexplained := hclaims row hmem (hcolumns.nextReconcileAt.symm.trans hparked)
      unfold HostClaimRow.Explained at hexplained
      unfold HostClaimRecord.Explained
      rw [hcolumns.conditions]
      exact hexplained
  · rintro ⟨hhosts, hclaims⟩
    refine ⟨fun row hmem hstopped => ?_, fun row hmem hparked => ?_⟩
    · obtain ⟨host, hhost, hdecode⟩ := readable.host_of_row hmem
      exact (explained_of_host hdecode).mpr
        (hhosts _ host hhost ((stopped_of_host readable hdecode).mp hstopped))
    · obtain ⟨claim, hclaim, hdecode⟩ := readable.claim_of_row hmem
      have hcolumns := claimColumns hdecode
      have hexplained := hclaims _ claim hclaim (hcolumns.nextReconcileAt.trans hparked)
      unfold HostClaimRecord.Explained at hexplained
      rw [hcolumns.conditions] at hexplained
      exact hexplained

/-! ## One step -/

/-- A claim in use after a step was in use before it. -/
theorem live_before (sound : System.Sound (discipline P) (fun _ log _ => Quiet log) c)
    (hstep : (daemon P).Step reconcileOnce c label c') {id : HostClaimId}
    {before after : HostClaimRecord} (hbefore : c.world.database.claim? id = some before)
    (hafter : c'.world.database.claim? id = some after)
    (hlive : after.resource.deletionTimestamp = none) :
    before.resource.deletionTimestamp = none := by
  have hchange := claim_change sound hstep hbefore
  rw [hafter] at hchange
  by_contra hdeleting
  have hsome := Option.isSome_iff_ne_none.mpr hdeleting
  rw [deletionTimestamp_of_change hchange hsome] at hlive
  exact hdeleting hlive

/-- A Host that is stopped after a step, and was stored before it as it is, was stopped before. -/
theorem stopped_before (sound : System.Sound (discipline P) (fun _ log _ => Quiet log) c)
    (hstep : (daemon P).Step reconcileOnce c label c') {hostId : HostId} {host : HostRecord}
    (hhost : c.world.database.host? hostId = some host)
    (hstopped : c'.world.database.HostStopped host) : c.world.database.HostStopped host := by
  have hinv : c.world.database.Invariant := sound.inv
  rcases hstopped with ⟨hfailed, after, hafter, hlive⟩ | hparked
  · obtain ⟨before, hbefore, -⟩ := Database.host?_claim hinv.readable hhost
    exact .inl ⟨hfailed, before, hbefore, live_before sound hstep hbefore hafter hlive⟩
  · exact .inr hparked

/-- What the claims publish is kept by every step that reads no clock near its end. -/
theorem explained_claims (sound : System.Sound (discipline P) (fun _ log _ => Quiet log) c)
    (hlog : ∀ nowMs, ⟨.nowUnixMs, nowMs⟩ ∈ c.log → nowMs ≤ latest)
    (hlatest : latest.toInt < Int64.maxValue.toInt - 60000)
    (hstep : (daemon P).Step reconcileOnce c label c')
    (hclaims : ∀ id claim, c.world.database.claim? id = some claim → claim.retry.Parked →
      claim.Explained) :
    ∀ id claim, c'.world.database.claim? id = some claim → claim.retry.Parked →
      claim.Explained := by
  intro id after hafter hparked
  cases hbefore : c.world.database.claim? id with
  | none =>
    obtain ⟨spec, now, rfl⟩ := claim_appears sound hstep hbefore hafter
    cases hparked
  | some before =>
    have hchange := claim_change sound hstep hbefore
    rw [hafter] at hchange
    cases hchange with
    | kept => exact hclaims id _ hbefore hparked
    | requested | assigned => cases hparked
    | written _ hid hdeletion hawait =>
      cases claimSchedule_of_written hid hdeletion hawait hbefore with
      | ahead hmem hahead =>
        have hnow := hlog _ hmem
        rw [Int64.le_iff_toInt_le] at hnow
        exact absurd hparked (hahead.not_parked (by omega))
      | same hretry haccepted =>
        have hexplained := hclaims id before hbefore (hretry ▸ hparked)
        unfold HostClaimRecord.Explained at hexplained ⊢
        rw [← haccepted] at hexplained
        exact hexplained
      | rejected _ _ hpublished hstatus hreason =>
        exact ⟨_, hpublished, hstatus, hreason⟩

/-- What the Host of a rejected deletion publishes, as a record. -/
theorem explained_of_rejected {record : HostRecord}
    (hkind : record.retry.lastErrorKind = some "ProviderRejected") :
    record.Explained ↔ ∃ condition,
      publishedAs record.resource.status.conditions "Ready" = some condition ∧
        condition.status ≠ .true ∧ condition.reason = "ProviderRejected" := by
  unfold HostRecord.Explained
  rw [hkind]
  constructor
  · rintro ⟨kind, condition, hsame, -, hpublished, hstatus, hreason⟩
    rw [← Option.some_inj.mp hsame] at hreason
    exact ⟨condition, hpublished, hstatus, hreason⟩
  · rintro ⟨condition, hpublished, hstatus, hreason⟩
    exact ⟨"ProviderRejected", condition, rfl, by simp, hpublished, hstatus, hreason⟩

/-- What the Hosts publish is kept by a step that parks none silently. -/
theorem explained_hosts (sound : System.Sound (discipline P) (fun _ log _ => Quiet log) c)
    (hlog : ∀ nowMs, ⟨.nowUnixMs, nowMs⟩ ∈ c.log → nowMs ≤ latest)
    (hlatest : latest.toInt < Int64.maxValue.toInt - 60000)
    (hstep : (daemon P).Step reconcileOnce c label c') (hpublished : Unsilenced c c')
    (hhosts : ∀ hostId host, c.world.database.host? hostId = some host →
      c.world.database.HostStopped host → host.Explained) :
    ∀ hostId host, c'.world.database.host? hostId = some host →
      c'.world.database.HostStopped host → host.Explained := by
  have hinv' : c'.world.database.Invariant := (sound.step (daemon_obeys P) hstep).inv
  intro hostId after hafter hstopped
  have hchange := host_change sound hstep hostId
  rw [hafter] at hchange
  generalize hbefore : c.world.database.host? hostId = before at hchange
  cases hchange with
  | kept => exact hhosts hostId after hbefore (stopped_before sound hstep hbefore hstopped)
  | inserted => rcases hstopped with ⟨hfailed, -⟩ | hparked <;> contradiction
  | @saved before record _ hsaved hid hawait =>
    obtain ⟨stored, hstored, hkept, hschedule⟩ := hawait.hostSchedule
    rw [← hid, hbefore] at hstored
    cases hstored
    rw [hkept] at hstopped ⊢
    cases hschedule with
    | ahead hmem _ hahead hfailed =>
      have hnow := hlog _ hmem
      rw [Int64.le_iff_toInt_le] at hnow
      rcases hstopped with ⟨hphase, claim, hclaim, hlive⟩ | hparked
      · rcases hfailed hphase with hexplained | ⟨before, hreleased, hdeleting⟩
        · exact hexplained
        · rw [live_before sound hstep hreleased hclaim hlive] at hdeleting
          cases hdeleting
      · exact absurd hparked (hahead.not_parked (by omega))
    | conflict _ _ _ _ hexplained => exact hexplained
    | rejected _ hdeletion hrejected _ _ hkind hconditions =>
      obtain ⟨row, hmem, hrow, hdecode⟩ := Database.host?_eq_some.mp hbefore
      rw [explained_of_rejected hkind, hconditions, (hostColumns hdecode).conditions]
      exact hpublished record hsaved hdeletion hrejected row hmem (hrow.trans hid)

/-- A step that parks a Host silently breaks the promise. -/
theorem unsilenced_of_explained (sound : System.Sound (discipline P) (fun _ log _ => Quiet log) c)
    (hstep : (daemon P).Step reconcileOnce c label c')
    (hhosts : ∀ hostId host, c'.world.database.host? hostId = some host →
      c'.world.database.HostStopped host → host.Explained) : Unsilenced c c' := by
  intro record hsaved hdeletion hrejected row hmem hid
  have hinv : c.world.database.Invariant := sound.inv
  obtain ⟨hawait, hanswered, -⟩ := answered_of_log sound hstep hsaved
  rcases answered_saveHost hanswered with ⟨-, hsave⟩ | ⟨_, herror, -⟩
  · obtain ⟨stored, hstored, -, -, hhost⟩ := Storage.saveHost_ok hinv.readable hsave
    obtain ⟨stored', hstored', hkept, hschedule⟩ := hawait.hostSchedule
    rw [hstored] at hstored'
    cases hstored'
    have hafter : c'.world.database.host? record.resource.id = some record := by
      rw [hhost, Function.update_self, hkept]
    obtain ⟨host, hread, hdecode⟩ := hinv.readable.host_of_row hmem
    rw [hid, hstored] at hread
    cases hread
    cases hschedule with
    | ahead _ hnot => exact absurd ⟨hdeletion, hrejected⟩ hnot
    | conflict _ hnot => exact absurd hrejected hnot
    | rejected _ _ _ _ hparked hkind hconditions =>
      have hexplained := hhosts _ record hafter (.inr hparked)
      rw [explained_of_rejected hkind, hconditions, (hostColumns hdecode).conditions] at hexplained
      exact hexplained
  · cases herror

/-! ## Runs -/

/-- The promise, and the clock readings that keep it apart from the backoff. -/
structure Explaining (c : Daemon σ) : Prop where
  clock : ∀ nowMs, ⟨.nowUnixMs, nowMs⟩ ∈ c.log → nowMs ≤ 9223372036854715806
  explains : Explains c

theorem explaining_of_reachable (h : Reachable P ParksPublished provider c) : Explaining c := by
  refine h.invariant Explaining ⟨nofun, by simp [Config.idle, World.initial],
    by simp [Config.idle, World.initial]⟩ ?_
  rintro first label second hfirst hstep hallowed ⟨hclock, hhosts, hclaims⟩
  have sound := Reachable.sound hfirst
  exact ⟨clock_step hstep hallowed.clock hclock,
    explained_hosts sound hclock (by decide) hstep hallowed.published hhosts,
    explained_claims sound hclock (by decide) hstep hclaims⟩

/-- In every run that reads no clock within a minute of the end of its range and parks no Host
    silently in the deletion flow, every Host the controller will not touch again publishes why it
    is not Ready, and every claim parked for ever that it was rejected. One step more keeps that
    exactly if it parks no Host silently. -/
theorem stops_are_published (h : Reachable P ParksPublished provider c) :
    c.world.database.StopsExplained ∧
      ∀ label c', (daemon P).Step reconcileOnce c label c' →
        (c'.world.database.StopsExplained ↔ Unsilenced c c') := by
  obtain ⟨hclock, hexplains⟩ := explaining_of_reachable h
  have sound := Reachable.sound h
  have hinv : c.world.database.Invariant := sound.inv
  refine ⟨(explains_iff hinv.readable).mpr hexplains, fun label c' hstep => ?_⟩
  have hinv' : c'.world.database.Invariant := (sound.step (daemon_obeys P) hstep).inv
  rw [explains_iff hinv'.readable]
  constructor
  · intro hexplained
    exact unsilenced_of_explained sound hstep hexplained.hosts
  · intro hpublished
    exact ⟨explained_hosts sound hclock (by decide) hstep hpublished hexplains.hosts,
      explained_claims sound hclock (by decide) hstep hexplains.claims⟩

/-! ## A failed Host, and a rejected deletion -/

namespace Script

/-- A provider that will not create anything. -/
def refusing : Script := { willing with created := .error (.definitive "no capacity") }

/-- A claim gets a Host that cannot be created. -/
def failed : List (Move Script) :=
  .createClaim claimId ⟨⟨1, 1, 1⟩⟩ ⟨0⟩ :: (Move.pass 5 .epoch ++ Move.pass 10 .epoch)

/-- A provider that will not delete what it holds. -/
def keeping : Script := { holding .ready with deleted := .error (.definitive "in use") }

/-- The claim of a Ready Host is deleted, and the provider rejects that. -/
def rejected : List (Move Script) :=
  readied ++ .drift keeping :: .markClaimDeleting claimId ⟨1⟩ :: Move.pass 10 .epoch

/-- A move outside the deletion flow, with the clock far from its end. -/
def keepsInUse (c : Daemon Script) (move : Move Script) : Bool :=
  readsAtMost 9223372036854715806 move &&
    match currentSpan c.log with
    | some (.reconcileHostClaimDeletion _) => false
    | _ => true

theorem parksPublished_play {c : Daemon Script} {move : Move Script}
    (hkeeps : keepsInUse c move = true) :
    ParksPublished c move.label (c.play provide move) := by
  obtain ⟨hreads, hspan⟩ := (Bool.and_eq_true _ _).mp hkeeps
  refine ⟨clockAtMost_play hreads, ?_⟩
  rintro record - ⟨claimId, hdeletion⟩
  rw [hdeletion] at hspan
  cases hspan

end Script

/-- A Host that could not be created says so. -/
theorem stops_published_of_failed :
    (Script.played .refusing Script.failed).world.database.StopsExplained ∧
      ∃ row ∈ (Script.played .refusing Script.failed).world.database.hosts,
        row.phase = "failed" :=
  ⟨(stops_are_published (Script.reachable_played Script.keepsInUse
      (fun _ _ => Script.parksPublished_play) (by decide +kernel))).1,
    by decide +kernel⟩

/-- A Host whose deletion was rejected is parked for ever and goes on publishing that it is
    Ready. -/
theorem rejected_deletion_is_silent :
    Reachable Script.model System.anyStep .willing (Script.played .willing Script.rejected) ∧
      (∃ row ∈ (Script.played .willing Script.rejected).world.database.hosts,
        row.nextReconcileAtUnixMs = some Int64.maxValue ∧
          row.lastErrorKind = some "ProviderRejected" ∧
          (publishedAs row.conditionsJson "Ready").map (fun condition =>
            (condition.status, condition.reason)) = some (.true, "ProviderResourceReady")) ∧
      ¬(Script.played .willing Script.rejected).world.database.StopsExplained := by
  have hrow : ∃ row ∈ (Script.played .willing Script.rejected).world.database.hosts,
      row.nextReconcileAtUnixMs = some Int64.maxValue ∧
        row.lastErrorKind = some "ProviderRejected" ∧
        (publishedAs row.conditionsJson "Ready").map (fun condition =>
          (condition.status, condition.reason)) = some (.true, "ProviderResourceReady") := by
    decide +kernel
  refine ⟨Script.reachable .willing Script.rejected, hrow, fun hstops => ?_⟩
  obtain ⟨row, hmem, hparked, -, hready⟩ := hrow
  obtain ⟨kind, condition, -, -, hpublished, hstatus, -⟩ := hstops.hosts row hmem (.inr hparked)
  rw [hpublished] at hready
  exact hstatus (Prod.mk.inj (Option.some_inj.mp hready)).1

end ControlPlane
