import ControlPlane.Controller.Changes
import ControlPlane.Controller.Scenario

/-!
# Readiness and phase of a Host

A Host row is Ready exactly in the phase `ready` without an outstanding provider error, as long
as the deletion flow meets no Host that is still Ready: `reconcile_deleting_claim` moves such a
Host to another phase, or records an error for it, and leaves its condition True.
-/

namespace ControlPlane

open Interaction

variable {σ : Type} {P : ProviderModel σ} {provider : σ} {c c' : Daemon σ} {label : Label}

/-- Readiness of a Host row agrees with its phase. -/
structure HostRow.ReadyAgrees (row : HostRow) : Prop where
  ready : conditionStatus row.conditionsJson "Ready" = some .true ↔
    row.phase = "ready" ∧ row.lastErrorKind = none
  recorded : conditionStatus row.conditionsJson "Ready" = some .true →
    row.providerResourceId.isSome

/-- A step that does not save, in the deletion flow, a Host that is Ready, unless for an
    ownership conflict. -/
def SparesReadyHosts (c : Daemon σ) (_ : Label) (c' : Daemon σ) : Prop :=
  ∀ record, c'.log = ⟨.saveHost record, .ok ()⟩ :: c.log → InDeletion c.log →
    (∀ row ∈ c.world.database.hosts, row.id = record.resource.id →
      conditionStatus row.conditionsJson "Ready" ≠ some .true) ∨
    Conflict c.log record.resource.id

/-! ## What a save of a Host does to its readiness -/

/-- How the Host saved at an await point relates to the one stored. -/
inductive HostSave (log : Happened) (stored record : HostRecord) : Prop where
  | live : ¬ InDeletion log → (stored.Consistent → record.Consistent) →
      HostSave log stored record
  | conflict : Conflict log record.resource.id → record.Consistent → HostSave log stored record
  | deleting : InDeletion log → ¬ Conflict log record.resource.id →
      record.reports "Ready" = stored.reports "Ready" →
      ¬ (record.resource.status.phase = .ready ∧ record.retry.lastErrorKind = none) →
      HostSave log stored record

section HostSave

variable {nowMs : Int64} {claim : HostClaimRecord} {host stored record : HostRecord}
  {log events : Happened} {db : Database}

/-- In the deletion flow, a conflict is between the Host read and the resource observed last. -/
theorem not_conflict_present (turn : HostTurn nowMs claim host stored log db)
    {resource : ProviderResource} (helsewhere : recordedElsewhere host resource = none)
    (hlog : events = ⟨.provider (.observe host.resource.id), .ok (.present resource)⟩ ::
      deletionOpened claim host log) : ¬ Conflict events host.resource.id := by
  rintro ⟨host', resource', expected, hread, hobserved, hconflict⟩
  simp only [hlog, deletionOpened, List.mem_cons] at hread hobserved
  have hhost : host' = host := by
    rcases hread with h | h | h | h
    · cases h
    · cases h
      rfl
    · cases h
    · exact absurd rfl (turn.toTurn.unseen _ turn.bound _ h)
  have hresource : resource' = resource := by
    rcases hobserved with h | h | h | h
    · cases h
      rfl
    · cases h
    · cases h
    · exact absurd rfl (turn.toTurn.unseen _ turn.bound _ h)
  rw [hhost, hresource, helsewhere] at hconflict
  cases hconflict

theorem not_conflict_error (turn : HostTurn nowMs claim host stored log db)
    {error : ProviderError} :
    ¬ Conflict (⟨.provider (.observe host.resource.id), .error error⟩ ::
      deletionOpened claim host log) host.resource.id := by
  rintro ⟨host', resource', expected, -, hobserved, -⟩
  simp only [deletionOpened, List.mem_cons] at hobserved
  rcases hobserved with h | h | h | h
  · cases h
  · cases h
  · cases h
  · exact absurd rfl (turn.toTurn.unseen _ turn.bound _ h)

theorem consistent_deletionConflict (turn : HostTurn nowMs claim host stored log db)
    (expected found : String) (now : Timestamp) :
    (deletionConflict claim host expected found now).2.Consistent := by
  have hreports : (deletionConflict claim host expected found now).2.reports "Ready" =
      some .false := HostRecord.reports_setCondition turn.typed rfl
  refine ⟨?_, ?_⟩
  · rw [hreports]
    exact ⟨fun h => (by cases h), fun h => (by cases h.1)⟩
  · rw [hreports]
    exact fun h => (by cases h)

/-- Every Host saved at an await point is the stored one with another status. -/
theorem AwaitPoint.hostSave (h : AwaitPoint log db (.saveHost record)) :
    ∃ stored, db.host? record.resource.id = some stored ∧ stored.withStatus record = record ∧
      HostSave log stored record := by
  cases h with
  | @saveDeletionConflict nowMs claim host resource expected now log db turn hdeleting
      helsewhere =>
    refine ⟨host, turn.stored, rfl, .conflict ⟨host, resource, expected, ?_, ?_, helsewhere⟩
      (consistent_deletionConflict turn _ _ _)⟩
    · exact List.mem_cons_of_mem _ (List.mem_cons_of_mem _ List.mem_cons_self)
    · exact List.mem_cons_of_mem _ List.mem_cons_self
  | @saveDeletionIntent nowMs claim host resource now log db turn hdeleting helsewhere =>
    refine ⟨host, turn.stored, rfl, .deleting ⟨_, rfl⟩ ?_ rfl fun h => (by cases h.1)⟩
    exact fun h => not_conflict_present turn helsewhere rfl (conflict_of_cons rfl h)
  | @saveDeleted nowMs claim host resource now answer log db turn hdeleting helsewhere =>
    obtain ⟨retry, hretry⟩ := afterDelete_eq (deletionIntent host resource now) nowMs answer
    rw [hretry]
    refine ⟨_, turn.stored, rfl, .deleting ⟨_, rfl⟩ ?_ rfl fun h => (by cases h.1)⟩
    exact fun h => not_conflict_present turn helsewhere rfl
      (conflict_of_cons rfl (conflict_of_cons rfl (conflict_of_cons rfl h)))
  | @saveRetryOnly nowMs claim host error log db turn hdeleting =>
    exact ⟨host, turn.stored, rfl, .deleting ⟨_, rfl⟩ (not_conflict_error turn) rfl
      fun h => (by cases h.2)⟩
  | @saveIntent nowMs claim host log db turn hlive hunrecorded hpending =>
    refine ⟨host, turn.stored, rfl, .live ?_ fun hconsistent =>
      consistent_provisioningIntent hconsistent hpending⟩
    rintro ⟨claimId, hspan⟩
    cases hspan
  | @saveHost nowMs claim host stored now updated events log db turn hlive publishing =>
    have hpublishes := publishing.publishes turn.truthful.typed turn.typed
    have hid : updated.2.resource.id = host.resource.id := by
      rw [← hpublishes.hostKept]
      rfl
    refine ⟨stored, ?_, ?_, .live publishing.not_inDeletion fun _ => hpublishes.consistent⟩
    · rw [hid]
      exact turn.stored
    · rw [← turn.kept]
      exact hpublishes.hostKept

end HostSave

/-! ## Runs -/

theorem readyAgrees_of_host {row : HostRow} {host : HostRecord}
    (hdecode : hostRecordFromRow row = .ok host) : row.ReadyAgrees ↔ host.Consistent := by
  have hcolumns := hostColumns hdecode
  have hconditions : host.resource.status.conditions = row.conditionsJson :=
    hcolumns.conditions
  have hrecorded : host.resource.status.providerResourceId = row.providerResourceId :=
    hcolumns.providerResourceId
  have hkind : host.retry.lastErrorKind = row.lastErrorKind :=
    hcolumns.lastErrorKind
  have hphase : host.resource.status.phase = .ready ↔ row.phase = "ready" := by
    constructor
    · intro h
      rw [hostPhaseFromDb_eq_ok hcolumns.phase, h]
      rfl
    · intro h
      have hdecoded := hcolumns.phase
      have hready : hostPhaseFromDb "ready" = .ok .ready := rfl
      rw [h, hready] at hdecoded
      exact (Except.ok.inj hdecoded).symm
  have hreports : host.reports "Ready" = conditionStatus row.conditionsJson "Ready" := by
    rw [← hconditions]
    rfl
  constructor
  · rintro ⟨hready, hpresent⟩
    rw [← hreports, ← hkind, ← hphase] at hready
    rw [← hreports, ← hrecorded] at hpresent
    exact ⟨hready, hpresent⟩
  · rintro ⟨hready, hpresent⟩
    rw [hreports, hkind, hphase] at hready
    rw [hreports, hrecorded] at hpresent
    exact ⟨hready, hpresent⟩

/-- Every Host row agrees when every Host record does. -/
theorem readyAgrees_iff {db : Database} (readable : db.Readable) :
    (∀ row ∈ db.hosts, row.ReadyAgrees) ↔
      ∀ hostId host, db.host? hostId = some host → host.Consistent := by
  constructor
  · intro h hostId host hhost
    obtain ⟨row, hmem, -, hdecode⟩ := Database.host?_eq_some.mp hhost
    exact (readyAgrees_of_host hdecode).mp (h row hmem)
  · intro h row hmem
    obtain ⟨host, hhost, hdecode⟩ := readable.host_of_row hmem
    exact (readyAgrees_of_host hdecode).mpr (h row.id host hhost)

/-- A save in the deletion flow keeps readiness in agreement with the phase exactly when the
    stored Host is not Ready. -/
theorem consistent_iff_not_ready {stored record : HostRecord}
    (hsame : record.reports "Ready" = stored.reports "Ready")
    (hnotReady : ¬ (record.resource.status.phase = .ready ∧ record.retry.lastErrorKind = none)) :
    record.Consistent ↔ stored.reports "Ready" ≠ some .true := by
  rw [← hsame]
  constructor
  · exact fun h hready => hnotReady (h.ready.mp hready)
  · exact fun h => ⟨⟨fun hready => absurd hready h, fun hphase => absurd hphase hnotReady⟩,
      fun hready => absurd hready h⟩

/-- From a state in which every Host agrees, a step ends in such a state exactly when it spares
    the Hosts that are Ready. -/
theorem consistent_step (sound : System.Sound (discipline P) (fun _ log _ => Quiet log) c)
    (hconsistent : ∀ hostId host, c.world.database.host? hostId = some host → host.Consistent)
    (hstep : (daemon P).Step reconcileOnce c label c') :
    (∀ hostId host, c'.world.database.host? hostId = some host → host.Consistent) ↔
      SparesReadyHosts c label c' := by
  have hinv : c.world.database.Invariant := sound.inv
  constructor
  · intro hafter record hlog hdeletion
    obtain ⟨hawait, hanswered, -⟩ := answered_of_log sound hstep hlog
    obtain ⟨stored, hstored, hkept, hsave⟩ := hawait.hostSave
    rcases answered_saveHost hanswered with ⟨-, hsaved⟩ | ⟨_, herror, -⟩
    · obtain ⟨current, hcurrent, -, -, hhost⟩ := Storage.saveHost_ok hinv.readable hsaved
      rw [hstored] at hcurrent
      cases hcurrent
      have hrecord : record.Consistent := by
        apply hafter record.resource.id
        rw [hhost, Function.update_self, hkept]
      cases hsave with
      | live hlive => exact absurd hdeletion hlive
      | conflict hconflict => exact .inr hconflict
      | deleting _ _ hsame hnotReady =>
        left
        intro row hmem hid
        obtain ⟨host, hhost, hdecode⟩ := hinv.readable.host_of_row hmem
        rw [hid, hstored] at hhost
        cases hhost
        rw [← (hostColumns hdecode).conditions]
        exact (consistent_iff_not_ready hsame hnotReady).mp hrecord
    · cases herror
  · intro hspares hostId host hhost
    have hchange := host_change sound hstep hostId
    rw [hhost] at hchange
    generalize hbefore : c.world.database.host? hostId = before at hchange
    cases hchange with
    | kept => exact hconsistent hostId host hbefore
    | inserted => exact (Database.consistent_newHost _ _ _ _ _).2.2
    | @saved before record hpending hlog hid hawait =>
      obtain ⟨stored, hstored, hkept, hsave⟩ := hawait.hostSave
      rw [← hid, hbefore] at hstored
      cases hstored
      have hstored := hconsistent hostId before hbefore
      rw [hkept]
      cases hsave with
      | live _ hlive => exact hlive hstored
      | conflict _ hrecord => exact hrecord
      | deleting hdeletion hnoConflict hsame hnotReady =>
        rw [consistent_iff_not_ready hsame hnotReady]
        rcases hspares record hlog hdeletion with hrows | hconflict
        · obtain ⟨row, hmem, hrow, hdecode⟩ := Database.host?_eq_some.mp hbefore
          have hconditions := (hostColumns hdecode).conditions
          unfold HostRecord.reports
          rw [hconditions]
          exact hrows row hmem (hrow.trans hid)
        · exact absurd hconflict hnoConflict

/-- In every run whose steps spare the Hosts that are Ready, every stored Host row agrees; and a
    step of such a run that does not spare them ends in a state with a row that does not. -/
theorem host_readiness_agrees_iff (h : Reachable P SparesReadyHosts provider c) :
    (∀ row ∈ c.world.database.hosts, row.ReadyAgrees) ∧
      ∀ label c', (daemon P).Step reconcileOnce c label c' →
        ((∀ row ∈ c'.world.database.hosts, row.ReadyAgrees) ↔ SparesReadyHosts c label c') := by
  have hagrees : ∀ hostId host, c.world.database.host? hostId = some host → host.Consistent := by
    refine h.invariant (fun c => ∀ hostId host, c.world.database.host? hostId = some host →
      host.Consistent) (by simp [Config.idle, World.initial]) ?_
    intro first label second hfirst hstep hspares hconsistent
    exact (consistent_step (Reachable.sound hfirst) hconsistent hstep).mpr hspares
  have hinv : c.world.database.Invariant := h.sound.inv
  refine ⟨(readyAgrees_iff hinv.readable).mpr hagrees, fun label c' hstep => ?_⟩
  have hinv' : c'.world.database.Invariant := (h.sound.step (daemon_obeys P) hstep).inv
  rw [readyAgrees_iff hinv'.readable]
  exact consistent_step h.sound hagrees hstep

/-- The Ready Host of a claim that is not being deleted agrees. -/
theorem host_readiness_of_readied :
    ∃ row ∈ (Script.played .willing Script.readied).world.database.hosts,
      conditionStatus row.conditionsJson "Ready" = some .true ∧ row.providerResourceId.isSome := by
  have hreach : Reachable Script.model SparesReadyHosts .willing
      (Script.played .willing Script.readied) := by
    refine Script.reachable_played (fun c _ => (currentSpan c.log).all fun span =>
      match span with
      | .reconcileHostClaimDeletion _ => false
      | _ => true) ?_ (by decide +kernel)
    rintro c move hspan record - ⟨claimId, hdeletion⟩
    rw [hdeletion] at hspan
    cases hspan
  have hready : ∃ row ∈ (Script.played .willing Script.readied).world.database.hosts,
      conditionStatus row.conditionsJson "Ready" = some .true := by decide +kernel
  obtain ⟨row, hmem, hready⟩ := hready
  exact ⟨row, hmem, hready, ((host_readiness_agrees_iff hreach).1 row hmem).recorded hready⟩

/-- The intent to delete moves a Ready Host to the phase `deleting` and leaves its condition
    True. -/
theorem host_readiness_may_disagree :
    Reachable Script.model System.anyStep .willing (Script.played .willing Script.intending) ∧
      ∃ row ∈ (Script.played .willing Script.intending).world.database.hosts,
        conditionStatus row.conditionsJson "Ready" = some .true ∧ row.phase = "deleting" ∧
          ¬row.ReadyAgrees := by
  have hrow : ∃ row ∈ (Script.played .willing Script.intending).world.database.hosts,
      conditionStatus row.conditionsJson "Ready" = some .true ∧ row.phase = "deleting" := by
    decide +kernel
  obtain ⟨row, hmem, hready, hphase⟩ := hrow
  refine ⟨Script.reachable .willing Script.intending, row, hmem, hready, hphase, fun hagrees => ?_⟩
  have hready := (hagrees.ready.mp hready).1
  rw [hphase] at hready
  exact absurd hready (by decide)

end ControlPlane
