import ControlPlane.Controller.Scenario
import ControlPlane.Controller.Snapshots
import ControlPlane.Interaction.Refinement

/-!
# The course of a Host

The phase of a stored Host and the provider resource recorded for it follow a diagram, whatever
the provider answers: a machine over what is stored for one Host, which every step of the daemon
follows or leaves alone. A Host that has failed stays as it is until its claim is deleted, a
recorded resource is never exchanged for another one, and no pass that begins after the deletion of
a claim advances it.
-/

namespace ControlPlane

open Interaction

/-! ## The diagram -/

/-- Where a Host is: its phase, and the provider resource recorded for it. -/
structure HostState where
  phase : HostPhase
  resource : Option String
  deriving DecidableEq, Repr

/-- What moves a Host. -/
inductive HostEvent where
  | assigned
  /-- the intent to create a resource -/
  | provisioned
  | observed (lifecycle : ProviderLifecycle) (resourceId : String)
  | absent
  | failed
  /-- the intent to delete a resource -/
  | deleted (resourceId : String)
  | finalized
  deriving DecidableEq, Repr

namespace HostState

/-- Every transition of a Host. A failed Host is only ever deleted, and a resource is recorded only
    where none or the same one is. -/
inductive Step : Option HostState → HostEvent → Option HostState → Prop where
  | assigned : Step none .assigned (some ⟨.pending, none⟩)
  | provisioned : Step (some ⟨.pending, none⟩) .provisioned (some ⟨.provisioning, none⟩)
  | observed {phase recorded lifecycle resourceId} : phase ≠ .failed →
      recorded = none ∨ recorded = some resourceId →
      Step (some ⟨phase, recorded⟩) (.observed lifecycle resourceId)
        (some ⟨lifecycle.expectedPhase, some resourceId⟩)
  | absent {phase recorded} : phase ≠ .failed →
      Step (some ⟨phase, recorded⟩) .absent (some ⟨.pending, none⟩)
  | failed {phase recorded} : phase ≠ .failed →
      Step (some ⟨phase, recorded⟩) .failed (some ⟨.failed, recorded⟩)
  | deleted {phase recorded resourceId} : recorded = none ∨ recorded = some resourceId →
      Step (some ⟨phase, recorded⟩) (.deleted resourceId) (some ⟨.deleting, some resourceId⟩)
  | finalized {state} : Step (some state) .finalized none

/-- The course of a Host as a machine. -/
def course : Machine HostEvent (Option HostState) := ⟨Step⟩

variable {before after : HostState} {event : HostEvent}

/-- A recorded resource gives way only to none. -/
theorem Step.resource (h : Step (some before) event (some after)) {resourceId : String}
    (hrecorded : before.resource = some resourceId) (hkept : after.resource.isSome) :
    after.resource = some resourceId := by
  cases h with
  | provisioned => cases hrecorded
  | absent => cases hkept
  | failed => exact hrecorded
  | observed _ hsame | deleted hsame =>
    rcases hsame with hnone | hsame
    · rw [hnone] at hrecorded
      cases hrecorded
    · exact hsame.symm.trans hrecorded

/-- A Host that has failed is only ever deleted. -/
theorem Step.of_failed {recorded : Option String} {next : Option HostState}
    (h : Step (some ⟨.failed, recorded⟩) event next) :
    next = none ∨ ∃ resourceId, next = some ⟨.deleting, some resourceId⟩ := by
  cases h with
  | observed hphase | absent hphase | failed hphase => exact absurd rfl hphase
  | @deleted _ _ resourceId => exact .inr ⟨resourceId, rfl⟩
  | finalized => exact .inl rfl

/-- A resource is about to be created only for a Host that is Pending and has none. -/
theorem Step.of_intent {first : Option HostState}
    (h : Step first event (some ⟨.provisioning, none⟩)) : first = some ⟨.pending, none⟩ := by
  generalize hnext : some (HostState.mk .provisioning none) = next at h
  cases h with
  | provisioned => rfl
  | observed => cases (HostState.mk.inj (Option.some.inj hnext)).2
  | _ => cases hnext

end HostState

/-- Where a stored Host is. -/
def HostRecord.state (host : HostRecord) : HostState :=
  ⟨host.resource.status.phase, host.resource.status.providerResourceId⟩

/-! ## What a save does -/

section Saves

variable {claim : HostClaimRecord} {host stored : HostRecord} {nowMs : Int64} {now : Timestamp}
  {base events log : Happened} {db : Database} {updated : HostClaimRecord × HostRecord}

theorem unrecorded_or_same {resource : ProviderResource}
    (h : recordedElsewhere host resource = none) :
    host.resource.status.providerResourceId = none ∨
      host.resource.status.providerResourceId = some resource.id := by
  unfold recordedElsewhere at h
  cases hrecorded : host.resource.status.providerResourceId with
  | none => exact .inl rfl
  | some expected =>
    rw [hrecorded] at h
    by_cases hsame : expected = resource.id
    · exact .inr (by rw [hsame])
    · simp [Option.filter, hsame] at h

/-- A Host moves along the diagram, or stays where it is. -/
def Moves (before after : HostRecord) : Prop :=
  after.state = before.state ∨ ∃ event, HostState.Step (some before.state) event (some after.state)

theorem moves_failed (h : stored.resource.status.phase ≠ .failed) {after : HostRecord}
    (hphase : after.resource.status.phase = .failed)
    (hresource : after.resource.status.providerResourceId =
      stored.resource.status.providerResourceId) : Moves stored after := by
  refine .inr ⟨.failed, ?_⟩
  unfold HostRecord.state
  rw [hphase, hresource]
  exact .failed h

/-- What is published moves a Host that has not failed, if none that was created had a resource
    recorded. -/
theorem Publishing.moves (h : Publishing claim host nowMs now base events stored updated)
    (hphase : host.resource.status.phase ≠ .failed)
    (hcreating : ⟨.saveHost (provisioningIntent host), .ok ()⟩ ::
        ⟨.provider (.observe host.resource.id), .ok .absent⟩ :: base <:+ events →
      host.resource.status.providerResourceId = none) : Moves stored updated.2 := by
  have hintent : (provisioningIntent host).resource.status.phase ≠ .failed := fun h => by cases h
  cases h with
  | conflict => exact moves_failed hphase rfl rfl
  | @observed resource hsame =>
    obtain ⟨resourceId, hostId, lifecycle⟩ := resource
    refine .inr ⟨.observed lifecycle resourceId, ?_⟩
    have hstep : HostState.Step (some host.state) (.observed lifecycle resourceId)
        (some ⟨lifecycle.expectedPhase, some resourceId⟩) :=
      .observed hphase (unrecorded_or_same hsame)
    cases lifecycle <;> exact hstep
  | absent => exact .inr ⟨.absent, .absent hphase⟩
  | @observeError error =>
    cases error with
    | definitive => exact moves_failed hphase rfl rfl
    | transient => exact .inl rfl
  | @created resource =>
    obtain ⟨resourceId, hostId, lifecycle⟩ := resource
    refine .inr ⟨.observed lifecycle resourceId, ?_⟩
    have hstep : HostState.Step (some (provisioningIntent host).state)
        (.observed lifecycle resourceId) (some ⟨lifecycle.expectedPhase, some resourceId⟩) :=
      .observed hintent (.inl (hcreating (List.suffix_cons _ _)))
    cases lifecycle <;> exact hstep
  | createUnknown => exact .inl rfl
  | @createError error =>
    cases error with
    | definitive => exact moves_failed hintent rfl rfl
    | transient => exact .inl rfl

/-- A Host about to be created was read without a provider resource. -/
theorem unrecorded_of_issued
    (h : AwaitPoint
      (⟨.provider (.observe host.resource.id), .ok .absent⟩ :: hostOpened claim host base) db
      (.saveHost (provisioningIntent host))) : host.resource.status.providerResourceId = none := by
  generalize hrecord : provisioningIntent host = record at h
  generalize hlog : ⟨.provider (.observe host.resource.id), .ok .absent⟩ ::
    hostOpened claim host base = log at h
  cases h with
  | saveIntent turn _ hnone =>
    exact (congrArg (·.resource.status.providerResourceId) hrecord).trans hnone
  | saveRetryOnly => cases (List.cons.inj hlog).2
  | _ => cases hlog

/-- A Host about to be saved moves along the diagram. -/
theorem AwaitPoint.moves {record : HostRecord} (h : AwaitPoint log db (.saveHost record))
    (hstored : db.host? record.resource.id = some stored)
    (hissued : ∀ event before, event :: before <:+ log → ∃ db, AwaitPoint before db event.op) :
    Moves stored (stored.withStatus record) := by
  cases h with
  | @saveDeletionConflict _ claim host resource expected now _ _ turn =>
    obtain rfl := Option.some_inj.mp (turn.stored.symm.trans hstored)
    by_cases hphase : host.resource.status.phase = .failed
    · refine .inl ?_
      unfold HostRecord.state
      rw [hphase]
      rfl
    · exact moves_failed hphase rfl rfl
  | @saveDeletionIntent _ claim host resource now _ _ turn _ hsame =>
    obtain rfl := Option.some_inj.mp (turn.stored.symm.trans hstored)
    exact .inr ⟨.deleted resource.id, .deleted (unrecorded_or_same hsame)⟩
  | @saveDeleted _ claim host resource now answer _ _ turn =>
    obtain ⟨retry, hretry⟩ := afterDelete_eq (deletionIntent host resource now) _ answer
    rw [hretry] at hstored ⊢
    obtain rfl := Option.some_inj.mp (turn.stored.symm.trans hstored)
    exact .inl rfl
  | saveRetryOnly turn =>
    obtain rfl := Option.some_inj.mp (turn.stored.symm.trans hstored)
    exact .inl rfl
  | @saveIntent _ claim host _ _ turn _ hnone hpending =>
    obtain rfl := Option.some_inj.mp (turn.stored.symm.trans hstored)
    refine .inr ⟨.provisioned, ?_⟩
    show HostState.Step (some ⟨host.resource.status.phase, _⟩) _
      (some ⟨.provisioning, host.resource.status.providerResourceId⟩)
    rw [hnone, hpending]
    exact .provisioned
  | @saveHost nowMs claim host found now updated events base _ turn _ publishing hphase =>
    have hkept : updated.2.resource.id = host.resource.id := by
      rw [← (publishing.publishes turn.truthful.typed turn.typed).hostKept]
      rfl
    rw [hkept] at hstored
    obtain rfl := Option.some_inj.mp (turn.stored.symm.trans hstored)
    refine publishing.moves hphase fun hsuffix => ?_
    obtain ⟨_, hintent⟩ := hissued _ _ (hsuffix.trans (List.suffix_cons _ _))
    exact unrecorded_of_issued hintent

end Saves

/-! ## What a step does -/

section Steps

variable {σ : Type} {P : ProviderModel σ} {allowed : Daemon σ → Label → Daemon σ → Prop}
  {provider : σ} {c c' : Daemon σ} {label : Label}

/-- Every event of a pass was awaited where the events before it lead. -/
theorem Reachable.issued (h : Reachable P allowed provider c) {event : Event Effect Answer}
    {before : Happened} (hsuffix : event :: before <:+ c.log) :
    ∃ db, AwaitPoint before db event.op := by
  refine h.invariant (fun c => ∀ event before, event :: before <:+ c.log →
    ∃ db, AwaitPoint before db event.op) ?_ ?_ event before hsuffix
  · intro event before hsuffix
    cases List.suffix_nil.mp hsuffix
  intro first label second hfirst hstep _ ih event before hsuffix
  have sound := Reachable.sound hfirst
  cases hstep with
  | interfere => exact ih event before hsuffix
  | start | finish | crash => cases List.suffix_nil.mp hsuffix
  | perform | fault =>
    rcases List.suffix_cons_iff.mp hsuffix with hnew | hold
    · cases hnew
      exact ⟨_, sound.issue rfl⟩
    · exact ih event before hold

/-- Where the stored Host is, if there is one. -/
def hostState (c : Daemon σ) (hostId : HostId) : Option HostState :=
  (c.world.database.host? hostId).map HostRecord.state

/-- A step of the daemon is one of the diagram for every Host, or none. -/
theorem host_moves (h : Reachable P allowed provider c)
    (hstep : (daemon P).Step reconcileOnce c label c') (hostId : HostId) :
    hostState c' hostId = hostState c hostId ∨
      ∃ event, HostState.Step (hostState c hostId) event (hostState c' hostId) := by
  have hchange := host_change (Reachable.sound h) hstep hostId
  unfold hostState
  cases hbefore : c.world.database.host? hostId with
  | none =>
    rw [hbefore] at hchange
    generalize c'.world.database.host? hostId = after at hchange
    cases hchange with
    | kept => exact .inl rfl
    | inserted => exact .inr ⟨.assigned, .assigned⟩
  | some before =>
    rw [hbefore] at hchange
    generalize c'.world.database.host? hostId = after at hchange
    cases hchange with
    | kept => exact .inl rfl
    | removed => exact .inr ⟨.finalized, .finalized⟩
    | saved _ _ hid hawait =>
      rw [hid] at hbefore
      rcases hawait.moves hbefore fun _ _ => h.issued with hsame | ⟨event, hmoves⟩
      · exact .inl (congrArg some hsame)
      · exact .inr ⟨event, hmoves⟩

/-- Whatever the provider answers and whatever is interleaved, the life of a Host follows the
    diagram, moment by moment. So a Host that has failed stays as it is until it is deleted, a
    recorded resource gives way only to none, and a resource is about to be created only for a
    Host that was Pending and had none. -/
theorem hosts_follow_course {configs : Nat → Daemon σ}
    (hstart : configs 0 = .idle (World.initial provider))
    (hrun : System.History (daemon P) reconcileOnce configs) (hostId : HostId) :
    hostState (configs 0) hostId = none ∧
      HostState.course.History (fun moment => hostState (configs moment) hostId) ∧
      ∀ moment,
        (∀ recorded, hostState (configs moment) hostId = some ⟨.failed, recorded⟩ →
          hostState (configs (moment + 1)) hostId = some ⟨.failed, recorded⟩ ∨
            hostState (configs (moment + 1)) hostId = none ∨
            ∃ resourceId,
              hostState (configs (moment + 1)) hostId = some ⟨.deleting, some resourceId⟩) ∧
        (∀ before after resourceId, hostState (configs moment) hostId = some before →
          hostState (configs (moment + 1)) hostId = some after →
          before.resource = some resourceId → after.resource.isSome →
          after.resource = some resourceId) ∧
        (hostState (configs (moment + 1)) hostId = some ⟨.provisioning, none⟩ →
          hostState (configs moment) hostId = some ⟨.provisioning, none⟩ ∨
            hostState (configs moment) hostId = some ⟨.pending, none⟩) := by
  have hmoves : HostState.course.History (fun moment => hostState (configs moment) hostId) := by
    intro moment
    have hreach : Reachable P System.anyStep provider (configs moment) := by
      unfold Reachable
      rw [← hstart]
      exact hrun.reach moment
    rcases hrun moment with hsame | ⟨label, hstep⟩
    · exact .inl (congrArg (hostState · hostId) hsame)
    · exact host_moves hreach hstep hostId
  refine ⟨by rw [hstart]; rfl, hmoves, fun moment => ⟨?_, ?_, ?_⟩⟩
  · intro recorded hfailed
    rcases hmoves moment with hsame | ⟨event, hevent⟩
    · exact .inl (hsame.trans hfailed)
    · dsimp only at hevent
      rw [hfailed] at hevent
      exact .inr hevent.of_failed
  · intro before after resourceId hbefore hafter hrecorded hkept
    rcases hmoves moment with hsame | ⟨event, hevent⟩
    · dsimp only at hsame
      rw [hbefore, hafter] at hsame
      cases hsame
      exact hrecorded
    · dsimp only at hevent
      rw [hbefore, hafter] at hevent
      exact hevent.resource hrecorded hkept
  · intro hintent
    rcases hmoves moment with hsame | ⟨event, hevent⟩
    · exact .inl (hsame.symm.trans hintent)
    · dsimp only at hevent
      rw [hintent] at hevent
      exact .inr hevent.of_intent

/-- The Host of a scenario gets Ready along the diagram. -/
theorem course_of_readied : ∃ states : Nat → Option HostState, states 0 = none ∧
    HostState.course.History states ∧
    states Script.readied.length = some ⟨.ready, some "resource"⟩ := by
  have hrun := Daemon.history_playAll
    (fun move (_ : move ∈ Script.readied) c =>
      Daemon.play_step Script.model_provides Script.model_loose c move)
    (.idle (World.initial .willing))
  obtain ⟨hstart, hhistory, -⟩ := hosts_follow_course rfl hrun ⟨"h"⟩
  exact ⟨_, hstart, hhistory, by decide +kernel⟩

/-- The provider resource recorded for a Host, if there is one. -/
def recordedResource (c : Daemon σ) (hostId : HostId) : Option String :=
  (hostState c hostId).bind (·.resource)

/-- Some provider resource stays recorded for a Host. -/
def KeepsRecorded (hostId : HostId) (_ : Daemon σ) (_ : Label) (after : Daemon σ) : Prop :=
  (recordedResource after hostId).isSome

/-- A recorded resource is never exchanged for another one, whatever the provider answers: as long
    as one is recorded for a Host, it is the same. -/
theorem recorded_resource_stays (h : Reachable P allowed provider c) {hostId : HostId}
    {resourceId : String} (hrecorded : recordedResource c hostId = some resourceId)
    (hrun : (daemon P).Reach reconcileOnce (KeepsRecorded hostId) c c') :
    recordedResource c' hostId = some resourceId := by
  refine hrun.invariant (fun c => recordedResource c hostId = some resourceId) hrecorded ?_
  intro first label second hfirst hstep hkept hrecorded
  have hreach := (System.Reach.any h).trans hfirst.any
  rcases host_moves hreach hstep hostId with hsame | ⟨event, hmoves⟩
  · unfold recordedResource
    rw [hsame]
    exact hrecorded
  · obtain ⟨before, hbefore, hresource⟩ := Option.bind_eq_some_iff.mp hrecorded
    obtain ⟨other, hother⟩ := Option.isSome_iff_exists.mp hkept
    obtain ⟨after, hafter, hresource'⟩ := Option.bind_eq_some_iff.mp hother
    rw [hbefore, hafter] at hmoves
    unfold recordedResource
    rw [hafter]
    exact hmoves.resource hresource (by rw [hresource']; rfl)

/-- The claim of a scenario is deleted, which its provider refuses. -/
def Script.refusedDeletion : List (Move Script) :=
  .drift { holding .ready with deleted := .error (.definitive "in use") } ::
    .markClaimDeleting claimId ⟨1⟩ :: Move.pass 10 .epoch

/-- A resource that cannot be deleted stays recorded. -/
theorem recorded_resource_of_refusedDeletion :
    recordedResource
      (Daemon.playAll Script.provide (Script.played .willing Script.readied)
        Script.refusedDeletion) ⟨"h"⟩ = some "resource" :=
  recorded_resource_stays (Script.reachable .willing Script.readied) (by decide +kernel)
    (Daemon.reach_playAll Script.model_provides Script.model_loose
      (fun c move => (recordedResource (c.play Script.provide move) ⟨"h"⟩).isSome)
      (fun _ _ hkept => hkept) Script.refusedDeletion (by decide +kernel))

/-! ## A failed Host -/

/-- A claim stays stored, and is not being deleted. -/
def KeepsLive (id : HostClaimId) (_ : Daemon σ) (_ : Label) (after : Daemon σ) : Prop :=
  ∃ claim, after.world.database.claim? id = some claim ∧ claim.resource.deletionTimestamp = none

/-- A claim that is live after a step was live before it, or not there. -/
theorem live_of_step (sound : System.Sound (discipline P) (fun _ log _ => Quiet log) c)
    (hstep : (daemon P).Step reconcileOnce c label c') {id : HostClaimId}
    (hlive : KeepsLive id c label c') {claim : HostClaimRecord}
    (hclaim : c.world.database.claim? id = some claim) :
    claim.resource.deletionTimestamp = none := by
  obtain ⟨after, hafter, hlive⟩ := hlive
  have hchange := claim_change sound hstep hclaim
  rw [hafter] at hchange
  cases hdeletion : claim.resource.deletionTimestamp with
  | none => rfl
  | some time =>
    have hsame := deletionTimestamp_of_change hchange (by rw [hdeletion]; rfl)
    rw [hlive, hdeletion] at hsame
    cases hsame

/-- The claim of a Host in a deletion turn is stored as being deleted. -/
theorem HostTurn.condemned {nowMs : Int64} {claim : HostClaimRecord} {host stored : HostRecord}
    {log : Happened} {db : Database} (turn : HostTurn nowMs claim host stored log db)
    (hdeleting : claim.resource.deletionTimestamp.isSome) :
    ∃ claim, db.claim? stored.resource.claimId = some claim ∧
      claim.resource.deletionTimestamp.isSome := by
  refine ⟨claim, ?_, hdeleting⟩
  rw [← turn.kept]
  show db.claim? host.resource.claimId = some claim
  rw [turn.owner]
  exact turn.stored_of_deleting hdeleting

/-- A Host that is saved has not failed, or its claim is being deleted. -/
theorem AwaitPoint.saveHost_failed {log : Happened} {db : Database} {record stored : HostRecord}
    (h : AwaitPoint log db (.saveHost record))
    (hstored : db.host? record.resource.id = some stored)
    (hfailed : stored.resource.status.phase = .failed) :
    ∃ claim, db.claim? stored.resource.claimId = some claim ∧
      claim.resource.deletionTimestamp.isSome := by
  cases h with
  | saveDeletionConflict turn hdeleting | saveDeletionIntent turn hdeleting
  | saveRetryOnly turn hdeleting =>
    obtain rfl := Option.some_inj.mp (turn.stored.symm.trans hstored)
    exact turn.condemned hdeleting
  | @saveDeleted _ claim host resource now answer _ _ turn hdeleting =>
    obtain ⟨retry, hretry⟩ := afterDelete_eq (deletionIntent host resource now) _ answer
    rw [hretry] at hstored
    obtain rfl := Option.some_inj.mp (turn.stored.symm.trans hstored)
    exact turn.condemned hdeleting
  | saveIntent turn _ _ hpending =>
    obtain rfl := Option.some_inj.mp (turn.stored.symm.trans hstored)
    rw [hpending] at hfailed
    cases hfailed
  | saveHost turn _ publishing hphase =>
    rw [← (publishing.publishes turn.truthful.typed turn.typed).hostKept] at hstored
    obtain rfl := Option.some_inj.mp (turn.stored.symm.trans hstored)
    rcases publishing.stored_cases with rfl | rfl
    · exact absurd hfailed hphase
    · cases hfailed

/-- A Host that has failed stays exactly as it is as long as its claim is live, whatever the
    provider answers. -/
theorem failed_host_is_frozen (h : Reachable P allowed provider c) {hostId : HostId}
    {host : HostRecord} (hhost : c.world.database.host? hostId = some host)
    (hfailed : host.resource.status.phase = .failed)
    (hrun : (daemon P).Reach reconcileOnce (KeepsLive host.resource.claimId) c c') :
    c'.world.database.host? hostId = some host := by
  refine hrun.invariant (fun c => c.world.database.host? hostId = some host) hhost ?_
  intro first label second hfirst hstep hlive hhost
  have sound := Reachable.sound ((System.Reach.any h).trans hfirst.any)
  have hinv : first.world.database.Invariant := sound.inv
  obtain ⟨claim, hclaim, -⟩ := Database.host?_claim hinv.readable hhost
  have hbefore := live_of_step sound hstep hlive hclaim
  have hchange := host_change sound hstep hostId
  rw [hhost] at hchange
  generalize second.world.database.host? hostId = after at hchange ⊢
  cases hchange with
  | kept => rfl
  | saved _ _ hid hawait =>
    rw [hid] at hhost
    obtain ⟨found, hfound, hdeleting⟩ := hawait.saveHost_failed hhost hfailed
    rw [hclaim] at hfound
    cases hfound
    rw [hbefore] at hdeleting
    cases hdeleting
  | removed hpending =>
    have hawait : AwaitPoint first.log first.world.database
      (.finalizeClaim host.resource.claimId) := sound.issue hpending
    obtain ⟨found, hfound, hdeleting, -⟩ := hawait.finalizeClaim_cases
    rw [hclaim] at hfound
    cases hfound
    rw [hbefore] at hdeleting
    cases hdeleting

/-- A claim gets a Host, for which the provider refuses to create a resource. -/
def Script.refused : List (Move Script) :=
  .createClaim claimId ⟨⟨1, 1, 1⟩⟩ ⟨0⟩ :: (Move.pass 5 .epoch ++ Move.pass 10 .epoch)

/-- A provider that refuses to create resources. -/
def Script.refusingCreation : Script :=
  { willing with created := .error (.definitive "no quota") }

/-- A claim stays live in a move. -/
def Script.keepsLive (c : Daemon Script) (move : Move Script) : Bool :=
  ((c.play provide move).world.database.claim? claimId).any (·.resource.deletionTimestamp.isNone)

theorem Script.keepsLive_play {c : Daemon Script} {move : Move Script}
    (h : keepsLive c move = true) : KeepsLive claimId c move.label (c.play provide move) := by
  obtain ⟨claim, hclaim, hlive⟩ := (Option.any_eq_true _ _).mp h
  exact ⟨claim, hclaim, Option.isNone_iff_eq_none.mp hlive⟩

/-- The failed Host of a scenario is the same after a pass with a provider that would now create
    its resource. -/
theorem frozen_of_refused :
    ((Daemon.playAll Script.provide (Script.played .refusingCreation Script.refused)
      (.drift .willing :: Move.pass 10 .epoch)).world.database.host? ⟨"h"⟩).map HostRecord.state =
      some ⟨.failed, none⟩ := by
  have hstate : ((Script.played .refusingCreation Script.refused).world.database.host? ⟨"h"⟩).map
      (fun host => (host.state, host.resource.claimId)) =
      some (⟨.failed, none⟩, Script.claimId) := by decide +kernel
  obtain ⟨host, hhost, hsame⟩ := Option.map_eq_some_iff.mp hstate
  obtain ⟨hfailed, howner⟩ := Prod.mk.inj hsame
  have halong : Daemon.Along Script.provide Script.keepsLive
      (Script.played .refusingCreation Script.refused)
      (.drift .willing :: Move.pass 10 .epoch) = true := by decide +kernel
  have hrun := Daemon.reach_playAll Script.model_provides Script.model_loose Script.keepsLive
    (fun _ _ => Script.keepsLive_play) (.drift .willing :: Move.pass 10 .epoch) halong
  rw [← howner] at hrun
  rw [failed_host_is_frozen (Script.reachable .refusingCreation Script.refused) hhost
    (congrArg HostState.phase hfailed) hrun]
  exact congrArg some hfailed

/-! ## After a deletion request -/

/-- A claim stays stored. -/
def KeepsClaim (id : HostClaimId) (_ : Daemon σ) (_ : Label) (after : Daemon σ) : Prop :=
  (after.world.database.claim? id).isSome

/-- The pass is about to give a claim a Host, or to create the resource of its Host. -/
def Advances (id : HostClaimId) (c : Daemon σ) : Prop :=
  (∃ planId resources, c.pending = some (.ensureHost id planId resources)) ∨
    ∃ host, c.world.database.host? host.resource.id = some host ∧ host.resource.claimId = id ∧
      c.pending = some (.provider (.create host.resource.id host.providerPlanId))

/-- A pass that listed a claim as being deleted does not advance it. -/
theorem ListedDeleting.not_advances {id : HostClaimId}
    (sound : System.Sound (discipline P) (fun _ log _ => Quiet log) c)
    (h : ListedDeleting id c.log) : ¬Advances id c := by
  have hlisted : ∀ {nowMs : Int64} {claim : HostClaimRecord} {base : Happened},
      Turn nowMs claim base c.world.database → claim.resource.deletionTimestamp = none →
      claim.resource.id = id → base <:+ c.log → False := by
    intro nowMs claim base turn hlive hid hsuffix
    obtain ⟨claims, hclaims, hmem⟩ := turn.listed hsuffix
    have hdeleting := h claims hclaims claim hmem hid
    rw [hlive] at hdeleting
    cases hdeleting
  rintro (⟨planId, resources, hpending⟩ | ⟨host, hhost, howner, hpending⟩)
  · have hawait : AwaitPoint c.log c.world.database _ := sound.issue hpending
    generalize hlog : c.log = log at hawait
    cases hawait with
    | ensureHost turn hlive =>
      refine hlisted turn hlive rfl ?_
      rw [hlog]
      exact List.suffix_append [_, _] _
  · have hawait : AwaitPoint c.log c.world.database _ := sound.issue hpending
    generalize hlog : c.log = log at hawait
    generalize hcall : ProviderCall.create host.resource.id host.providerPlanId = call at hawait
    cases hawait with
    | @create nowMs claim read base _ turn hlive =>
      have hid : host.resource.id = read.resource.id := (ProviderCall.create.inj hcall).1
      rw [hid] at hhost
      obtain rfl := Option.some_inj.mp (turn.stored.symm.trans hhost)
      refine hlisted turn.toTurn hlive (turn.owner.symm.trans howner) ?_
      rw [hlog]
      exact List.suffix_append [_, _, _, _] base
    | _ => cases hcall

/-- Once a claim is being deleted, no pass that begins thereafter gives it a Host or creates the
    resource of its Host, whatever the provider answers. -/
theorem deleted_claim_is_not_advanced (h : Reachable P allowed provider c) (htask : c.task = none)
    {id : HostClaimId} {claim : HostClaimRecord}
    (hclaim : c.world.database.claim? id = some claim)
    (hdeleting : claim.resource.deletionTimestamp.isSome)
    (hrun : (daemon P).Reach reconcileOnce (KeepsClaim id) c c') : ¬Advances id c' := by
  obtain ⟨-, hlisted⟩ : (∃ claim, c'.world.database.claim? id = some claim ∧
      claim.resource.deletionTimestamp.isSome) ∧ ListedDeleting id c'.log := by
    refine hrun.invariant (fun c => (∃ claim, c.world.database.claim? id = some claim ∧
      claim.resource.deletionTimestamp.isSome) ∧ ListedDeleting id c.log) ?_ ?_
    · rw [System.Reach.log_nil h htask]
      exact ⟨⟨claim, hclaim, hdeleting⟩, listedDeleting_nil⟩
    rintro first label second hfirst hstep hkept ⟨⟨before, hbefore, hdeleting⟩, hlisted⟩
    have sound := Reachable.sound ((System.Reach.any h).trans hfirst.any)
    obtain ⟨after, hafter⟩ := Option.isSome_iff_exists.mp hkept
    have hchange := claim_change sound hstep hbefore
    rw [hafter] at hchange
    refine ⟨⟨after, hafter, ?_⟩, hlisted.step hstep fun stored hstored => ?_⟩
    · rw [deletionTimestamp_of_change hchange hdeleting]
      exact hdeleting
    · rw [hbefore] at hstored
      cases hstored
      exact hdeleting
  exact hlisted.not_advances (Reachable.sound ((System.Reach.any h).trans hrun.any))

/-- A claim is deleted before it has a Host. -/
def Script.withdrawn : List (Move Script) :=
  [.createClaim claimId ⟨⟨1, 1, 1⟩⟩ ⟨0⟩, .markClaimDeleting claimId ⟨1⟩]

/-- The next pass does not give it one. -/
theorem not_advanced_of_withdrawn :
    ¬Advances Script.claimId
      (Daemon.playAll Script.provide (Script.played .willing Script.withdrawn)
        (.start :: List.replicate 3 (.perform .epoch))) := by
  have hclaim : ((Script.played .willing Script.withdrawn).world.database.claim?
      Script.claimId).map (·.resource.deletionTimestamp.isSome) = some true := by decide +kernel
  obtain ⟨claim, hclaim, hdeleting⟩ := Option.map_eq_some_iff.mp hclaim
  exact deleted_claim_is_not_advanced (Script.reachable .willing Script.withdrawn) rfl hclaim
    hdeleting (Daemon.reach_playAll Script.model_provides Script.model_loose
      (fun c move => ((c.play Script.provide move).world.database.claim? Script.claimId).isSome)
      (fun _ _ hkept => hkept) (.start :: List.replicate 3 (.perform .epoch)) (by decide +kernel))

end Steps

end ControlPlane
