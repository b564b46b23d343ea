import ControlPlane.Controller.Changes
import ControlPlane.Controller.FakeScenario

/-!
# No resource is leaked and none is duplicated

With the fake provider, every provider resource belongs to a stored Host: it has the plan of that
Host, and it is the one the Host records, if the Host records any. What carries the invariant
through a pass is that the newest answer of the provider still tells what is stored, since only
the controller creates and deletes resources.
-/

namespace ControlPlane

open Interaction FakeProvider

/-! ## What a pass knows of the resources -/

/-- The newest answer of the provider in a pass still tells what is stored. -/
def Recalled (rows : List ProviderResourceRow) : Happened → Prop
  | [] => True
  | ⟨.provider (.observe hostId), .ok .absent⟩ :: _ => ∀ row ∈ rows, row.hostId ≠ hostId
  | ⟨.provider (.observe hostId), .ok (.present resource)⟩ :: _ =>
    ∃ row ∈ rows, row.hostId = hostId ∧ resourceFromRow row = .ok resource
  | ⟨.provider (.create hostId _), .ok (.created resource)⟩ :: _ =>
    ∃ row ∈ rows, row.hostId = hostId ∧ resourceFromRow row = .ok resource
  | ⟨.provider _, _⟩ :: _ => True
  | _ :: log => Recalled rows log

/-- An answer tells what is stored when it is given. -/
theorem recalled_of_answers {state state' : FakeState} {call : ProviderCall}
    {answer : ProviderAnswer call} (h : fakeProvider.answers state call answer state')
    (log : Happened) :
    Recalled state'.database.providerResources (⟨.provider call, answer⟩ :: log) := by
  obtain ⟨draw, -, -, hperform⟩ := h
  cases call with
  | selectPlan | delete => trivial
  | observe hostId =>
    have hexit := observe_exit draw hostId state.database
    change ObserveExit hostId state.database
      (FakeProvider.perform draw (.observe hostId) state.database).1
      (FakeProvider.perform draw (.observe hostId) state.database).2 at hexit
    rw [hperform] at hexit
    generalize state'.database = db' at hexit
    cases hexit with
    | fault => trivial
    | absent _ hspent hrow =>
      show ∀ row ∈ db'.providerResources, row.hostId ≠ hostId
      rw [hspent.providerResources]
      exact FakeDatabase.resourceRow_eq_none.mp hrow
    | @present _ row resource _ hspent hrow hdecode =>
      obtain ⟨hmem, hhost⟩ := FakeDatabase.resourceRow_eq_some.mp hrow
      exact ⟨row, hspent.providerResources ▸ hmem, hhost, hdecode⟩
  | create hostId planId =>
    have hexit := create_exit draw hostId planId state.database
    change CreateExit draw hostId planId state.database
      (FakeProvider.perform draw (.create hostId planId) state.database).1
      (FakeProvider.perform draw (.create hostId planId) state.database).2 at hexit
    rw [hperform] at hexit
    generalize state'.database = db' at hexit
    cases hexit with
    | definitiveFault | transientFault | otherPlan | unknownPlan | insertFails => trivial
    | @existing _ row resource _ _ hspent hrow _ hdecode =>
      obtain ⟨hmem, hhost⟩ := FakeDatabase.resourceRow_eq_some.mp hrow
      exact ⟨row, hspent.providerResources ▸ hmem, hhost, hdecode⟩
    | inserted _ _ _ _ _ hinsert =>
      split
      · trivial
      · refine ⟨newResourceRow draw hostId planId, ?_, rfl, rfl⟩
        rw [(FakeDatabase.store_eq_ok.mp hinsert).2.1]
        exact List.mem_append_right _ List.mem_cons_self

/-- Events that are not answers of the provider leave what is known. -/
theorem Recalled.event {rows : List ProviderResourceRow} {log : Happened} {effect : Effect}
    {answer : Answer effect} (h : Recalled rows log) (hother : ∀ call, effect ≠ .provider call) :
    Recalled rows (⟨effect, answer⟩ :: log) := by
  cases effect with
  | provider call => exact absurd rfl (hother call)
  | _ => exact h

/-! ## Who owns a resource -/

/-- A stored Host owns the resource: it has its plan, and records no other resource. -/
def OwnedIn (db : Database) (row : ProviderResourceRow) : Prop :=
  ∃ host, db.host? row.hostId = some host ∧ host.providerPlanId = row.planId ∧
    ∀ id, host.resource.status.providerResourceId = some id → id = row.id

/-- The stored resources. -/
def resourceRows (c : Daemon FakeState) : List ProviderResourceRow :=
  c.world.provider.database.providerResources

/-- Every resource is owned, what the pass knows of them is true, and it has seen no conflict. -/
structure Ownership (c : Daemon FakeState) : Prop where
  owned : ∀ row ∈ resourceRows c, OwnedIn c.world.database row
  recalled : Recalled (resourceRows c) c.log
  noConflict : ∀ hostId, ¬Conflict c.log hostId

section Ownership

variable {c c' : Daemon FakeState} {label : Label} {log : Happened} {db db' : Database}
  {rows rows' : List ProviderResourceRow}

theorem OwnedIn.congr {row : ProviderResourceRow} (h : OwnedIn db row)
    (hhost : db'.host? = db.host?) : OwnedIn db' row := by
  unfold OwnedIn
  rw [hhost]
  exact h

/-- A call issued by the controller, answered or cut short, leaves every resource owned. -/
theorem owned_of_call {draw : Draw} {call : ProviderCall}
    (hawait : AwaitPoint log db (.provider call)) (howned : ∀ row ∈ rows, OwnedIn db row)
    (hchange : ResourceChange draw rows (some call) rows') : ∀ row ∈ rows', OwnedIn db row := by
  cases hchange with
  | kept => exact howned
  | deleted => exact fun row hmem => howned row (List.mem_filter.mp hmem).1
  | created hnone =>
    cases hawait with
    | @create nowMs claim host base db turn hlive hunrecorded =>
      intro row hmem
      rcases List.mem_append.mp hmem with hmem | hmem
      · exact howned row hmem
      · rw [List.mem_singleton.mp hmem]
        refine ⟨provisioningIntent host, turn.stored, rfl, fun id hid => ?_⟩
        change host.resource.status.providerResourceId = some id at hid
        rw [hunrecorded] at hid
        cases hid

/-- A Host about to be saved records what is stored of it, or what the provider was just seen to
    have for it. -/
theorem recorded_of_await {record : HostRecord} (hawait : AwaitPoint log db (.saveHost record))
    (hrecalled : Recalled rows log) {id : String}
    (hid : record.resource.status.providerResourceId = some id) :
    (∃ stored, db.host? record.resource.id = some stored ∧
      stored.resource.status.providerResourceId = some id) ∨
    ∃ row ∈ rows, row.hostId = record.resource.id ∧ row.id = id := by
  cases hawait with
  | saveDeletionConflict turn | saveRetryOnly turn | saveIntent turn =>
    exact .inl ⟨_, turn.stored, hid⟩
  | saveDeletionIntent turn =>
    obtain ⟨row, hmem, hhost, hdecode⟩ := hrecalled
    cases hid
    exact .inr ⟨row, hmem, hhost, (resourceFromRow_eq_ok hdecode).1.symm⟩
  | @saveDeleted nowMs claim host resource now answer base db turn =>
    obtain ⟨retry, hretry⟩ := afterDelete_eq (deletionIntent host resource now) nowMs answer
    rw [hretry] at hid ⊢
    exact .inl ⟨_, turn.stored, hid⟩
  | saveHost turn _ publishing =>
    have hstored := turn.stored
    have hobserved : ∀ {claim : HostClaimRecord} {host : HostRecord}
        {resource : ProviderResource} {now : Timestamp},
        (applyProviderObservation claim host resource now).2.resource.status.providerResourceId =
          some resource.id := by
      intro claim host resource now
      obtain ⟨resourceId, hostId, lifecycle⟩ := resource
      cases lifecycle <;> rfl
    have hhostId : ∀ {claim : HostClaimRecord} {host : HostRecord}
        {resource : ProviderResource} {now : Timestamp},
        (applyProviderObservation claim host resource now).2.resource.id = host.resource.id := by
      intro claim host resource now
      obtain ⟨resourceId, hostId, lifecycle⟩ := resource
      cases lifecycle <;> rfl
    cases publishing with
    | conflict => exact .inl ⟨_, hstored, hid⟩
    | observed =>
      obtain ⟨row, hmem, hhost, hdecode⟩ := hrecalled
      rw [hobserved] at hid
      cases hid
      rw [hhostId]
      exact .inr ⟨row, hmem, hhost, (resourceFromRow_eq_ok hdecode).1.symm⟩
    | absent => cases hid
    | @observeError error =>
      cases error <;> exact .inl ⟨_, hstored, hid⟩
    | created =>
      obtain ⟨row, hmem, hhost, hdecode⟩ := hrecalled
      rw [hobserved] at hid
      cases hid
      rw [hhostId]
      exact .inr ⟨row, hmem, hhost, (resourceFromRow_eq_ok hdecode).1.symm⟩
    | createUnknown => exact .inl ⟨_, hstored, hid⟩
    | @createError error =>
      cases error <;> exact .inl ⟨_, hstored, hid⟩

/-- What a storage call or any other effect does leaves every resource owned. -/
theorem owned_of_answered {world world' : World FakeState} {effect : Effect}
    {answer : Answer effect} (hother : ∀ call, effect ≠ .provider call)
    (hawait : AwaitPoint log world.database effect) (hinv : world.database.Invariant)
    (hnodup : (rows.map (·.hostId)).Nodup) (hrecalled : Recalled rows log)
    (howned : ∀ row ∈ rows, OwnedIn world.database row)
    (hanswered : answered fakeProvider world effect answer world') :
    ∀ row ∈ rows, OwnedIn world'.database row := by
  intro row hmem
  obtain ⟨host, hhost, hplan, hrecorded⟩ := howned row hmem
  have hkept : world'.database.host? row.hostId = world.database.host? row.hostId →
      OwnedIn world'.database row := fun hsame => ⟨host, hsame.trans hhost, hplan, hrecorded⟩
  by_cases hreads : effect.reads = true
  · exact hkept (by rw [answered_reads hreads hanswered])
  cases effect with
  | ensureHost claimId planId resources =>
    rcases answered_ensureHost hanswered with ⟨_, hostId, now, -, hfresh, hensure⟩ | ⟨_, -, hsame⟩
    · obtain ⟨_, -, -, hcases⟩ := Storage.ensureHost_ok hinv.readable hensure
      rcases hcases with ⟨hsame, -⟩ | ⟨-, -, -, hinserted, -⟩
      · exact hkept (by rw [hsame])
      · have hne : row.hostId ≠ hostId := by
          rintro heq
          rw [heq, (Database.host?_eq_none hinv.readable).mpr hfresh] at hhost
          cases hhost
        exact hkept (by rw [hinserted, Function.update_of_ne hne])
    · exact hkept (by rw [hsame])
  | saveHost record =>
    rcases answered_saveHost hanswered with ⟨-, hsave⟩ | ⟨_, -, hsame⟩
    · obtain ⟨stored, hstored, -, -, hsaved⟩ := Storage.saveHost_ok hinv.readable hsave
      by_cases heq : row.hostId = record.resource.id
      · have hsame : host = stored := by
          rw [heq, hstored] at hhost
          exact (Option.some_inj.mp hhost).symm
        subst hsame
        refine ⟨host.withStatus record, by rw [hsaved, heq, Function.update_self], hplan, ?_⟩
        intro id hid
        rcases recorded_of_await hawait hrecalled hid with
          ⟨stored, hstored', hstoredId⟩ | ⟨row', hmem', hhost', hid'⟩
        · rw [hstored] at hstored'
          cases hstored'
          exact hrecorded id hstoredId
        · rw [← hid', List.inj_on_of_nodup_map hnodup hmem' hmem (hhost'.trans heq.symm)]
      · exact hkept (by rw [hsaved, Function.update_of_ne heq])
    · exact hkept (by rw [hsame])
  | saveClaimStatus record =>
    rcases answered_saveClaimStatus hanswered with ⟨saved, -, hsave⟩ | ⟨_, -, hsame⟩
    · rcases Storage.saveClaimStatus_ok hinv.readable hsave with ⟨-, -, hsame, -⟩ | ⟨-, hsame, -⟩
      · exact hkept (by rw [hsame])
      · exact hkept (by rw [hsame])
    · exact hkept (by rw [hsame])
  | finalizeClaim claimId =>
    rcases answered_finalizeClaim hanswered with ⟨-, hfinalize⟩ | ⟨_, -, hsame⟩
    · obtain ⟨-, -, -, hremoved⟩ := Storage.finalizeClaim_ok hinv.readable hfinalize
      apply hkept
      rw [hremoved, hhost]
      have hne : host.resource.claimId ≠ claimId := by
        rintro rfl
        obtain ⟨owner, howner, hbound⟩ := Database.host?_claim hinv.readable hhost
        obtain ⟨claim, hclaim, -, hcases⟩ := hawait.finalizeClaim_cases
        rw [howner] at hclaim
        cases hclaim
        rcases hcases with hunbound | ⟨hostId, hbound', hhead⟩
        · rw [hbound] at hunbound
          cases hunbound
        · rw [hbound] at hbound'
          cases hbound'
          cases hlog : log with
          | nil =>
            rw [hlog] at hhead
            cases hhead
          | cons event events =>
            rw [hlog] at hhead hrecalled
            cases hhead
            exact hrecalled row hmem rfl
      simp [Option.filter, hne]
    · exact hkept (by rw [hsame])
  | _ => exact absurd rfl hreads

theorem recordedElsewhere_eq_some {host : HostRecord} {resource : ProviderResource}
    {expected : String} (h : recordedElsewhere host resource = some expected) :
    host.resource.status.providerResourceId = some expected ∧ expected ≠ resource.id := by
  obtain ⟨hrecorded, hne⟩ := Option.filter_eq_some_iff.mp h
  exact ⟨hrecorded, of_decide_eq_true hne⟩

/-- The Host of a turn was read once. -/
theorem HostTurn.opened_read {nowMs : Int64} {claim : HostClaimRecord}
    {host stored read : HostRecord} (turn : HostTurn nowMs claim host stored log db)
    (h : ⟨.getHost host.resource.id, .ok read⟩ ∈ deletionOpened claim host log ∨
      ⟨.getHost host.resource.id, .ok read⟩ ∈ hostOpened claim host log) : read = host := by
  have hunread : ⟨.getHost host.resource.id, .ok read⟩ ∉ log := fun hmem =>
    turn.unseen _ turn.bound _ hmem rfl
  rcases h with hmem | hmem
  · rcases List.mem_cons.mp hmem with heq | hmem
    · cases heq
      rfl
    · rcases List.mem_cons.mp hmem with heq | hmem
      · cases heq
      · exact absurd hmem hunread
  · rcases List.mem_cons.mp hmem with heq | hmem
    · cases heq
    · rcases List.mem_cons.mp hmem with heq | hmem
      · cases heq
        rfl
      · exact absurd hmem hunread

/-- An answer brings no conflict to light while every resource is owned. -/
theorem noConflict_event {effect : Effect} {answer : Answer effect}
    (hawait : AwaitPoint log db effect) (howned : ∀ row ∈ rows, OwnedIn db row)
    (hrecalled : Recalled rows (⟨effect, answer⟩ :: log))
    (hbefore : ∀ hostId, ¬Conflict log hostId) (hostId : HostId) :
    ¬Conflict (⟨effect, answer⟩ :: log) hostId := by
  rintro hconflict
  by_cases hlooked : lookedAt ⟨effect, answer⟩ = none
  · exact hbefore hostId (conflict_of_cons hlooked hconflict)
  obtain ⟨host, resource, expected, hread, hobserved, hexpected⟩ := hconflict
  obtain ⟨hrecorded, hne⟩ := recordedElsewhere_eq_some hexpected
  have hold : ⟨.getHost hostId, .ok host⟩ ∈ log →
      ⟨.provider (.observe hostId), .ok (.present resource)⟩ ∈ log → False :=
    fun hread hobserved => hbefore hostId ⟨host, resource, expected, hread, hobserved, hexpected⟩
  cases hawait with
  | readDeletingHost turn _ hbound =>
    have hseen := (List.mem_cons.mp hobserved).resolve_left nofun
    rcases List.mem_cons.mp hread with heq | hread'
    · cases heq
      have hearlier := (List.mem_cons.mp hseen).resolve_left nofun
      exact turn.unseen hostId hbound
        ⟨.provider (.observe hostId), .ok (.present resource)⟩ hearlier rfl
    · exact hold hread' hseen
  | readHost turn _ _ hbound =>
    have hseen := (List.mem_cons.mp hobserved).resolve_left nofun
    rcases List.mem_cons.mp hread with heq | hread'
    · cases heq
      exact turn.unseen hostId hbound
        ⟨.provider (.observe hostId), .ok (.present resource)⟩ hseen rfl
    · exact hold hread' hseen
  | observeDeleting turn | observe turn =>
    have hread' := (List.mem_cons.mp hread).resolve_left nofun
    rcases List.mem_cons.mp hobserved with heq | hseen
    · cases heq
      obtain rfl := turn.opened_read (by first | exact .inl hread' | exact .inr hread')
      obtain ⟨row, hmem, hhost, hdecode⟩ := hrecalled
      obtain ⟨stored, hstored, -, hsame⟩ := howned row hmem
      rw [hhost, turn.stored] at hstored
      cases hstored
      apply hne
      rw [hsame expected hrecorded, (resourceFromRow_eq_ok hdecode).1]
    · exact hold hread' hseen
  | _ => exact hlooked rfl

/-- An answered effect keeps the ownership of the resources. -/
theorem Ownership.answered {world world' : World FakeState} {effect : Effect}
    {answer : Answer effect} {next : Option (Program Effect Answer (Except AppError _))}
    {task : Option (Program Effect Answer (Except AppError ReconcileResult))}
    (h : Ownership ⟨world, task, log⟩) (hawait : AwaitPoint log world.database effect)
    (hinv : world.database.Invariant)
    (hanswered : ControlPlane.answered fakeProvider world effect answer world') :
    Ownership ⟨world', next, ⟨effect, answer⟩ :: log⟩ := by
  by_cases hcall : ∃ call, effect = .provider call
  · obtain ⟨call, rfl⟩ := hcall
    have hdatabase := answered_reads rfl hanswered
    obtain ⟨state, hanswers, rfl⟩ : ∃ state,
        fakeProvider.answers world.provider call answer state ∧
          world' = { world with provider := state } := by
      rcases hanswered with hexec | hfault
      · exact hexec
      · cases hfault
    obtain ⟨draw, -, -, hchange⟩ := fakeProvider_answers hanswers
    have howned : ∀ row ∈ state.database.providerResources, OwnedIn world.database row :=
      owned_of_call hawait h.owned hchange
    have hrecalled := recalled_of_answers hanswers log
    exact ⟨howned, hrecalled, noConflict_event hawait howned hrecalled h.noConflict⟩
  · have hother : ∀ call, effect ≠ .provider call := fun call heq => hcall ⟨call, heq⟩
    have hprovider : world'.provider = world.provider := by
      rcases hanswered with hexec | hfault
      · exact provider_of_other hother hexec
      · rw [fault_world hfault]
    have hrows : ∀ {next : Option (Program Effect Answer (Except AppError ReconcileResult))}
        {log' : Happened}, resourceRows ⟨world', next, log'⟩ = resourceRows ⟨world, task, log⟩ := by
      intro next log'
      show world'.provider.database.providerResources = world.provider.database.providerResources
      rw [hprovider]
    have hrecalled : Recalled (resourceRows ⟨world, task, log⟩) (⟨effect, answer⟩ :: log) :=
      h.recalled.event hother
    refine ⟨?_, ?_, noConflict_event hawait h.owned hrecalled h.noConflict⟩
    · rw [hrows]
      exact owned_of_answered hother hawait hinv world.provider.database.schema.hostIds h.recalled
        h.owned hanswered
    · rw [hrows]
      exact hrecalled

/-- A step keeps the ownership of the resources. -/
theorem Ownership.step (sound : System.Sound (discipline fakeProvider) (fun _ log _ => Quiet log) c)
    (h : Ownership c) (hstep : (daemon fakeProvider).Step reconcileOnce c label c') :
    Ownership c' := by
  cases hstep with
  | interfere hother =>
    have hrely := ((daemon_obeys fakeProvider).interfere _ _ sound.inv hother).2
    have hrows : ∀ {world world' : World FakeState}, World.Interfere fakeProvider world world' →
        world'.provider.database.providerResources =
          world.provider.database.providerResources := by
      intro world world' hother
      cases hother with
      | drift provider hdrift => exact hdrift.1
      | _ => rfl
    have hrows := hrows hother
    refine ⟨fun row hmem => ?_, ?_, h.noConflict⟩
    · unfold resourceRows at hmem
      rw [hrows] at hmem
      exact (h.owned row hmem).congr hrely.hosts
    · unfold resourceRows
      rw [hrows]
      exact h.recalled
  | start => exact ⟨h.owned, trivial, fun hostId ⟨_, _, _, hread, _⟩ => nomatch hread⟩
  | finish => exact ⟨h.owned, trivial, fun hostId ⟨_, _, _, hread, _⟩ => nomatch hread⟩
  | @crash world task log world' hcrash =>
    obtain ⟨provider, hcrash, rfl⟩ := hcrash
    obtain ⟨draw, -, -, hchange⟩ := fakeProvider_crash hcrash
    refine ⟨?_, trivial, fun hostId ⟨_, _, _, hread, _⟩ => nomatch hread⟩
    show ∀ row ∈ provider.database.providerResources, OwnedIn world.database row
    cases hpending : task.bind Program.pending with
    | none =>
      rw [hpending] at hchange
      rw [hchange.eq_of_none]
      exact h.owned
    | some effect =>
      have hawait : AwaitPoint log world.database effect := sound.issue hpending
      rw [hpending] at hchange
      cases effect with
      | provider call => exact owned_of_call hawait h.owned hchange
      | _ =>
        rw [ResourceChange.eq_of_none hchange]
        exact h.owned
  | perform hexec => exact h.answered (sound.issue rfl) sound.inv (.inl hexec)
  | fault hfault => exact h.answered (sound.issue rfl) sound.inv (.inr hfault)

/-- Every reachable state has the ownership in order, if there were no resources at first. -/
theorem ownership_of_reachable {allowed : Daemon FakeState → Label → Daemon FakeState → Prop}
    {provider : FakeState} (hempty : provider.database.providerResources = [])
    (h : Reachable fakeProvider allowed provider c) : Ownership c := by
  refine h.invariant Ownership ⟨fun row hmem => ?_, trivial, ?_⟩ ?_
  · change row ∈ provider.database.providerResources at hmem
    rw [hempty] at hmem
    cases hmem
  · rintro hostId ⟨_, _, _, hread, -⟩
    cases hread
  · exact fun first _ second hfirst hstep _ hownership =>
      hownership.step (Reachable.sound hfirst) hstep

/-- In every state reached from empty databases, whatever is interleaved, whichever faults are
    injected and wherever the daemon crashes: every provider resource has the id of a stored Host,
    and its plan; if that Host records a resource it is this one; every stored Host has a stored
    claim, no two Hosts share a claim and no two resources share a Host; and no pass has seen an
    ownership conflict. -/
theorem ownership_chain {allowed : Daemon FakeState → Label → Daemon FakeState → Prop}
    {provider : FakeState} (hempty : provider.database.providerResources = [])
    (h : Reachable fakeProvider allowed provider c) :
    (∀ resource ∈ c.world.provider.database.providerResources,
      ∃ host ∈ c.world.database.hosts, host.id = resource.hostId ∧
        host.providerPlanId = resource.planId ∧
        ∀ id, host.providerResourceId = some id → id = resource.id) ∧
    (∀ host ∈ c.world.database.hosts, ∃ claim ∈ c.world.database.hostClaims,
      claim.id = host.claimId) ∧
    (c.world.database.hosts.map (·.claimId)).Nodup ∧
    (c.world.provider.database.providerResources.map (·.hostId)).Nodup ∧
    ∀ hostId, ¬Conflict c.log hostId := by
  have hownership := ownership_of_reachable hempty h
  refine ⟨fun resource hmem => ?_, fun host hmem => ?_, c.world.database.schema.hostClaimIds,
    c.world.provider.database.schema.hostIds, hownership.noConflict⟩
  · obtain ⟨host, hhost, hplan, hrecorded⟩ := hownership.owned resource hmem
    obtain ⟨row, hrow, hid, hdecode⟩ := Database.host?_eq_some.mp hhost
    have hcolumns := hostColumns hdecode
    refine ⟨row, hrow, hid, ?_, fun id hrecordedId => hrecorded id ?_⟩
    · rw [← hcolumns.providerPlanId, hplan]
    · rw [hcolumns.providerResourceId, hrecordedId]
  · exact List.mem_map.mp (c.world.database.schema.hostReferences host hmem)

/-- The claim of a scenario gets its Host, and the Host its resource. -/
theorem ownership_of_created :
    (FakeState.played FakeState.created).world.provider.database.providerResources.length = 1 ∧
    ∀ resource ∈
        (FakeState.played FakeState.created).world.provider.database.providerResources,
      ∃ host ∈ (FakeState.played FakeState.created).world.database.hosts,
        host.id = resource.hostId ∧ host.providerPlanId = resource.planId ∧
          ∀ id, host.providerResourceId = some id → id = resource.id :=
  ⟨by decide +kernel, (ownership_chain rfl (FakeState.reachable (by decide))).1⟩

end Ownership

end ControlPlane
