import ControlPlane.Guarantees.Requests

/-!
# Acknowledged requests

What a client was told stays so: a claim whose creation was acknowledged is found by every later
request, with its specification, until a client asks for its deletion. Shown on the store, of one
action, of a trace, and from there of the histories of the server.
-/

namespace ControlPlane

open Interaction Storage

namespace Store

variable {store store' : Store} {act : Answered} {id : HostClaimId} {claim : HostClaimRecord}

/-- Every claim is stored under its id. -/
def Keyed (store : Store) : Prop :=
  ∀ id claim, store.claim id = some claim → claim.resource.id = id

/-- What an action makes of a stored claim. -/
inductive Revises (act : Answered) (id : HostClaimId) (claim : HostClaimRecord) :
    Option HostClaimRecord → Prop where
  | kept {revised : HostClaimRecord} : revised.resource.id = claim.resource.id →
      revised.resource.spec = claim.resource.spec →
      revised.resource.deletionTimestamp = claim.resource.deletionTimestamp →
      Revises act id claim (some revised)
  | deletion {now} : act.call = .markClaimDeleting id now →
      Revises act id claim (some (requestDeletion claim now))
  | closed : act.call = .finalizeClaim id → Revises act id claim none

theorem Revises.same : Revises act id claim (some claim) := .kept rfl rfl rfl

/-- A revised claim is stored in the place of an old one. -/
theorem revises_setClaim {key : HostClaimId} {old new : HostClaimRecord} (hkeyed : store.Keyed)
    (hclaim : store.claim id = some claim) (hold : store.claim key = some old)
    (hid : new.resource.id = old.resource.id) (h : id = key → Revises act id old (some new)) :
    Revises act id claim ((store.setClaim new).claim id) := by
  rw [setClaim_claim, hid, hkeyed key old hold]
  by_cases heq : id = key
  · rw [heq, hold] at hclaim
    cases hclaim
    rw [heq, Function.update_self]
    exact heq ▸ h heq
  · rw [Function.update_of_ne heq, hclaim]
    exact .same

/-- An action revises a stored claim or closes it. -/
theorem Does.revises (h : store.Does act store') (hkeyed : store.Keyed)
    (hclaim : store.claim id = some claim) : Revises act id claim (store'.claim id) := by
  cases h with
  | @created other spec now _ hnone =>
    have hne : id ≠ (initialClaim other spec now).id := fun heq => by
      rw [heq, show store.claim (initialClaim other spec now).id = none from hnone] at hclaim
      cases hclaim
    rw [setClaim_claim, Function.update_of_ne hne, hclaim]
    exact .same
  | @marked key now old hold _ =>
    exact revises_setClaim hkeyed hclaim hold rfl fun heq => .deletion (by rw [heq])
  | statusSaved _ hold _ => exact revises_setClaim hkeyed hclaim hold rfl fun _ => .kept rfl rfl rfl
  | ensured _ hold _ _ _ _ =>
    exact revises_setClaim (show (store.setHost _).Keyed from hkeyed) hclaim hold rfl fun _ =>
      .kept rfl rfl rfl
  | @finalized key old hold =>
    show Revises _ id claim (Function.update store.claim key none id)
    by_cases heq : id = key
    · rw [heq, Function.update_self]
      exact .closed rfl
    · rw [Function.update_of_ne heq, hclaim]
      exact .same
  | saved =>
    rw [setHost_claim, hclaim]
    exact .same
  | createRefused | createdBefore | createdOtherwise | gotClaim | noClaim | listedClaims
  | gotHost | noHost | listedHosts | markedNone | markedBefore | statusRefused | superseded
  | ensureRefused | ensuredNone | ensuredDeleting | ensuredBefore | ensureRejected | savedNone
  | saveRejected | finalizedNone =>
    rw [hclaim]
    exact .same

/-- A claim appears in no other way than by its creation. -/
theorem Does.appears (h : store.Does act store') (hkeyed : store.Keyed)
    (hnone : store.claim id = none) : store'.claim id = none ∨
      ∃ spec now, act.call = .createClaim id spec now ∧
        store'.claim id = some ⟨initialClaim id spec now, RetryState.default⟩ := by
  have hother : ∀ {key : HostClaimId} {old new : HostClaimRecord},
      store.claim key = some old → new.resource.id = old.resource.id →
      (store.setClaim new).claim id = none := by
    intro key old new hold hid
    have hne : id ≠ key := fun heq => by
      rw [heq, hold] at hnone
      cases hnone
    rw [setClaim_claim, hid, hkeyed key old hold, Function.update_of_ne hne]
    exact hnone
  cases h with
  | @created key spec now _ _ =>
    by_cases heq : id = key
    · subst heq
      exact .inr ⟨spec, now, rfl, Function.update_self ..⟩
    · exact .inl ((Function.update_of_ne heq _ _).trans hnone)
  | marked hold _ => exact .inl (hother hold rfl)
  | statusSaved _ hold _ => exact .inl (hother hold rfl)
  | ensured _ hold _ _ _ _ => exact .inl (hother hold rfl)
  | @finalized key _ _ =>
    left
    show Function.update store.claim key none id = none
    by_cases heq : id = key
    · rw [heq, Function.update_self]
    · rw [Function.update_of_ne heq, hnone]
  | saved => exact .inl hnone
  | createRefused | createdBefore | createdOtherwise | gotClaim | noClaim | listedClaims
  | gotHost | noHost | listedHosts | markedNone | markedBefore | statusRefused | superseded
  | ensureRefused | ensuredNone | ensuredDeleting | ensuredBefore | ensureRejected | savedNone
  | saveRejected | finalizedNone => exact .inl hnone

/-- Every action leaves the claims under their ids. -/
theorem Does.keyed (h : store.Does act store') (hkeyed : store.Keyed) : store'.Keyed := by
  intro id claim' hclaim'
  cases hclaim : store.claim id with
  | none =>
    rcases h.appears hkeyed hclaim with hnone | ⟨spec, now, -, hsome⟩
    · rw [hnone] at hclaim'
      cases hclaim'
    · rw [hsome] at hclaim'
      cases hclaim'
      rfl
  | some claim =>
    have hrevises := h.revises hkeyed hclaim
    have hid := hkeyed id claim hclaim
    rw [hclaim'] at hrevises
    cases hrevises with
    | kept hsame => exact hsame.trans hid
    | deletion => exact hid

/-! ## Traces without a deletion -/

/-- A claim that is stored is not being deleted. -/
def Undeleted (id : HostClaimId) (store : Store) : Prop :=
  ∀ claim, store.claim id = some claim → claim.resource.deletionTimestamp = none

/-- A claim is stored with its specification, and is not being deleted. -/
def Holds (id : HostClaimId) (spec : HostClaimSpec) (store : Store) : Prop :=
  ∃ claim, store.claim id = some claim ∧ claim.resource.spec = spec ∧
    claim.resource.deletionTimestamp = none

/-- An action that is not its deletion leaves no claim with a deletion timestamp. -/
theorem Does.undeleted (h : store.Does act store') (hkeyed : store.Keyed)
    (hother : ∀ now, act.call ≠ .markClaimDeleting id now) (hlive : store.Undeleted id) :
    store'.Undeleted id := by
  intro claim' hclaim'
  cases hclaim : store.claim id with
  | none =>
    rcases h.appears hkeyed hclaim with hnone | ⟨spec, now, -, hsome⟩
    · rw [hnone] at hclaim'
      cases hclaim'
    · rw [hsome] at hclaim'
      cases hclaim'
      rfl
  | some claim =>
    have hrevises := h.revises hkeyed hclaim
    rw [hclaim'] at hrevises
    cases hrevises with
    | kept _ _ hsame => exact hsame.trans (hlive claim hclaim)
    | deletion hcall => exact absurd hcall (hother _)

/-- Only its deletion ends that a claim is stored. -/
theorem governed_holds {spec : HostClaimSpec} (h : governed.step store act store')
    (hkeyed : store.Keyed) (hother : ∀ now, act.call ≠ .markClaimDeleting id now)
    (hholds : store.Holds id spec) : store'.Holds id spec := by
  obtain ⟨hdoes, hclosed⟩ := h
  obtain ⟨claim, hclaim, hspec, hlive⟩ := hholds
  have hrevises := hdoes.revises hkeyed hclaim
  generalize hstored : store'.claim id = stored at hrevises
  cases hrevises with
  | kept _ hsame hdeletion =>
    exact ⟨_, hstored, hsame.trans hspec, hdeletion.trans hlive⟩
  | deletion hcall => exact absurd hcall (hother _)
  | closed hcall =>
    have hdeleting := hclosed id claim hcall hclaim
    rw [hlive] at hdeleting
    cases hdeleting

variable {actions : List Answered}

/-- Without its deletion a claim is never being deleted. -/
theorem undeleted_of_trace (h : governed.Trace empty actions store)
    (hother : ∀ act ∈ actions, ∀ now, act.call ≠ .markClaimDeleting id now) :
    store.Keyed ∧ store.Undeleted id := by
  refine h.keeps (fun store => store.Keyed ∧ store.Undeleted id) ⟨?_, ?_⟩ ?_
  · intro id claim hclaim
    cases hclaim
  · intro claim hclaim
    cases hclaim
  · rintro before act after hmem ⟨hdoes, -⟩ ⟨hkeyed, hlive⟩
    exact ⟨hdoes.keyed hkeyed, hdoes.undeleted hkeyed (hother act hmem) hlive⟩

/-- Without its deletion a claim stays stored. -/
theorem holds_of_trace {spec : HostClaimSpec} (h : governed.Trace store actions store')
    (hother : ∀ act ∈ actions, ∀ now, act.call ≠ .markClaimDeleting id now)
    (hkeyed : store.Keyed) (hholds : store.Holds id spec) : store'.Holds id spec := by
  refine (h.keeps (fun store => store.Keyed ∧ store.Holds id spec) ⟨hkeyed, hholds⟩ ?_).2
  rintro before act after hmem hstep ⟨hkeyed, hholds⟩
  exact ⟨hstep.1.keyed hkeyed, governed_holds hstep hkeyed (hother act hmem) hholds⟩

/-- What a successful creation leaves. -/
theorem Does.created_holds {spec : HostClaimSpec} {now : Timestamp} {claim : HostClaim}
    (h : store.Does ⟨.createClaim id spec now, .ok claim⟩ store') (hlive : store.Undeleted id) :
    store'.Holds id spec := by
  cases h with
  | created => exact ⟨_, Function.update_self .., rfl, rfl⟩
  | createdBefore _ hstored hspec => exact ⟨_, hstored, hspec, hlive _ hstored⟩

/-- What a query of a stored claim answers. -/
theorem Does.got {spec : HostClaimSpec} {answer : Except AppError HostClaimRecord}
    (h : store.Does ⟨.getClaim id, answer⟩ store') (hkeyed : store.Keyed)
    (hholds : store.Holds id spec) :
    ∃ record, answer = .ok record ∧ record.resource.id = id ∧ record.resource.spec = spec := by
  obtain ⟨claim, hclaim, hspec, -⟩ := hholds
  cases h with
  | gotClaim hstored =>
    rw [hclaim] at hstored
    cases hstored
    exact ⟨claim, rfl, hkeyed id claim hclaim, hspec⟩
  | noClaim hnone =>
    rw [hclaim] at hnone
    cases hnone

/-! ## Traces without a creation -/

/-- A claim that is stored is being deleted. -/
def Deleting (id : HostClaimId) (store : Store) : Prop :=
  ∀ claim, store.claim id = some claim → claim.resource.deletionTimestamp.isSome

/-- An action that is not its creation leaves a claim that is being deleted so. -/
theorem Does.deleting (h : store.Does act store') (hkeyed : store.Keyed)
    (hother : ∀ spec now, act.call ≠ .createClaim id spec now) (hdeleting : store.Deleting id) :
    store'.Deleting id := by
  intro claim' hclaim'
  cases hclaim : store.claim id with
  | none =>
    rcases h.appears hkeyed hclaim with hnone | ⟨spec, now, hcall, -⟩
    · rw [hnone] at hclaim'
      cases hclaim'
    · exact absurd hcall (hother spec now)
  | some claim =>
    have hrevises := h.revises hkeyed hclaim
    rw [hclaim'] at hrevises
    cases hrevises with
    | kept _ _ hsame =>
      rw [hsame]
      exact hdeleting claim hclaim
    | deletion => rfl

/-- Without its creation a claim that is being deleted stays so, as long as it is stored. -/
theorem deleting_of_trace (h : governed.Trace store actions store')
    (hother : ∀ act ∈ actions, ∀ spec now, act.call ≠ .createClaim id spec now)
    (hkeyed : store.Keyed) (hdeleting : store.Deleting id) :
    store'.Keyed ∧ store'.Deleting id := by
  refine h.keeps (fun store => store.Keyed ∧ store.Deleting id) ⟨hkeyed, hdeleting⟩ ?_
  rintro before act after hmem ⟨hdoes, -⟩ ⟨hkeyed, hdeleting⟩
  exact ⟨hdoes.keyed hkeyed, hdoes.deleting hkeyed (hother act hmem) hdeleting⟩

/-- What a successful deletion leaves. -/
theorem Does.marked_deleting {now : Timestamp} {claim : HostClaim}
    (h : store.Does ⟨.markClaimDeleting id now, .ok claim⟩ store') (hkeyed : store.Keyed) :
    store'.Deleting id := by
  intro found hfound
  cases h with
  | @marked _ _ old hold _ =>
    rw [setClaim_claim, show (requestDeletion old now).resource.id = id from hkeyed id old hold,
      Function.update_self] at hfound
    cases hfound
    rfl
  | markedBefore hold hdeleting =>
    rw [hold] at hfound
    cases hfound
    exact hdeleting

/-- What a query of a claim answers that is being deleted. -/
theorem Does.got_deleting {answer : Except AppError HostClaimRecord}
    (h : store.Does ⟨.getClaim id, answer⟩ store') (hkeyed : store.Keyed)
    (hdeleting : store.Deleting id) :
    (∃ record, answer = .ok record ∧ record.resource.id = id ∧
      record.resource.deletionTimestamp.isSome) ∨
      answer = .error (.notFound "HostClaim" id.text) := by
  cases h with
  | gotClaim hstored => exact .inl ⟨_, rfl, hkeyed id _ hstored, hdeleting _ hstored⟩
  | noClaim => exact .inr rfl

/-- Every trace leaves the claims under their ids. -/
theorem keyed_of_trace (h : governed.Trace empty actions store) : store.Keyed := by
  refine h.invariant Store.Keyed ?_ fun _ _ _ hstep => hstep.1.keyed
  intro id claim hclaim
  cases hclaim

end Store

/-! ## Histories -/

section Histories

variable {texts : Texts} {lib : Jsonrpsee} {context : RpcContext}

theorem Method.name_injective {method other : Method} (h : method.name = other.name) :
    method = other := by
  revert h
  cases method <;> cases other <;> decide

theorem Jsonrpsee.bounded_ok {outcome : Except ErrorObject Json} {json : Json}
    (h : lib.bounded outcome = some (.ok json)) : outcome = .ok json := by
  unfold bounded at h
  split at h
  · exact Option.some.inj h
  · cases h

/-- The reply to a call is that of its method. -/
theorem Answers.method {method : Method} {params : Option Json} {act : Answered} {reply : RpcReply}
    (h : Answers texts lib (.call method.name params) act reply) :
    method.Answers texts lib params act reply := by
  cases h with
  | called other hname hanswers =>
    rw [Method.name_injective hname]
    exact hanswers

theorem Method.Answers.create_cases {params : Option Json} {act : Answered} {reply : RpcReply}
    {claim : CreateHostClaimParams} (h : hostClaimCreate.Answers texts lib params act reply)
    (hread : (Wire.createHostClaimParams texts).decode (params.getD .null) = some claim) :
    ∃ now answer, act = ⟨.createClaim claim.id claim.spec now, answer⟩ ∧
      reply = lib.bounded (outcome (Wire.hostClaim texts).encode answer) := by
  cases h with
  | create hsome =>
    rw [hread] at hsome
    cases hsome
    exact ⟨_, _, rfl, rfl⟩

theorem Method.Answers.get_cases {params : Option Json} {act : Answered} {reply : RpcReply}
    {id : HostClaimId} (h : hostClaimGet.Answers texts lib params act reply)
    (hread : (Wire.getHostClaimParams texts).decode (params.getD .null) = some id) :
    ∃ answer, act = ⟨.getClaim id, answer⟩ ∧
      reply = lib.bounded (outcome (fun record : HostClaimRecord =>
        (Wire.hostClaim texts).encode record.resource) answer) := by
  cases h with
  | get hsome =>
    rw [hread] at hsome
    cases hsome
    exact ⟨_, rfl, rfl⟩

theorem Method.Answers.delete_cases {params : Option Json} {act : Answered} {reply : RpcReply}
    {id : HostClaimId} (h : hostClaimDelete.Answers texts lib params act reply)
    (hread : (Wire.deleteHostClaimParams texts).decode (params.getD .null) = some id) :
    ∃ now answer, act = ⟨.markClaimDeleting id now, answer⟩ ∧
      reply = lib.bounded (outcome (Wire.hostClaim texts).encode answer) := by
  cases h with
  | delete hsome =>
    rw [hread] at hsome
    cases hsome
    exact ⟨_, _, rfl, rfl⟩

/-- A method that is not `system.info` answers aside with an error. -/
theorem Aside.error {method : Method} {params : Option Json} {reply : RpcReply}
    (h : Aside texts lib context (.call method.name params) reply) (hother : method ≠ .systemInfo) :
    (¬method.Accepts texts params ∨ ∃ text,
      reply = lib.bounded (.error (AppError.internal text).intoRpcError)) ∧
      ∀ json, reply ≠ some (.ok json) := by
  have hbounded : ∀ {error : ErrorObject} {json : Json},
      lib.bounded (.error error) ≠ some (.ok json) := by
    intro error json hok
    cases lib.bounded_ok hok
  cases h with
  | unknown hunknown => exact absurd rfl (hunknown method)
  | called other hname haside =>
    rw [← Method.name_injective hname] at haside
    cases haside with
    | refused hrefused => exact ⟨.inl hrefused, fun _ => hbounded⟩
    | info => exact absurd rfl hother
    | failed => exact ⟨.inr ⟨_, rfl⟩, fun _ => hbounded⟩

variable {history : List (Seen Message RpcReply)} {order : List (Option Nat × Answered)}
  {last : Store}

/-- A call that the server offers to its clients was made by one of them. -/
theorem asked_of_offered {who : Option Nat} {act : Answered}
    (h : Linearization Store.governed (contract texts lib context) Store.empty history order last)
    (hact : (who, act) ∈ order) (hoffered : Handler.Offered act.call) :
    ∃ ticket method params reply, who = some ticket ∧
      .invoked ticket (.call (Method.name method) params) ∈ history ∧
        method.Answers texts lib params act reply := by
  cases who with
  | none => exact absurd hoffered (h.others act hact)
  | some ticket =>
    obtain ⟨request, reply, hinvoked, hanswers⟩ := h.asked ticket act hact
    cases hanswers with
    | called method hname hanswers =>
      subst hname
      exact ⟨ticket, method, _, reply, rfl, hinvoked, hanswers⟩

/-- Nobody but a client that asks for it marks a claim as being deleted. -/
theorem deletion_was_asked {id : HostClaimId} {who : Option Nat} {act : Answered} {now : Timestamp}
    (h : Linearization Store.governed (contract texts lib context) Store.empty history order last)
    (hact : (who, act) ∈ order) (hcall : act.call = .markClaimDeleting id now) :
    ∃ ticket params, .invoked ticket (.call Method.hostClaimDelete.name params) ∈ history ∧
      (Wire.deleteHostClaimParams texts).decode (params.getD .null) = some id := by
  obtain ⟨ticket, method, params, reply, -, hinvoked, hanswers⟩ :=
    asked_of_offered h hact (by rw [hcall]; trivial)
  cases hanswers with
  | delete hdecode =>
    cases hcall
    exact ⟨ticket, params, hinvoked, hdecode⟩
  | create | get | list | getHost | listHosts => cases hcall

/-- Nobody but a client that asks for it creates a claim. -/
theorem creation_was_asked {id : HostClaimId} {who : Option Nat} {act : Answered}
    {spec : HostClaimSpec} {now : Timestamp}
    (h : Linearization Store.governed (contract texts lib context) Store.empty history order last)
    (hact : (who, act) ∈ order) (hcall : act.call = .createClaim id spec now) :
    ∃ ticket params claim, who = some ticket ∧
      .invoked ticket (.call Method.hostClaimCreate.name params) ∈ history ∧
        (Wire.createHostClaimParams texts).decode (params.getD .null) = some claim ∧
        claim.id = id := by
  obtain ⟨ticket, method, params, reply, rfl, hinvoked, hanswers⟩ :=
    asked_of_offered h hact (by rw [hcall]; trivial)
  cases hanswers with
  | @create claim _ _ hdecode =>
    cases hcall
    exact ⟨ticket, params, claim, rfl, hinvoked, hdecode, rfl⟩
  | get | list | delete | getHost | listHosts => cases hcall

end Histories

variable {σ : Type} {P : ProviderModel σ} {texts : Texts} {lib : Jsonrpsee} {context : RpcContext}
  {methods : List (String × Method)} {provider : σ} {s : ServerState σ}

/-- A claim whose creation was acknowledged is found by every request that is made later, with the
    specification it was created with, across failures, restarts and whatever else is asked: unless
    a client asked for its deletion, or the database fails at the request itself. -/
theorem acknowledged_claim_is_found (hmethods : rpcModule = .ok methods)
    (h : (server P texts lib context methods).Reach (ServerState.initial provider) s)
    {first second : Nat} {params params' : Option Json} {claim : CreateHostClaimParams}
    {acknowledgement : Json} {reply : RpcReply}
    (hcreate : .invoked first (.call Method.hostClaimCreate.name params) ∈ s.history)
    (hclaim : (Wire.createHostClaimParams texts).decode (params.getD .null) = some claim)
    (hacknowledged : .responded first (some (.ok acknowledgement)) ∈ s.history)
    (hlater : Precedes s.history first second)
    (hget : .invoked second (.call Method.hostClaimGet.name params') ∈ s.history)
    (hid : (Wire.getHostClaimParams texts).decode (params'.getD .null) = some claim.id)
    (hreply : .responded second reply ∈ s.history) :
    (∃ found : HostClaim, found.id = claim.id ∧ found.spec = claim.spec ∧
      reply = lib.bounded (.ok ((Wire.hostClaim texts).encode found))) ∨
    (∃ text, reply = lib.bounded (.error (AppError.internal text).intoRpcError)) ∨
    ∃ third params'', .invoked third (.call Method.hostClaimDelete.name params'') ∈ s.history ∧
      (Wire.deleteHostClaimParams texts).decode (params''.getD .null) = some claim.id := by
  obtain ⟨order, ⟨hlinear, -, -, -, -⟩⟩ := linear_of_server hmethods h
  by_cases hdelete : ∃ third params'',
      .invoked third (.call Method.hostClaimDelete.name params'') ∈ s.history ∧
        (Wire.deleteHostClaimParams texts).decode (params''.getD .null) = some claim.id
  · exact .inr (.inr hdelete)
  have hother : ∀ {who : Option Nat} {act : Answered}, (who, act) ∈ order →
      ∀ now, act.call ≠ .markClaimDeleting claim.id now := fun hact now hcall =>
    hdelete (deletion_was_asked hlinear hact hcall)
  rcases hlinear.answered first _ _ hcreate hacknowledged with
    ⟨haside, -⟩ | ⟨act, hact, hanswers⟩
  · exact absurd rfl ((Aside.error haside (by decide)).2 acknowledgement)
  obtain ⟨now, created, rfl, houtcome⟩ := (Answers.method hanswers).create_cases hclaim
  rcases hlinear.answered second _ _ hget hreply with ⟨haside, -⟩ | ⟨act', hact', hanswers'⟩
  · obtain ⟨hrefused | hfailed, -⟩ := Aside.error haside (by decide)
    · refine absurd ?_ hrefused
      show ((Wire.getHostClaimParams texts).decode (params'.getD .null)).isSome
      rw [hid]
      rfl
    · exact .inr (.inl hfailed)
  obtain ⟨got, rfl, rfl⟩ := (Answers.method hanswers').get_cases hid
  -- the creation comes before the query, and no deletion before or between them
  obtain ⟨a, a', b, b', before, between, hbefore, hstep, hbetween, hstep', hall, -⟩ :=
    hlinear.ordered hlater hact hact'
  have hquiet : ∀ action ∈ before ++ between,
      ∀ now, action.call ≠ .markClaimDeleting claim.id now := by
    intro action hmem
    obtain ⟨who, hwho⟩ := hall action hmem
    exact hother hwho
  obtain ⟨hkeyed, hlive⟩ := Store.undeleted_of_trace hbefore fun action hmem =>
    hquiet action (List.mem_append_left _ hmem)
  cases created with
  | error error => cases lib.bounded_ok houtcome.symm
  | ok stored =>
    have hholds := hstep.1.created_holds hlive
    have hkeyed' := hstep.1.keyed hkeyed
    have hbetween' : ∀ action ∈ between, ∀ now, action.call ≠ .markClaimDeleting claim.id now :=
      fun action hmem => hquiet action (List.mem_append_right _ hmem)
    have hfound := Store.holds_of_trace hbetween hbetween' hkeyed' hholds
    have hkeyedLast : b.Keyed :=
      hbetween.invariant Store.Keyed hkeyed' fun _ _ _ hstep => hstep.1.keyed
    obtain ⟨record, rfl, hrecord, hspec⟩ := hstep'.1.got hkeyedLast hfound
    exact .inl ⟨record.resource, hrecord, hspec, rfl⟩

/-- A claim whose deletion was acknowledged is never seen live again: a request that is made later
    finds it being deleted or does not find it, across failures, restarts and whatever else is
    asked: unless a client asked to create it anew and was not answered before the deletion was
    asked for, or the database fails at the request itself. -/
theorem acknowledged_deletion_stays (hmethods : rpcModule = .ok methods)
    (h : (server P texts lib context methods).Reach (ServerState.initial provider) s)
    {first second : Nat} {params params' : Option Json} {id : HostClaimId}
    {acknowledgement : Json} {reply : RpcReply}
    (hdelete : .invoked first (.call Method.hostClaimDelete.name params) ∈ s.history)
    (hclaim : (Wire.deleteHostClaimParams texts).decode (params.getD .null) = some id)
    (hacknowledged : .responded first (some (.ok acknowledgement)) ∈ s.history)
    (hlater : Precedes s.history first second)
    (hget : .invoked second (.call Method.hostClaimGet.name params') ∈ s.history)
    (hid : (Wire.getHostClaimParams texts).decode (params'.getD .null) = some id)
    (hreply : .responded second reply ∈ s.history) :
    (∃ found : HostClaim, found.id = id ∧ found.deletionTimestamp.isSome ∧
      reply = lib.bounded (.ok ((Wire.hostClaim texts).encode found))) ∨
    reply = lib.bounded (.error (AppError.notFound "HostClaim" id.text).intoRpcError) ∨
    (∃ text, reply = lib.bounded (.error (AppError.internal text).intoRpcError)) ∨
    ∃ third params'' claim,
      .invoked third (.call Method.hostClaimCreate.name params'') ∈ s.history ∧
        (Wire.createHostClaimParams texts).decode (params''.getD .null) = some claim ∧
        claim.id = id ∧ ¬Precedes s.history third first := by
  obtain ⟨order, ⟨hlinear, -, -, -, -⟩⟩ := linear_of_server hmethods h
  by_cases hcreate : ∃ third params'' claim,
      .invoked third (.call Method.hostClaimCreate.name params'') ∈ s.history ∧
        (Wire.createHostClaimParams texts).decode (params''.getD .null) = some claim ∧
        claim.id = id ∧ ¬Precedes s.history third first
  · exact .inr (.inr (.inr hcreate))
  rcases hlinear.answered first _ _ hdelete hacknowledged with
    ⟨haside, -⟩ | ⟨act, hact, hanswers⟩
  · exact absurd rfl ((Aside.error haside (by decide)).2 acknowledgement)
  obtain ⟨now, marked, rfl, houtcome⟩ := (Answers.method hanswers).delete_cases hclaim
  rcases hlinear.answered second _ _ hget hreply with ⟨haside, -⟩ | ⟨act', hact', hanswers'⟩
  · obtain ⟨hrefused | hfailed, -⟩ := Aside.error haside (by decide)
    · refine absurd ?_ hrefused
      show ((Wire.getHostClaimParams texts).decode (params'.getD .null)).isSome
      rw [hid]
      rfl
    · exact .inr (.inr (.inl hfailed))
  obtain ⟨got, rfl, rfl⟩ := (Answers.method hanswers').get_cases hid
  -- the deletion comes before the query, and no creation between them
  obtain ⟨a, a', b, b', before, between, hbefore, hstep, hbetween, hstep', -, hamid⟩ :=
    hlinear.ordered hlater hact hact'
  have hquiet : ∀ action ∈ between, ∀ spec now, action.call ≠ .createClaim id spec now := by
    intro action hmem spec now hcall
    obtain ⟨who, hwho, hunsettled⟩ := hamid action hmem
    obtain ⟨third, params'', claim, rfl, hinvoked, hread, hsame⟩ :=
      creation_was_asked hlinear hwho hcall
    exact hcreate ⟨third, params'', claim, hinvoked, hread, hsame, hunsettled third rfl⟩
  cases marked with
  | error error => cases lib.bounded_ok houtcome.symm
  | ok stored =>
    have hkeyed := Store.keyed_of_trace hbefore
    obtain ⟨hkeyedLast, hdeleting⟩ := Store.deleting_of_trace hbetween hquiet
      (hstep.1.keyed hkeyed) (hstep.1.marked_deleting hkeyed)
    rcases hstep'.1.got_deleting hkeyedLast hdeleting with ⟨record, rfl, hrecord, hsome⟩ | rfl
    · exact .inl ⟨record.resource, hrecord, hsome, rfl⟩
    · exact .inr (.inl rfl)

/-- A claim is created and found. -/
theorem claim_found_by_oneClient : ∃ found : HostClaim, found.id = OneClient.params.id ∧
    found.spec = OneClient.params.spec ∧ .responded 1
      (some (.ok ((Wire.hostClaim Texts.canonical).encode found))) ∈ OneClient.history := by
  obtain ⟨s, h, hhistory⟩ := OneClient.reachable
  have hmem : ∀ seen ∈ OneClient.history, seen ∈ s.history := by
    rw [hhistory]
    exact fun _ => id
  have hlater : Precedes s.history 0 1 := by
    rw [hhistory]
    exact ⟨[_, _], [_, _], _, _, rfl, List.mem_cons_of_mem _ List.mem_cons_self,
      List.mem_cons_self⟩
  have hfound := acknowledged_claim_is_found (show rpcModule = .ok OneClient.methods by decide) h
    (hmem _ List.mem_cons_self) (show _ = some OneClient.params from rfl)
    (hmem _ (List.mem_cons_of_mem _ List.mem_cons_self)) hlater
    (hmem _ (List.mem_cons_of_mem _ (List.mem_cons_of_mem _ List.mem_cons_self)))
    (show _ = some OneClient.params.id from rfl)
    (hmem _ (List.mem_cons_of_mem _ (List.mem_cons_of_mem _
      (List.mem_cons_of_mem _ List.mem_cons_self))))
  rcases hfound with ⟨found, hid, hspec, hreply⟩ | ⟨text, hreply⟩ | ⟨third, params, hdelete, -⟩
  · refine ⟨found, hid, hspec, ?_⟩
    have hresponse :
        OneClient.library.bounded (.ok ((Wire.hostClaim Texts.canonical).encode found)) =
        some (.ok ((Wire.hostClaim Texts.canonical).encode found)) := rfl
    rw [← hresponse, ← hreply]
    exact List.mem_cons_of_mem _ (List.mem_cons_of_mem _
      (List.mem_cons_of_mem _ List.mem_cons_self))
  · cases hreply
  · rw [hhistory] at hdelete
    simp [OneClient.history, Method.name] at hdelete

namespace OneClient

/-- The claim when its deletion was asked for. -/
def deleting : HostClaim := (requestDeletion ⟨created, RetryState.default⟩ ⟨1⟩).resource

/-- The history of another run: the claim is created, deleted and asked for. -/
noncomputable def deletionHistory : List (Seen Message RpcReply) :=
  [.invoked 0 (.call Method.hostClaimCreate.name (some createParams)),
    .responded 0 (some (.ok ((Wire.hostClaim Texts.canonical).encode created))),
    .invoked 1 (.call Method.hostClaimDelete.name (some getParams)),
    .responded 1 (some (.ok ((Wire.hostClaim Texts.canonical).encode deleting))),
    .invoked 2 (.call Method.hostClaimGet.name (some getParams)),
    .responded 2 (some (.ok ((Wire.hostClaim Texts.canonical).encode deleting)))]

/-- The other run. -/
theorem deletion_reachable : ∃ s, oneServer.Reach (ServerState.initial Script.willing) s ∧
    s.history = deletionHistory := by
  have hstart : oneServer.Reach (ServerState.initial Script.willing)
    (ServerState.initial Script.willing) := .refl
  have hcreated := Serving.Reach.serve hstart 0
    (.call Method.hostClaimCreate.name (some createParams)) (fun _ hmem => by cases hmem)
    (.call (@Server.Exec.nowTimestamp _ _ ⟨0⟩) (.call .storage (.call .wake .done)))
  have hdeleted := Serving.Reach.serve hcreated 1
    (.call Method.hostClaimDelete.name (some getParams)) (fun _ hmem => ?_)
    (.call (@Server.Exec.nowTimestamp _ _ ⟨1⟩) (.call .storage (.call .wake .done)))
  · have hgot := Serving.Reach.serve hdeleted 2 (.call Method.hostClaimGet.name (some getParams))
      (fun _ hmem => ?_) (.call .storage .done)
    · exact ⟨_, hgot, rfl⟩
    · simp [ServerState.initial, Serving.State.idle] at hmem
  · simp [ServerState.initial, Serving.State.idle] at hmem

end OneClient

/-- A claim is deleted, and found being deleted. -/
theorem claim_deleted_by_oneClient : ∃ found : HostClaim, found.id = OneClient.params.id ∧
    found.deletionTimestamp.isSome ∧ .responded 2
      (some (.ok ((Wire.hostClaim Texts.canonical).encode found))) ∈
        OneClient.deletionHistory := by
  obtain ⟨s, h, hhistory⟩ := OneClient.deletion_reachable
  have hmem : ∀ seen ∈ OneClient.deletionHistory, seen ∈ s.history := by
    rw [hhistory]
    exact fun _ => id
  have hbefore : Precedes s.history 0 1 := by
    rw [hhistory]
    exact ⟨[_, _], [_, _, _, _], _, _, rfl, List.mem_cons_of_mem _ List.mem_cons_self,
      List.mem_cons_self⟩
  have hlater : Precedes s.history 1 2 := by
    rw [hhistory]
    exact ⟨[_, _, _, _], [_, _], _, _, rfl, List.mem_cons_of_mem _ (List.mem_cons_of_mem _
      (List.mem_cons_of_mem _ List.mem_cons_self)), List.mem_cons_self⟩
  have hreply : .responded 2 (some (.ok ((Wire.hostClaim Texts.canonical).encode
      OneClient.deleting))) ∈ OneClient.deletionHistory := by
    simp [OneClient.deletionHistory]
  have hstays := acknowledged_deletion_stays
    (show rpcModule = .ok OneClient.methods by decide) h
    (hmem (.invoked 1 (.call Method.hostClaimDelete.name (some OneClient.getParams)))
      (by simp [OneClient.deletionHistory]))
    (show _ = some OneClient.params.id from rfl)
    (hmem (.responded 1 (some (.ok ((Wire.hostClaim Texts.canonical).encode
      OneClient.deleting)))) (by simp [OneClient.deletionHistory])) hlater
    (hmem (.invoked 2 (.call Method.hostClaimGet.name (some OneClient.getParams)))
      (by simp [OneClient.deletionHistory]))
    (show _ = some OneClient.params.id from rfl) (hmem _ hreply)
  rcases hstays with ⟨found, hid, hsome, hfound⟩ | hfound | ⟨text, hfound⟩ |
    ⟨third, params, claim, hcreate, -, -, hnot⟩
  · refine ⟨found, hid, hsome, ?_⟩
    have hresponse :
        OneClient.library.bounded (.ok ((Wire.hostClaim Texts.canonical).encode found)) =
        some (.ok ((Wire.hostClaim Texts.canonical).encode found)) := rfl
    rw [← hresponse, ← hfound]
    exact hreply
  · cases hfound
  · cases hfound
  · rw [hhistory] at hcreate
    simp only [OneClient.deletionHistory, List.mem_cons, List.not_mem_nil, reduceCtorEq,
      Seen.invoked.injEq, false_or, or_false] at hcreate
    rcases hcreate with ⟨rfl, -⟩ | ⟨-, hname⟩ | ⟨-, hname⟩
    · exact absurd hbefore hnot
    · simp [Method.name] at hname
    · simp [Method.name] at hname

end ControlPlane
