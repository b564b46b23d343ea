import ControlPlane.Storage.Calls

/-!
# What `Storage` is for

Two finite maps, one of claims and one of Hosts, and what every method answers and does in terms
of them, its errors included: no rows, no columns, no statements and no transactions.
-/

namespace ControlPlane

open Storage Interaction

/-- The stored claims and Hosts. -/
@[ext]
structure Store where
  claim : HostClaimId → Option HostClaimRecord
  host : HostId → Option HostRecord

namespace Store

/-- Nothing is stored. -/
def empty : Store := ⟨fun _ => none, fun _ => none⟩

section Updates

variable (store : Store)

/-- A claim is stored. -/
def setClaim (claim : HostClaimRecord) : Store :=
  { store with claim := Function.update store.claim claim.resource.id (some claim) }

/-- A Host is stored. -/
def setHost (host : HostRecord) : Store :=
  { store with host := Function.update store.host host.resource.id (some host) }

/-- A claim goes, and its Host with it. -/
def remove (claimId : HostClaimId) : Store where
  claim := Function.update store.claim claimId none
  host hostId := (store.host hostId).filter fun host => host.resource.claimId ≠ claimId

@[simp] theorem setClaim_claim (claim : HostClaimRecord) :
    (store.setClaim claim).claim =
      Function.update store.claim claim.resource.id (some claim) := rfl

@[simp] theorem setClaim_host (claim : HostClaimRecord) :
    (store.setClaim claim).host = store.host := rfl

@[simp] theorem setHost_claim (host : HostRecord) :
    (store.setHost host).claim = store.claim := rfl

@[simp] theorem setHost_host (host : HostRecord) :
    (store.setHost host).host =
      Function.update store.host host.resource.id (some host) := rfl

/-- No other Host has the provider resource of a record. -/
def Free (record : HostRecord) : Prop :=
  ∀ hostId other resourceId, hostId ≠ record.resource.id → store.host hostId = some other →
    record.resource.status.providerResourceId = some resourceId →
    other.resource.status.providerResourceId ≠ some resourceId

/-- A claim has a Host. -/
def HostOf (claimId : HostClaimId) (host : HostRecord) : Prop :=
  store.host host.resource.id = some host ∧ host.resource.claimId = claimId

end Updates

/-- A list of everything in a map, each once, by creation time and id as texts. -/
structure Lists {κ α : Type} (stored : κ → Option α) (key : α → κ) (createdAt : α → Timestamp)
    (id : α → String) (items : List α) : Prop where
  once : (items.map key).Nodup
  stored : ∀ item, item ∈ items ↔ stored (key item) = some item
  ordered : items.Pairwise fun left right =>
    listedBefore (createdAt left) (id left) (createdAt right) (id right)

/-- What a call answers and does. -/
inductive Does (store : Store) : Answered → Store → Prop where
  -- `create_claim`
  | createRefused {id spec now error} : validateResources spec.resources = .error error →
      Does store ⟨.createClaim id spec now, .error error⟩ store
  | created {id spec now} : validateResources spec.resources = .ok () → store.claim id = none →
      Does store ⟨.createClaim id spec now, .ok (initialClaim id spec now)⟩
        (store.setClaim ⟨initialClaim id spec now, RetryState.default⟩)
  | createdBefore {id spec now claim} : validateResources spec.resources = .ok () →
      store.claim id = some claim → claim.resource.spec = spec →
      Does store ⟨.createClaim id spec now, .ok claim.resource⟩ store
  | createdOtherwise {id spec now claim} : validateResources spec.resources = .ok () →
      store.claim id = some claim → claim.resource.spec ≠ spec →
      Does store ⟨.createClaim id spec now, .error
        (.conflict "HostClaim" id.text "the existing claim has a different spec")⟩ store
  -- the queries
  | gotClaim {id claim} : store.claim id = some claim →
      Does store ⟨.getClaim id, .ok claim⟩ store
  | noClaim {id} : store.claim id = none →
      Does store ⟨.getClaim id, .error (.notFound "HostClaim" id.text)⟩ store
  | listedClaims {claims} :
      Lists store.claim (·.resource.id) (·.resource.createdAt) (·.resource.id.text) claims →
      Does store ⟨.listClaims, .ok claims⟩ store
  | gotHost {id host} : store.host id = some host → Does store ⟨.getHost id, .ok host⟩ store
  | noHost {id} : store.host id = none →
      Does store ⟨.getHost id, .error (.notFound "Host" id.text)⟩ store
  | listedHosts {hosts} :
      Lists store.host (·.resource.id) (·.resource.createdAt) (·.resource.id.text) hosts →
      Does store ⟨.listHosts, .ok hosts⟩ store
  -- `mark_claim_deleting`
  | markedNone {id now} : store.claim id = none →
      Does store ⟨.markClaimDeleting id now, .error (.notFound "HostClaim" id.text)⟩ store
  | marked {id now claim} : store.claim id = some claim →
      claim.resource.deletionTimestamp = none →
      Does store ⟨.markClaimDeleting id now, .ok (requestDeletion claim now).resource⟩
        (store.setClaim (requestDeletion claim now))
  | markedBefore {id now claim} : store.claim id = some claim →
      claim.resource.deletionTimestamp.isSome →
      Does store ⟨.markClaimDeleting id now, .ok claim.resource⟩ store
  -- `save_claim_status`
  | statusRefused {record error} :
      toI64 record.resource.status.observedGeneration "observed_generation" = .error error →
      Does store ⟨.saveClaimStatus record, .error error⟩ store
  | statusSaved {record claim} : record.resource.status.observedGeneration.toNat < 2 ^ 63 →
      store.claim record.resource.id = some claim →
      claim.resource.deletionTimestamp = record.resource.deletionTimestamp →
      Does store ⟨.saveClaimStatus record, .ok true⟩ (store.setClaim (claim.withStatus record))
  | superseded {record} : record.resource.status.observedGeneration.toNat < 2 ^ 63 →
      (∀ claim, store.claim record.resource.id = some claim →
        claim.resource.deletionTimestamp ≠ record.resource.deletionTimestamp) →
      Does store ⟨.saveClaimStatus record, .ok false⟩ store
  -- `ensure_host`
  | ensureRefused {claimId planId resources hostId now error} :
      validateResources resources = .error error →
      Does store ⟨.ensureHost claimId planId resources hostId now, .error error⟩ store
  | ensuredNone {claimId planId resources hostId now} : validateResources resources = .ok () →
      store.claim claimId = none →
      Does store ⟨.ensureHost claimId planId resources hostId now, .error
        (.notFound "HostClaim" claimId.text)⟩ store
  | ensuredDeleting {claimId planId resources hostId now claim} :
      validateResources resources = .ok () → store.claim claimId = some claim →
      claim.resource.deletionTimestamp.isSome →
      Does store ⟨.ensureHost claimId planId resources hostId now, .error
        (.conflict "HostClaim" claimId.text "the claim is being deleted")⟩ store
  | ensuredBefore {claimId planId resources hostId now claim host answer} :
      validateResources resources = .ok () → store.claim claimId = some claim →
      claim.resource.deletionTimestamp = none → store.HostOf claimId host →
      answer = (validateHostAssignment host planId resources).map (fun _ => host) →
      Does store ⟨.ensureHost claimId planId resources hostId now, answer⟩ store
  | ensured {claimId planId resources hostId now claim} :
      validateResources resources = .ok () → store.claim claimId = some claim →
      claim.resource.deletionTimestamp = none → (∀ host, ¬store.HostOf claimId host) →
      store.host hostId = none → 0 < textLength planId →
      Does store
        ⟨.ensureHost claimId planId resources hostId now,
          .ok (newHost claimId planId resources hostId now)⟩
        ((store.setHost (newHost claimId planId resources hostId now)).setClaim
          (assignHost claim hostId now))
  | ensureRejected {claimId planId resources hostId now claim} :
      validateResources resources = .ok () → store.claim claimId = some claim →
      claim.resource.deletionTimestamp = none → (∀ host, ¬store.HostOf claimId host) →
      (store.host hostId).isSome ∨ textLength planId = 0 →
      Does store ⟨.ensureHost claimId planId resources hostId now, .error
        (.internal "constraint failed")⟩ store
  -- `save_host`
  | savedNone {record} : store.host record.resource.id = none →
      Does store ⟨.saveHost record, .error (.notFound "Host" record.resource.id.text)⟩ store
  | saved {record host} : store.host record.resource.id = some host → store.Free record →
      Does store ⟨.saveHost record, .ok ()⟩ (store.setHost (host.withStatus record))
  | saveRejected {record host} : store.host record.resource.id = some host →
      ¬store.Free record →
      Does store ⟨.saveHost record, .error (.internal "constraint failed")⟩ store
  -- `finalize_claim`
  | finalizedNone {claimId} : store.claim claimId = none →
      Does store ⟨.finalizeClaim claimId, .error (.notFound "HostClaim" claimId.text)⟩ store
  | finalized {claimId claim} : store.claim claimId = some claim →
      Does store ⟨.finalizeClaim claimId, .ok ()⟩ (store.remove claimId)

/-- The store as a machine. -/
def machine : Machine Answered Store := ⟨Does⟩

end Store

end ControlPlane
