import ControlPlane.Storage.Statements

/-!
# States reachable through the methods of `Storage`

Any sequence of calls with any arguments, from a freshly migrated database. Every row of such a
state decodes, whatever was asked for.
-/

namespace ControlPlane.Storage

open Interaction Session Database

/-- A call of a mutator, with what it draws from the clock and the identities. -/
inductive Mutation where
  | createClaim (id : HostClaimId) (spec : HostClaimSpec) (now : Timestamp)
  | markClaimDeleting (id : HostClaimId) (now : Timestamp)
  | saveClaimStatus (record : HostClaimRecord)
  | ensureHost (claimId : HostClaimId) (providerPlanId : String) (resources : HostResources)
      (hostId : HostId) (now : Timestamp)
  | saveHost (record : HostRecord)
  | finalizeClaim (claimId : HostClaimId)

/-- The tables after a call. -/
def Mutation.apply (db : Database) : Mutation → Database
  | .createClaim id spec now => (perform (Statements.createClaim id spec now) db).2
  | .markClaimDeleting id now => (perform (Statements.markClaimDeleting id now) db).2
  | .saveClaimStatus record => (perform (Statements.saveClaimStatus record) db).2
  | .ensureHost claimId providerPlanId resources hostId now =>
    (perform (Statements.ensureHost claimId providerPlanId resources hostId now) db).2
  | .saveHost record => (perform (Statements.saveHost record) db).2
  | .finalizeClaim claimId => (perform (Statements.finalizeClaim claimId) db).2

/-- The states reachable through the methods. -/
inductive Reached : Database → Prop where
  | empty : Reached .empty
  | apply {db : Database} (mutation : Mutation) : Reached db → Reached (mutation.apply db)

variable {db db' : Database}

/-- An atomic method keeps the tables readable if it does when it succeeds. -/
theorem readable_perform {α : Type} {method : Statements.Method α}
    {operation : Database → Except AppError (α × Database)}
    (hperform : perform method db = run operation db) (readable : db.Readable)
    (h : ∀ value db', operation db = .ok (value, db') → db'.Readable) :
    (perform method db).2.Readable := by
  rw [hperform]
  unfold run
  split
  · rename_i value db' hok
    exact h value db' hok
  · exact readable

/-- Every call keeps the tables readable. -/
theorem Mutation.readable (mutation : Mutation) (readable : db.Readable) :
    (mutation.apply db).Readable := by
  cases mutation with
  | createClaim id spec now =>
    refine readable_perform (Statements.perform_createClaim ..) readable fun claim db' h => ?_
    rcases createClaim_ok readable h with ⟨-, -, -, rfl⟩ | ⟨-, -, hreadable, -⟩
    · exact readable
    · exact hreadable
  | markClaimDeleting id now =>
    refine readable_perform (Statements.perform_markClaimDeleting ..) readable fun claim db' h => ?_
    obtain ⟨-, -, ⟨-, -, rfl⟩ | ⟨-, -, hreadable, -⟩⟩ := markClaimDeleting_ok readable h
    · exact readable
    · exact hreadable
  | saveClaimStatus record =>
    refine readable_perform (Statements.perform_saveClaimStatus ..) readable fun saved db' h => ?_
    rcases saveClaimStatus_ok readable h with ⟨-, hreadable, -⟩ | ⟨-, rfl, -⟩
    · exact hreadable
    · exact readable
  | ensureHost claimId providerPlanId resources hostId now =>
    refine readable_perform (Statements.perform_ensureHost ..) readable fun host db' h => ?_
    obtain ⟨-, -, -, ⟨rfl, -⟩ | ⟨-, hreadable, -⟩⟩ := ensureHost_ok readable h
    · exact readable
    · exact hreadable
  | saveHost record =>
    refine readable_perform (Statements.perform_saveHost ..) readable fun _ db' h => ?_
    obtain ⟨-, -, hreadable, -⟩ := saveHost_ok readable h
    exact hreadable
  | finalizeClaim claimId =>
    refine readable_perform (Statements.perform_finalizeClaim ..) readable fun _ db' h => ?_
    obtain ⟨-, hreadable, -⟩ := finalizeClaim_ok readable h
    exact hreadable

/-- Every state reachable through the methods is readable. -/
theorem Reached.readable (h : Reached db) : db.Readable := by
  induction h with
  | empty => exact readable_empty
  | apply mutation _ ih => exact mutation.readable ih

end ControlPlane.Storage
