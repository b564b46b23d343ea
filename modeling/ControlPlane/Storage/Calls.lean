import ControlPlane.Interaction.Refinement
import ControlPlane.Storage.Statements

/-!
# Calls of `Storage`

The methods as the calls others make, each run statement by statement and answered, and `Storage`
as the machine they drive.
-/

namespace ControlPlane

open Interaction Interaction.Session

namespace Storage

/-- A call of a method, with what it draws from the clock and the identities. -/
inductive Call where
  | createClaim (id : HostClaimId) (spec : HostClaimSpec) (now : Timestamp)
  | getClaim (id : HostClaimId)
  | listClaims
  | markClaimDeleting (id : HostClaimId) (now : Timestamp)
  | saveClaimStatus (record : HostClaimRecord)
  | ensureHost (claimId : HostClaimId) (providerPlanId : String) (resources : HostResources)
      (hostId : HostId) (now : Timestamp)
  | getHost (id : HostId)
  | listHosts
  | saveHost (record : HostRecord)
  | finalizeClaim (claimId : HostClaimId)
  deriving DecidableEq

/-- What a method returns. -/
abbrev Call.Result : Call → Type
  | .createClaim _ _ _ => HostClaim
  | .getClaim _ => HostClaimRecord
  | .listClaims => List HostClaimRecord
  | .markClaimDeleting _ _ => HostClaim
  | .saveClaimStatus _ => Bool
  | .ensureHost _ _ _ _ _ => HostRecord
  | .getHost _ => HostRecord
  | .listHosts => List HostRecord
  | .saveHost _ => Unit
  | .finalizeClaim _ => Unit

/-- A call that has been answered. -/
structure Answered where
  call : Call
  answer : Except AppError call.Result

/-- What a call answers, and the tables after it. -/
def Call.perform : (call : Call) → Database → Except AppError call.Result × Database
  | .createClaim id spec now, db => Session.perform (Statements.createClaim id spec now) db
  | .getClaim id, db => (Storage.getClaim db id, db)
  | .listClaims, db => (Storage.listClaims db, db)
  | .markClaimDeleting id now, db => Session.perform (Statements.markClaimDeleting id now) db
  | .saveClaimStatus record, db => Session.perform (Statements.saveClaimStatus record) db
  | .ensureHost claimId planId resources hostId now, db =>
    Session.perform (Statements.ensureHost claimId planId resources hostId now) db
  | .getHost id, db => (Storage.getHost db id, db)
  | .listHosts, db => (Storage.listHosts db, db)
  | .saveHost record, db => Session.perform (Statements.saveHost record) db
  | .finalizeClaim claimId, db => Session.perform (Statements.finalizeClaim claimId) db

/-- `Storage` as a machine: what its methods answer and leave in the tables. -/
def machine : Machine Answered Database where
  step db answered db' := answered.call.perform db = (answered.answer, db')

end Storage

end ControlPlane
