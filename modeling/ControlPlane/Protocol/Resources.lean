import Mathlib.Algebra.Order.Ring.Int
import Mathlib.Data.List.Sort
import Mathlib.Data.String.Basic

/-!
# Wire resources

The resource types of `control-plane-protocol` (`resources.rs`, `ids.rs`): the claim an
operator writes, the Host the control plane assigns to it, and the conditions both publish.

A `Uuid` is carried as its canonical hyphenated text, which is what the tables store, what
`Display` prints and what `ORDER BY id` compares. A `jiff::Timestamp` is an instant in
nanoseconds since the Unix epoch together with its RFC 3339 text.
-/

namespace ControlPlane

/-- `HostClaimId`: the caller-generated identity of a claim. -/
structure HostClaimId where
  text : String
  deriving DecidableEq, Repr

/-- `HostId`: the identity the control plane gives to a Host. -/
structure HostId where
  text : String
  deriving DecidableEq, Repr

/-- `jiff::Timestamp`: an instant, in nanoseconds since the Unix epoch. -/
structure Timestamp where
  unixNanos : Int
  deriving DecidableEq, Repr

namespace Timestamp

/-- The `width` low decimal digits of `n`, padded with zeros. -/
def digits : Nat → Nat → List Char
  | 0, _ => []
  | width + 1, n => digits width (n / 10) ++ [Nat.digitChar (n % 10)]

/-- Year, month and day of the proleptic Gregorian calendar, from days since 1970-01-01. -/
def civilDate (days : Int) : Int × Nat × Nat :=
  let shifted := days + 719468
  let era := shifted.fdiv 146097
  let dayOfEra := (shifted.fmod 146097).toNat
  let yearOfEra := (dayOfEra - dayOfEra / 1460 + dayOfEra / 36524 - dayOfEra / 146096) / 365
  let dayOfYear := dayOfEra - (365 * yearOfEra + yearOfEra / 4 - yearOfEra / 100)
  let shiftedMonth := (5 * dayOfYear + 2) / 153
  let day := dayOfYear - (153 * shiftedMonth + 2) / 5 + 1
  let month := if shiftedMonth < 10 then shiftedMonth + 3 else shiftedMonth - 9
  (yearOfEra + era * 400 + (if month ≤ 2 then 1 else 0), month, day)

/-- A year: four digits, or a sign and six digits when it is negative. -/
def yearText (year : Int) : List Char :=
  if 0 ≤ year then digits 4 year.toNat else '-' :: digits 6 year.natAbs

/-- Date and time up to the second, `YYYY-MM-DDTHH:MM:SS`. -/
def dateTimeText (seconds : Int) : List Char :=
  let (year, month, day) := civilDate (seconds.fdiv 86400)
  let secondOfDay := (seconds.fmod 86400).toNat
  yearText year ++ '-' :: digits 2 month ++ '-' :: digits 2 day ++
    'T' :: digits 2 (secondOfDay / 3600) ++ ':' :: digits 2 (secondOfDay / 60 % 60) ++
    ':' :: digits 2 (secondOfDay % 60)

/-- The fraction of a second: nothing when it is zero, else a point and as many of the nine
    digits as are needed. -/
def fractionText (nanos : Nat) : List Char :=
  if nanos = 0 then [] else '.' :: ((digits 9 nanos).reverse.dropWhile (· = '0')).reverse

/-- `Display` of a timestamp: UTC, RFC 3339, ending in `Z`. -/
def text (t : Timestamp) : String :=
  String.ofList (dateTimeText (t.unixNanos.fdiv 1000000000) ++
    fractionText (t.unixNanos.fmod 1000000000).toNat ++ ['Z'])

example : (Timestamp.mk 1721862000500000000).text = "2024-07-24T23:00:00.5Z" := by decide

end Timestamp

/-- `HostResources`. -/
structure HostResources where
  vcpus : UInt32
  memoryBytes : UInt64
  storageBytes : UInt64
  deriving DecidableEq, Repr

/-- `HostClaimSpec`. -/
structure HostClaimSpec where
  resources : HostResources
  deriving DecidableEq, Repr

/-- `ConditionStatus`. -/
inductive ConditionStatus where
  | true
  | false
  | unknown
  deriving DecidableEq, Repr

/-- `Condition`. -/
structure Condition where
  conditionType : String
  status : ConditionStatus
  reason : String
  message : String
  observedGeneration : UInt64
  lastTransitionAt : Timestamp
  deriving DecidableEq, Repr

/-- `HostClaimStatus`. -/
structure HostClaimStatus where
  observedGeneration : UInt64
  hostId : Option HostId
  conditions : List Condition
  deriving DecidableEq, Repr

/-- `HostClaim`. -/
structure HostClaim where
  id : HostClaimId
  generation : UInt64
  createdAt : Timestamp
  deletionTimestamp : Option Timestamp
  spec : HostClaimSpec
  status : HostClaimStatus
  deriving DecidableEq, Repr

/-- `HostPhase`. -/
inductive HostPhase where
  | pending
  | provisioning
  | ready
  | deleting
  | failed
  deriving DecidableEq, Repr

/-- `HostStatus`. -/
structure HostStatus where
  phase : HostPhase
  providerResourceId : Option String
  observedAt : Option Timestamp
  conditions : List Condition
  deriving DecidableEq, Repr

/-- `Host`. -/
structure Host where
  id : HostId
  claimId : HostClaimId
  createdAt : Timestamp
  allocatableResources : HostResources
  status : HostStatus
  deriving DecidableEq, Repr

end ControlPlane
