import ControlPlane.Protocol.Resources

/-!
# The provider boundary

The types of `provider/mod.rs` and the four methods of `HostProvider` as calls with answers. A
provider is a relation between calls, answers and its own state: `ProviderModel` fixes nothing
else, so a statement about every `ProviderModel` is about every implementation of the trait.
-/

namespace ControlPlane

/-- `Plan`. -/
structure Plan where
  id : String
  resources : HostResources
  deriving DecidableEq, Repr

/-- `ProviderLifecycle`. -/
inductive ProviderLifecycle where
  | provisioning
  | ready
  | deleting
  deriving DecidableEq, Repr

/-- `ProviderResource`. -/
structure ProviderResource where
  id : String
  hostId : HostId
  lifecycle : ProviderLifecycle
  deriving DecidableEq, Repr

/-- `ProviderObservation`. -/
inductive ProviderObservation where
  | absent
  | present (resource : ProviderResource)
  deriving DecidableEq, Repr

/-- `CreateOutcome`. -/
inductive CreateOutcome where
  | created (resource : ProviderResource)
  | outcomeUnknown
  deriving DecidableEq, Repr

/-- `DeleteOutcome`. -/
inductive DeleteOutcome where
  | deleted
  | outcomeUnknown
  deriving DecidableEq, Repr

/-- `ProviderError`. -/
inductive ProviderError where
  | definitive (message : String)
  | transient (message : String)
  deriving DecidableEq, Repr

/-- The methods of `HostProvider`. -/
inductive ProviderCall where
  | selectPlan (requirements : HostResources)
  | observe (hostId : HostId)
  | create (hostId : HostId) (planId : String)
  | delete (hostId : HostId)
  deriving DecidableEq, Repr

/-- What a method of `HostProvider` returns. -/
abbrev ProviderAnswer : ProviderCall → Type
  | .selectPlan _ => Except ProviderError (Option Plan)
  | .observe _ => Except ProviderError ProviderObservation
  | .create _ _ => Except ProviderError CreateOutcome
  | .delete _ => Except ProviderError DeleteOutcome

instance : (call : ProviderCall) → DecidableEq (ProviderAnswer call)
  | .selectPlan _ => inferInstanceAs (DecidableEq (Except ProviderError (Option Plan)))
  | .observe _ => inferInstanceAs (DecidableEq (Except ProviderError ProviderObservation))
  | .create _ _ => inferInstanceAs (DecidableEq (Except ProviderError CreateOutcome))
  | .delete _ => inferInstanceAs (DecidableEq (Except ProviderError DeleteOutcome))

/-- A provider over its own state `σ`. A call is one step of the whole system: the daemon's
    other tasks never reach the provider, so what they do meanwhile can be put before it. -/
structure ProviderModel (σ : Type) where
  /-- a call, answered -/
  answers : σ → (call : ProviderCall) → ProviderAnswer call → σ → Prop
  /-- a change that no call of the controller makes -/
  drift : σ → σ → Prop
  /-- a crash, possibly in the middle of a call, and the restart after it -/
  crash : σ → Option ProviderCall → σ → Prop

end ControlPlane
