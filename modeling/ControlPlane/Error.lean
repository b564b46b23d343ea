import ControlPlane.Protocol.Resources

/-!
# Application errors

`AppError` of `error.rs`. The `anyhow` error inside `Internal` is carried as its text.
-/

namespace ControlPlane

/-- `AppError`. -/
inductive AppError where
  | invalidArgument (message : String)
  | notFound (resourceType resourceId : String)
  | conflict (resourceType resourceId message : String)
  | internal (message : String)
  deriving DecidableEq, Repr

/-- `internal`: `map_err(internal)` on a fallible step. -/
def internal {α : Type} : Except String α → Except AppError α
  | .ok value => .ok value
  | .error message => .error (.internal message)

@[simp] theorem internal_ok {α : Type} (value : α) : internal (.ok value) = .ok value := rfl

@[simp] theorem internal_error {α : Type} (message : String) :
    internal (.error message : Except String α) = .error (.internal message) := rfl

end ControlPlane
