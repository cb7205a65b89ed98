import Reconciler.Text.Quoted

/-
  This file defines the errors of a configuration.

  Key definitions include:
    * `ConfigError`
    * `ConfigError.message`
-/

------------------------------------------------------------
-- Configuration Errors
------------------------------------------------------------

namespace Reconciler

/- Why a configuration is refused. -/
inductive ConfigError where
  | emptyOperatorName
  | duplicateStep (name : String)
  | invalidStepName (name : String)
  | rateLimiter (detail : String)
  | spread (detail : String)
deriving DecidableEq, Repr

namespace ConfigError

/- The text of a configuration error. -/
def message : ConfigError → String
  | .emptyOperatorName => "operator name cannot be empty"
  | .duplicateStep name =>
      "duplicate subroutine name: " ++ name
  | .invalidStepName name =>
      "invalid subroutine name " ++ Text.quoted name
  | .rateLimiter detail =>
      "invalid rate limiter configuration: " ++ detail
  | .spread detail =>
      "invalid spread configuration: " ++ detail

end ConfigError

end Reconciler
