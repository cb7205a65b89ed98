import Reconciler.Object.Key

/-
  This file defines the context of a reconcile: who runs
  it, for which object and request, and what the prepare
  hook has found out about the tenant and the user.

  Key definitions include:
    * `Context`
    * `Context.withHeader`
    * `Context.header?`
-/

------------------------------------------------------------
-- Contexts
------------------------------------------------------------

namespace Reconciler

/- What a step is told besides the object. -/
structure Context where
  operator : String
  controller : String
  key : Key
  request : String := ""
  tenant : Option String := none
  user : Option String := none
  headers : Table String String := []
deriving DecidableEq, Repr

namespace Context

/- The same request for a tenant. -/
def withTenant
    (tenant : String)
    (c : Context) : Context :=
  { c with tenant := some tenant }

/- The same request for a user. -/
def withUser
    (user : String)
    (c : Context) : Context :=
  { c with user := some user }

/- Set a header. -/
def withHeader
    (name value : String)
    (c : Context) : Context :=
  { c with headers := Table.put name value c.headers }

/- The value of a header. -/
def header?
    (name : String)
    (c : Context) : Option String :=
  Table.get? name c.headers

end Context

end Reconciler
