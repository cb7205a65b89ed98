import Reconciler.Json.Basic

/-
  This file defines JSON merge patches (RFC 7386).

  A patch is itself a JSON value: an object lists the
  members to change, null removes a member, and any other
  value replaces what was there.

  Key definitions include:
    * `MergePatch.between`
    * `MergePatch.apply`
    * `MergePatch.isEmpty`
-/

------------------------------------------------------------
-- Merge Patches
------------------------------------------------------------

namespace Reconciler

namespace MergePatch

------------------------------------------------------------
-- Comparing Two Values
------------------------------------------------------------

/- Members that only the modified object has. -/
def additions
    (base modified : Table String Json) :
    Table String Json :=
  modified.filter (fun e => !Table.has e.1 base)

/- Store a list of members one after another. -/
def putAll
    (entries t : Table String Json) : Table String Json :=
  entries.foldl (fun t e => Table.put e.1 e.2 t) t

mutual

/-
  The patch that turns the base into the modified value:
  a removed member becomes null, a member that is an object
  on both sides is compared recursively, and any other
  change replaces the value.  Members that agree need no
  change.
-/
def between : Json → Json → Json
  | .obj base, modified =>
      match modified with
      | .obj members =>
          .obj (putAll (additions base members)
            (changes base members))
      | other => other
  | _, modified => modified
termination_by structural base => base

/- Patch members for the members of the base object. -/
def changes :
    List (String × Json) →
    List (String × Json) →
    List (String × Json)
  | [], _ => []
  | (k, before) :: rest, modified =>
      match Table.get? k modified with
      | none =>
          Table.put k .null (changes rest modified)
      | some after =>
          if Json.Agree after before then
            changes rest modified
          else if before.isObject && after.isObject then
            Table.put k (between before after)
              (changes rest modified)
          else
            Table.put k after (changes rest modified)
termination_by structural base => base

end

------------------------------------------------------------
-- Applying a Patch
------------------------------------------------------------

mutual

/-
  Apply a patch to a target.  A patch that is no object
  replaces the target; an object patch works on the members
  of the target, and a target that is no object has none.
-/
def apply : Json → Json → Json
  | .obj patch, target =>
      .obj (applyMembers patch target.members)
  | replacement, _ => replacement
termination_by structural patch => patch

/- Apply the members of an object patch one by one. -/
def applyMembers :
    List (String × Json) →
    List (String × Json) →
    List (String × Json)
  | [], target => target
  | (k, change) :: rest, target =>
      applyMembers rest
        (match change with
        | .null => Table.erase k target
        | value =>
            Table.put k
              (apply value
                ((Table.get? k target).getD .null))
              target)
termination_by structural patch => patch

end

/- Whether a patch is an object without members. -/
def isEmpty
    (patch : Json) : Bool :=
  match patch with
  | .obj [] => true
  | _ => false

end MergePatch

end Reconciler
