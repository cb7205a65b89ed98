import Reconciler.Table
import Reconciler.Json.Decimal

/-
  This file defines JSON values.

  An object is a table of members.  Two objects with the
  same members in different orders denote the same value;
  the canonical one, with ordered keys at every level, is
  the one that readers and merge patches build.  Integers
  and reals are different values even where they denote
  the same number.  Two values agree if they are equal but
  for the signs of zeros.

  Key definitions include:
    * `Json`
    * `Json.Agree`
    * `Json.members?`
    * `Json.at?`
    * `Json.Canonical`
    * `Json.record`
-/

------------------------------------------------------------
-- Values
------------------------------------------------------------

namespace Reconciler

/- A JSON value. -/
inductive Json where
  | null
  | bool (b : Bool)
  | int (i : Int)
  | real (d : Decimal)
  | str (s : String)
  | arr (items : List Json)
  | obj (members : List (String × Json))
deriving Repr, Inhabited

namespace Json

------------------------------------------------------------
-- Decidable Equality
------------------------------------------------------------

mutual

/- Structural comparison of two values. -/
def same : Json → Json → Bool
  | .null, .null => true
  | .bool a, .bool b => a == b
  | .int a, .int b => a == b
  | .real a, .real b => a == b
  | .str a, .str b => a == b
  | .arr a, .arr b => sameItems a b
  | .obj a, .obj b => sameMembers a b
  | _, _ => false
termination_by structural a => a

/- Structural comparison of two lists of values. -/
def sameItems : List Json → List Json → Bool
  | [], [] => true
  | a :: as, b :: bs => same a b && sameItems as bs
  | _, _ => false
termination_by structural as => as

/- Structural comparison of two lists of members. -/
def sameMembers :
    List (String × Json) → List (String × Json) → Bool
  | [], [] => true
  | (k, a) :: as, (l, b) :: bs =>
      k == l && same a b && sameMembers as bs
  | _, _ => false
termination_by structural as => as

end

mutual

/- Structural comparison decides equality. -/
theorem same_iff :
    ∀ a b : Json, same a b = true ↔ a = b
  | .null, b => by cases b <;> simp [same]
  | .bool _, b => by cases b <;> simp [same]
  | .int _, b => by cases b <;> simp [same]
  | .real _, b => by cases b <;> simp [same]
  | .str _, b => by cases b <;> simp [same]
  | .arr as, b => by
      cases b <;> simp [same, sameItems_iff as]
  | .obj as, b => by
      cases b <;> simp [same, sameMembers_iff as]

theorem sameItems_iff :
    ∀ as bs : List Json,
      sameItems as bs = true ↔ as = bs
  | [], bs => by cases bs <;> simp [sameItems]
  | a :: as, bs => by
      cases bs <;>
        simp [sameItems, same_iff a, sameItems_iff as]

theorem sameMembers_iff :
    ∀ as bs : List (String × Json),
      sameMembers as bs = true ↔ as = bs
  | [], bs => by cases bs <;> simp [sameMembers]
  | (k, a) :: as, bs => by
      cases bs with
      | nil => simp [sameMembers]
      | cons e bs =>
          obtain ⟨l, b⟩ := e
          simp [sameMembers, same_iff a,
            sameMembers_iff as]

end

instance : DecidableEq Json :=
  fun a b =>
    if h : same a b = true then
      isTrue ((same_iff a b).1 h)
    else
      isFalse (fun hEq => h ((same_iff a b).2 hEq))

------------------------------------------------------------
-- Agreement
------------------------------------------------------------

mutual

/- A value with the signs of all its zeros dropped. -/
def signless : Json → Json
  | .real d => .real d.signless
  | .arr items => .arr (signlessItems items)
  | .obj members => .obj (signlessMembers members)
  | j => j
termination_by structural j => j

/- Items with the signs of all their zeros dropped. -/
def signlessItems : List Json → List Json
  | [] => []
  | item :: items => signless item :: signlessItems items
termination_by structural items => items

/- Members with the signs of all their zeros dropped. -/
def signlessMembers :
    List (String × Json) → List (String × Json)
  | [] => []
  | (k, v) :: rest => (k, signless v) :: signlessMembers rest
termination_by structural members => members

end

/-
  Two values agree if they are equal but for the signs of
  zeros: a real zero is one number, however it is written.
-/
def Agree
    (a b : Json) : Prop :=
  a.signless = b.signless

instance : DecidableRel Agree :=
  fun a b => inferInstanceAs
    (Decidable (a.signless = b.signless))

/- Every value agrees with itself. -/
theorem Agree.refl
    (a : Json) :
    Agree a a :=
  rfl

/- Agreement goes both ways. -/
theorem Agree.symm
    {a b : Json}
    (hAgree : Agree a b) :
    Agree b a :=
  Eq.symm hAgree

/- Agreement is passed on. -/
theorem Agree.trans
    {a b c : Json}
    (hAB : Agree a b)
    (hBC : Agree b c) :
    Agree a c :=
  Eq.trans hAB hBC

------------------------------------------------------------
-- Observations
------------------------------------------------------------

/- The members of an object. -/
def members? : Json → Option (Table String Json)
  | .obj members => some members
  | _ => none

/- The members of an object; other values have none. -/
def members
    (j : Json) : Table String Json :=
  j.members?.getD []

/- Whether a value is an object. -/
def isObject
    (j : Json) : Bool :=
  j.members?.isSome

/- Whether a value is null. -/
def isNull : Json → Bool
  | .null => true
  | _ => false

/-
  The value reached by a path of object keys.  Paths do not
  enter arrays.
-/
def at? : List String → Json → Option Json
  | [], j => some j
  | k :: path, j =>
      match Table.get? k j.members with
      | none => none
      | some child => at? path child

------------------------------------------------------------
-- Canonical Values
------------------------------------------------------------

mutual

/- Keys are in strictly increasing order at every level. -/
def Canonical : Json → Prop
  | .arr items => CanonicalItems items
  | .obj members =>
      Table.Ordered members ∧ CanonicalMembers members
  | _ => True
termination_by structural j => j

/- Every item is canonical. -/
def CanonicalItems : List Json → Prop
  | [] => True
  | item :: items => Canonical item ∧ CanonicalItems items
termination_by structural items => items

/- The value of every member is canonical. -/
def CanonicalMembers : List (String × Json) → Prop
  | [] => True
  | (_, v) :: rest => Canonical v ∧ CanonicalMembers rest
termination_by structural members => members

end

------------------------------------------------------------
-- Records
------------------------------------------------------------

/-
  The object of a list of fields; a field without a value is
  left out.
-/
def record
    (fields : List (String × Option Json)) : Json :=
  .obj (fields.filterMap
    (fun f => f.2.map (fun v => (f.1, v))))

/- An array of texts. -/
def texts
    (ss : List String) : Json :=
  .arr (ss.map .str)

/- An object of texts. -/
def textTable
    (t : Table String String) : Json :=
  .obj (t.map (fun e => (e.1, .str e.2)))

------------------------------------------------------------
-- Reading Fields
------------------------------------------------------------

/- A text. -/
def asText? : Json → Option String
  | .str s => some s
  | _ => none

/- An integer between two bounds, the upper one excluded. -/
def asIntIn?
    (low high : Int) : Json → Option Int
  | .int i => if low ≤ i ∧ i < high then some i else none
  | _ => none

/- A signed 64-bit integer. -/
def asInt64?
    (j : Json) : Option Int64 :=
  (j.asIntIn? (-0x8000000000000000) 0x8000000000000000).map Int64.ofInt

/- A list whose items all read as the given kind. -/
def asList?
    {α : Type}
    (item? : Json → Option α) : Json → Option (List α)
  | .arr items => items.mapM item?
  | _ => none

/- A table of texts. -/
def asTextTable? : Json → Option (Table String String)
  | .obj members =>
      members.mapM (fun e =>
        e.2.asText?.map (fun s => (e.1, s)))
  | _ => none

/- A member that must be present. -/
def required?
    {α : Type}
    (read? : Json → Option α)
    (k : String)
    (t : Table String Json) : Option α :=
  (Table.get? k t).bind read?

/- A member with a value for the case that it is missing. -/
def defaulted?
    {α : Type}
    (read? : Json → Option α)
    (missing : α)
    (k : String)
    (t : Table String Json) : Option α :=
  match Table.get? k t with
  | none => some missing
  | some v => read? v

/- A member that may be missing or null. -/
def optional?
    {α : Type}
    (read? : Json → Option α)
    (k : String)
    (t : Table String Json) : Option (Option α) :=
  match Table.get? k t with
  | none => some none
  | some .null => some none
  | some v => (read? v).map some

end Json

end Reconciler
