import Mathlib.Data.List.Induction
import Mathlib.Data.List.Nodup
import Reconciler.Proofs.Condition.List

/-
  This file gives the history of a list of conditions.

  A list is edited by setting conditions and by removing
  types.  What is found under a type goes back to the last
  edit of that type, but for its transition time: that one
  goes back to the last edit by which the type came, went or
  changed its status.

  Key definitions include:
    * `Conditions.SetsFirst`
    * `Conditions.RemovesAll`
    * `Conditions.Edit`
    * `Conditions.LastSet`
    * `Conditions.LastMove`

  Key theorems include:
    * `Conditions.set_setsFirst`
    * `Conditions.remove_removesAll`
    * `Conditions.Edit.found_after`
    * `Conditions.found_lastSet`
    * `Conditions.found_lastMove`
    * `Conditions.edits_recorded`
-/

------------------------------------------------------------
-- Setting One Condition
------------------------------------------------------------

namespace Reconciler

namespace Conditions

variable {type : String}
variable {new c : Condition}
variable {cs : List Condition}

/-
  Setting a condition updates the first entry of its type in
  place, or appends it if there is none; the answer is
  whether the list has changed.
-/
structure SetsFirst
    (new : Condition)
    (cs : List Condition) : Prop where
  answer : setChanges new cs = true ↔ set new cs ≠ cs
  place :
    (new.type ∉ types cs ∧ set new cs = cs ++ [new]) ∨
      ∃ pre old post,
        cs = pre ++ old :: post ∧
          old.type = new.type ∧
          new.type ∉ types pre ∧
          set new cs = pre ++ old.update new :: post

/- Only an update that makes no difference keeps an entry. -/
theorem update_eq_iff
    (old new : Condition) :
    old.update new = old ↔ old.differs new = false := by
  constructor
  · intro hSame
    have hNone : (old.update new).differs new = false := by
      simp [Condition.differs, Condition.update]
    rwa [hSame] at hNone
  · exact update_of_same

/- Where an entry is set. -/
theorem set_place
    (new : Condition)
    (cs : List Condition) :
    (find? new.type cs = none ∧
      new.type ∉ types cs ∧
      set new cs = cs ++ [new]) ∨
    ∃ pre old post,
      find? new.type cs = some old ∧
        cs = pre ++ old :: post ∧
        old.type = new.type ∧
        new.type ∉ types pre ∧
        set new cs = pre ++ old.update new :: post := by
  induction cs with
  | nil => exact .inl ⟨rfl, by simp [types_nil], rfl⟩
  | cons c rest ih =>
      rw [find?_cons]
      by_cases hType : c.type = new.type
      · right
        refine ⟨[], c, rest, if_pos hType, rfl, hType,
          by simp [types_nil], ?_⟩
        rw [set, if_pos hType]
        rfl
      · have hNe : new.type ≠ c.type := Ne.symm hType
        rw [if_neg hType, set, if_neg hType]
        rcases ih with
          ⟨hNone, hAbsent, hSet⟩ |
          ⟨pre, old, post, hFound, hSplit, hOld, hFirst, hSet⟩
        · left
          rw [hSet]
          exact ⟨hNone, by simp [hNe, hAbsent], rfl⟩
        · right
          refine ⟨c :: pre, old, post, hFound, ?_, hOld,
            by simp [hNe, hFirst], ?_⟩
          · rw [hSplit]
            rfl
          · rw [hSet]
            rfl

theorem set_setsFirst
    (new : Condition)
    (cs : List Condition) :
    SetsFirst new cs := by
  rcases set_place new cs with
    ⟨hNone, hAbsent, hSet⟩ |
    ⟨pre, old, post, hFound, hSplit, hOld, hFirst, hSet⟩
  · refine ⟨?_, .inl ⟨hAbsent, hSet⟩⟩
    simp [setChanges, hNone, hSet]
  · refine ⟨?_, .inr
      ⟨pre, old, post, hSplit, hOld, hFirst, hSet⟩⟩
    have hSame : set new cs = cs ↔ old.update new = old := by
      rw [hSet, hSplit]
      simp
    rw [ne_eq, hSame, update_eq_iff]
    simp [setChanges, hFound]

------------------------------------------------------------
-- Removing One Type
------------------------------------------------------------

/-
  Removing a type drops its entries and keeps the others in
  order; the answer is whether there was one.
-/
structure RemovesAll
    (type : String)
    (cs : List Condition) : Prop where
  answer : removeChanges type cs = true ↔ type ∈ types cs
  gone : type ∉ types (remove type cs)
  others :
    (remove type cs).filter (fun c => c.type != type) =
      cs.filter (fun c => c.type != type)

theorem find?_remove
    (type type' : String)
    (cs : List Condition) :
    find? type (remove type' cs) =
      if type = type' then none else find? type cs := by
  unfold remove
  induction cs with
  | nil => simp [find?]
  | cons c rest ih =>
      rw [find?_cons]
      by_cases hRemoved : c.type = type'
      · rw [List.filter_cons_of_neg (by simp [hRemoved]), ih]
        by_cases hType : type = type'
        · rw [if_pos hType, if_pos hType]
        · have hNe : c.type ≠ type := by
            rw [hRemoved]
            exact Ne.symm hType
          rw [if_neg hType, if_neg hType, if_neg hNe]
      · rw [List.filter_cons_of_pos (by simp [hRemoved]),
          find?_cons, ih]
        by_cases hType : c.type = type
        · have hNe : type ≠ type' := hType ▸ hRemoved
          rw [if_pos hType, if_neg hNe, if_pos hType]
        · rw [if_neg hType, if_neg hType]

theorem remove_removesAll
    (type : String)
    (cs : List Condition) :
    RemovesAll type cs where
  answer := by
    have hKept :
        (remove type cs).length = cs.length ↔
          type ∉ types cs := by
      unfold remove types
      rw [List.length_filter_eq_length_iff]
      simp
    unfold removeChanges
    rw [bne_iff_ne, ne_eq, hKept, not_not]
  gone := by
    rw [← find?_isSome_iff, find?_remove, if_pos rfl]
    simp
  others := by
    unfold remove
    rw [List.filter_filter]
    simp

------------------------------------------------------------
-- Edits
------------------------------------------------------------

/- A change of a list of conditions. -/
inductive Edit where
  | set (new : Condition)
  | remove (type : String)

namespace Edit

/- The type that an edit is about. -/
def about : Edit → String
  | .set new => new.type
  | .remove type => type

/- The list after an edit. -/
def after
    (cs : List Condition) : Edit → List Condition
  | .set new => Conditions.set new cs
  | .remove type => Conditions.remove type cs

/- The list after any number of edits. -/
def run
    (cs : List Condition)
    (edits : List Edit) : List Condition :=
  edits.foldl after cs

theorem run_append
    (cs : List Condition)
    (edits edits' : List Edit) :
    run cs (edits ++ edits') = run (run cs edits) edits' :=
  List.foldl_append

/- An edit keeps types distinct. -/
theorem after_nodup
    (edit : Edit)
    (hDistinct : (types cs).Nodup) :
    (types (edit.after cs)).Nodup := by
  cases edit with
  | set new =>
      unfold after
      rw [types_set]
      exact addType_nodup hDistinct
  | remove type =>
      exact hDistinct.sublist (List.filter_sublist.map _)

theorem run_nodup
    (hDistinct : (types cs).Nodup)
    (edits : List Edit) :
    (types (run cs edits)).Nodup := by
  induction edits generalizing cs with
  | nil => exact hDistinct
  | cons edit rest ih => exact ih (edit.after_nodup hDistinct)

/- An edit of another type is not seen under a type. -/
theorem find?_after_other
    {edit : Edit}
    (hOther : edit.about ≠ type) :
    find? type (edit.after cs) = find? type cs := by
  cases edit with
  | set new =>
      exact (find?_set new type cs).trans
        (if_neg (Ne.symm hOther))
  | remove type' =>
      exact (find?_remove type type' cs).trans
        (if_neg (Ne.symm hOther))

theorem find?_run_other
    {edits : List Edit}
    (hOther : ∀ edit ∈ edits, edit.about ≠ type) :
    find? type (run cs edits) = find? type cs := by
  induction edits generalizing cs with
  | nil => rfl
  | cons edit rest ih =>
      have hFirst := hOther edit List.mem_cons_self
      have hRest : ∀ e ∈ rest, e.about ≠ type :=
        fun e hMember =>
          hOther e (List.mem_cons_of_mem edit hMember)
      exact (ih hRest).trans (find?_after_other hFirst)

------------------------------------------------------------
-- Moves of a Type
------------------------------------------------------------

/- The status that is found under a type, if there is one. -/
def statusOf
    (type : String)
    (cs : List Condition) : Option ConditionStatus :=
  (find? type cs).map (·.status)

/-
  An edit moves a type: by it an entry of the type comes,
  goes or changes its status.
-/
def Moves
    (type : String)
    (cs : List Condition)
    (edit : Edit) : Prop :=
  statusOf type (edit.after cs) ≠ statusOf type cs

/- None of the edits of a list moves a type. -/
def Still
    (type : String) :
    List Condition → List Edit → Prop
  | _, [] => True
  | cs, edit :: rest =>
      ¬ edit.Moves type cs ∧ Still type (edit.after cs) rest

/- One more edit that does not move the type. -/
theorem Still.snoc
    {edits : List Edit}
    {edit : Edit}
    (hStill : Still type cs edits)
    (hKept : ¬ edit.Moves type (run cs edits)) :
    Still type cs (edits ++ [edit]) := by
  induction edits generalizing cs with
  | nil => exact ⟨hKept, trivial⟩
  | cons first rest ih => exact ⟨hStill.1, ih hStill.2 hKept⟩

/-
  An entry that is set takes over the new transition time if
  its type is moved, and otherwise keeps its own.
-/
theorem found_set
    (hFound : find? new.type (Conditions.set new cs) = some c) :
    ((Edit.set new).Moves new.type cs ∧
      c.lastTransition = new.lastTransition) ∨
    (¬ (Edit.set new).Moves new.type cs ∧
      ∃ old,
        find? new.type cs = some old ∧
          c.lastTransition = old.lastTransition) := by
  have hMoves :
      (Edit.set new).Moves new.type cs ↔
        some c.status ≠ statusOf new.type cs := by
    unfold Moves statusOf after
    rw [hFound, Option.map_some]
  rw [hMoves]
  unfold statusOf
  rw [find?_set, if_pos rfl] at hFound
  cases hBefore : find? new.type cs with
  | none =>
      left
      rw [hBefore] at hFound
      have hNew : new = c := Option.some.inj hFound
      exact ⟨by simp, by rw [hNew]⟩
  | some old =>
      rw [hBefore] at hFound
      have hUpdate : old.update new = c :=
        Option.some.inj hFound
      by_cases hStatus : old.status = new.status
      · right
        refine ⟨?_, old, rfl, ?_⟩ <;>
          simp [← hUpdate, Condition.update, hStatus]
      · left
        simp [← hUpdate, Condition.update, hStatus,
          Ne.symm hStatus]

/-
  The transition time of an entry after an edit: that of the
  condition which was set, if the edit has moved the type,
  and otherwise that of the entry before.
-/
theorem found_after
    {edit : Edit}
    (hFound : find? type (edit.after cs) = some c) :
    (∃ new,
      edit = .set new ∧
        new.type = type ∧
        edit.Moves type cs ∧
        c.lastTransition = new.lastTransition) ∨
    (¬ edit.Moves type cs ∧
      ∃ old,
        find? type cs = some old ∧
          c.lastTransition = old.lastTransition) := by
  by_cases hAbout : edit.about = type
  · subst hAbout
    cases edit with
    | remove type =>
        have hGone := find?_remove type type cs
        rw [if_pos rfl] at hGone
        cases hFound.symm.trans hGone
    | set new =>
        rcases found_set hFound with ⟨hMoves, hTime⟩ | hKept
        · exact .inl ⟨new, rfl, rfl, hMoves, hTime⟩
        · exact .inr hKept
  · right
    have hSame :
        find? type (edit.after cs) = find? type cs :=
      find?_after_other hAbout
    refine ⟨?_, c, ?_, rfl⟩
    · simp [Moves, statusOf, hSame]
    · rw [← hSame]
      exact hFound

end Edit

------------------------------------------------------------
-- Last Edits
------------------------------------------------------------

open Edit (run Still)

/- The last edit of the type of a condition sets it. -/
def LastSet
    (new : Condition)
    (edits : List Edit) : Prop :=
  ∃ pre post,
    edits = pre ++ .set new :: post ∧
      ∀ edit ∈ post, edit.about ≠ new.type

/- The last edit that moves the type of a condition sets it. -/
def LastMove
    (new : Condition)
    (cs : List Condition)
    (edits : List Edit) : Prop :=
  ∃ pre post,
    edits = pre ++ .set new :: post ∧
      (Edit.set new).Moves new.type (run cs pre) ∧
      Still new.type ((Edit.set new).after (run cs pre)) post

/- One more edit that does not move the type. -/
theorem LastMove.snoc
    {edits : List Edit}
    {edit : Edit}
    (hLast : LastMove new cs edits)
    (hKept : ¬ edit.Moves new.type (run cs edits)) :
    LastMove new cs (edits ++ [edit]) := by
  rcases hLast with ⟨pre, post, hSplit, hMoves, hStill⟩
  refine ⟨pre, post ++ [edit], by simp [hSplit], hMoves, ?_⟩
  apply hStill.snoc
  rw [hSplit, Edit.run_append] at hKept
  exact hKept

/-
  What is found under a type says what the last edit of the
  type has set.
-/
theorem found_lastSet
    {edits : List Edit}
    (hLast : LastSet new edits)
    (hFound : find? new.type (run cs edits) = some c) :
    c.status = new.status ∧
      c.reason = new.reason ∧
      c.message = new.message ∧
      c.observedGeneration = new.observedGeneration := by
  rcases hLast with ⟨pre, post, hSplit, hOther⟩
  have hRun :
      run cs edits =
        run (Conditions.set new (run cs pre)) post := by
    rw [hSplit, Edit.run_append]
    rfl
  rw [hRun, Edit.find?_run_other hOther, find?_set,
    if_pos rfl] at hFound
  rw [← Option.some.inj hFound]
  cases find? new.type (run cs pre) with
  | none => exact ⟨rfl, rfl, rfl, rfl⟩
  | some old => exact ⟨rfl, rfl, rfl, rfl⟩

/-
  Its transition time is that of the last edit that has moved
  the type, or of the entry that was there in the beginning
  if there is no such edit.
-/
theorem found_lastMove
    {edits : List Edit}
    (hFound : find? type (run cs edits) = some c) :
    (∃ new,
      new.type = type ∧
        LastMove new cs edits ∧
        c.lastTransition = new.lastTransition) ∨
    (Still type cs edits ∧
      ∃ old,
        find? type cs = some old ∧
          c.lastTransition = old.lastTransition) := by
  induction edits using List.reverseRecOn generalizing c with
  | nil => exact .inr ⟨trivial, c, hFound, rfl⟩
  | append_singleton edits edit ih =>
      rw [Edit.run_append] at hFound
      rcases Edit.found_after hFound with
        ⟨new, hSet, hType, hMoves, hTime⟩ |
        ⟨hKept, old, hOld, hTime⟩
      · left
        rw [hSet, ← hType] at hMoves
        rw [hSet]
        exact ⟨new, hType, ⟨edits, [], rfl, hMoves, trivial⟩,
          hTime⟩
      · rw [hTime]
        rcases ih hOld with
          ⟨new, hType, hLast, hSame⟩ | ⟨hStill, hFirst⟩
        · rw [← hType] at hKept
          exact .inl ⟨new, hType, hLast.snoc hKept, hSame⟩
        · exact .inr ⟨hStill.snoc hKept, hFirst⟩

/-
  Setting updates or appends one entry, and removing drops
  those of one type; each answers whether there was something
  to do.  Any number of edits keeps distinct types distinct.
  An entry whose type was set by the last edit about it says
  what was set then, and its transition time was set by the
  last edit by which its type came or changed its status; if
  there is none, it is the time of the entry that was there in
  the beginning.
-/
theorem edits_recorded
    (cs : List Condition)
    (edits : List Edit) :
    (∀ new, SetsFirst new cs) ∧
      (∀ type, RemovesAll type cs) ∧
      ((types cs).Nodup →
        (types (run cs edits)).Nodup ∧
          ∀ c ∈ run cs edits, ∀ new,
            new.type = c.type → LastSet new edits →
              (c.status = new.status ∧
                c.reason = new.reason ∧
                c.message = new.message ∧
                c.observedGeneration =
                  new.observedGeneration) ∧
              ((∃ moved,
                moved.type = c.type ∧
                  LastMove moved cs edits ∧
                  c.lastTransition =
                    moved.lastTransition) ∨
              (Still c.type cs edits ∧
                ∃ old ∈ cs,
                  old.type = c.type ∧
                    c.lastTransition =
                      old.lastTransition))) := by
  refine ⟨fun new => set_setsFirst new cs,
    fun type => remove_removesAll type cs, ?_⟩
  intro hDistinct
  have hKept := Edit.run_nodup hDistinct edits
  refine ⟨hKept, ?_⟩
  intro c hMember new hType hLast
  have hFound := (mem_iff_find? hKept).mp hMember
  constructor
  · rw [← hType] at hFound
    exact found_lastSet hLast hFound
  · rcases found_lastMove hFound with
      hMoved | ⟨hStill, old, hOld, hTime⟩
    · exact .inl hMoved
    · have hEntry : old ∈ cs := List.mem_of_find?_eq_some hOld
      have hSame := List.find?_some hOld
      exact .inr
        ⟨hStill, old, hEntry, beq_iff_eq.mp hSame, hTime⟩

/- The first minute of 1970 is over. -/
def minuteLater : Instant :=
  (Instant.ofParts? 60 0).getD .epoch

/- A step is ready. -/
def stepReady : Condition :=
  ⟨"x_Ready", .yes, "Complete", "done", .epoch, 1⟩

/- Then it is not, and then it is not for another reason. -/
def stepBroken : Condition :=
  ⟨"x_Ready", .no, "Error", "boom", .epoch, 1⟩

def stepStuck : Condition :=
  ⟨"x_Ready", .no, "Error", "stuck", minuteLater, 2⟩

/- The condition of the step is taken back in between. -/
def relapse : List Edit :=
  [.set stepReady, .remove "x_Ready", .set stepBroken,
    .set ⟨"Ready", .no, "Complete", "no", .epoch, 1⟩,
    .set stepStuck]

theorem relapse_recorded :
    (types []).Nodup ∧
      { stepStuck with lastTransition := .epoch } ∈
        run [] relapse ∧
      LastSet stepStuck relapse ∧
      ∃ moved,
        moved.type = "x_Ready" ∧
          LastMove moved [] relapse ∧
          Instant.epoch = moved.lastTransition := by
  have hDistinct : (types []).Nodup := List.nodup_nil
  have hMember :
      { stepStuck with lastTransition := .epoch } ∈
        run [] relapse := by
    decide
  have hLast : LastSet stepStuck relapse := by
    refine ⟨relapse.take 4, [], rfl, ?_⟩
    intro edit hEdit
    cases hEdit
  rcases (edits_recorded [] relapse).2.2 hDistinct with
    ⟨_, hEntries⟩
  rcases (hEntries _ hMember stepStuck rfl hLast).2 with
    hMoved | ⟨_, old, hOld, _⟩
  · exact ⟨hDistinct, hMember, hLast, hMoved⟩
  · cases hOld

end Conditions

end Reconciler
