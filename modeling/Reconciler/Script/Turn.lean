import Reconciler.Script.Action

/-
  This file defines scripted steps and hooks.  A script has
  a list of turns for each entry point: the n-th call takes
  the n-th turn, and the last turn repeats.

  Key definitions include:
    * `Turn`
    * `Script.play`
    * `ScriptedStep`
    * `ScriptedStep.toStep`
    * `ScriptedStep.toLegacyStep`
    * `Script.hook`
-/

------------------------------------------------------------
-- Turns
------------------------------------------------------------

namespace Reconciler

/- Actions, and what the call hands back after them. -/
structure Turn (ρ : Type) where
  actions : List Action := []
  result : ρ

namespace Script

variable {ρ : Type}

/- The turn of a call, the calls counted from zero. -/
def turn?
    (turns : List (Turn ρ))
    (n : Nat) : Option (Turn ρ) :=
  turns[min n (turns.length - 1)]?

/- Count a call of an entry point; the count before it. -/
def countCall
    (entry : String) : Call Memory Nat := do
  let s ← get
  let n := (Table.get? entry s.memory.counts).getD 0
  let counts := Table.put entry (n + 1) s.memory.counts
  set { s with memory := { s.memory with counts := counts } }
  return n

/- Note a call. -/
def logCall
    (entry : String) : Call Memory Unit :=
  modify (fun s =>
    { s with
      memory := { s.memory with
        calls := s.memory.calls ++ [entry] } })

/-
  Play the turn of a call; a script without turns does
  nothing and hands back the given result.
-/
def play
    (suspends : Bool)
    (entry : String)
    (turns : List (Turn ρ))
    (idle : ρ)
    (c : Context)
    (o : Object) : Call Memory (ρ × Object) := do
  let n ← countCall entry
  match turn? turns n with
  | none => return (idle, o)
  | some turn =>
      let o ← turn.actions.foldlM
        (fun o a => a.perform suspends c o) o
      return (turn.result, o)

end Script

------------------------------------------------------------
-- Scripted Steps
------------------------------------------------------------

/- A token: fixed, or the value of a label of the object. -/
inductive Token where
  | fixed (token : String)
  | label (name : String)
deriving DecidableEq, Repr

/- The token that is meant on an object. -/
def Token.value?
    (t : Token)
    (o : Object) : Option String :=
  match t with
  | .fixed token => some token
  | .label name => Table.get? name o.metadata.labels

/-
  A step that plays turns.  Without turns for finalizing it
  has the entry point that does nothing.
-/
structure ScriptedStep (ρ : Type) where
  name : String
  suspends : Bool := true
  tokens : List Token := []
  process : List (Turn ρ) := []
  finalize? : Option (List (Turn ρ)) := none

namespace ScriptedStep

variable {ρ : Type}

/- The tokens declared for an object. -/
def tokensFor
    (s : ScriptedStep ρ)
    (o : Object) : List String :=
  s.tokens.filterMap (fun t => t.value? o)

/- The step without tokens. -/
def withoutTokens
    (s : ScriptedStep ρ) : ScriptedStep ρ :=
  { s with tokens := [] }

/- A step of the same name that does nothing. -/
def bare
    (s : ScriptedStep ρ) : ScriptedStep ρ :=
  { name := s.name
    suspends := s.suspends
    finalize? := some [] }

/- Play an entry point of a step, and note the call. -/
def playEntry
    (s : ScriptedStep ρ)
    (entry : String)
    (turns : List (Turn ρ))
    (idle : ρ)
    (c : Context)
    (o : Object) : Call Memory (ρ × Object) := do
  let entry := s.name ++ "." ++ entry
  Script.logCall entry
  Script.play s.suspends entry turns idle c o

/- The step that plays a script. -/
def toStep
    (s : ScriptedStep StepResult) : Step Memory :=
  let step : Step Memory :=
    { name := s.name
      tokens := s.tokensFor
      process := s.playEntry "process" s.process .ok }
  match s.finalize? with
  | none => step
  | some turns =>
      { step with
        finalize := s.playEntry "finalize" turns .ok }

/- The legacy step that plays a script. -/
def toLegacyStep
    (s : ScriptedStep (Except OperatorError Duration)) :
    LegacyStep Memory :=
  let step : LegacyStep Memory :=
    { name := s.name
      tokens := s.tokensFor
      process :=
        s.playEntry "process" s.process (.ok .zero) }
  match s.finalize? with
  | none => step
  | some turns =>
      { step with
        finalize :=
          s.playEntry "finalize" turns (.ok .zero) }

end ScriptedStep

------------------------------------------------------------
-- Scripted Hooks
------------------------------------------------------------

/- What a hook answers: an error, or a richer context. -/
structure HookAnswer where
  error? : Option OperatorError := none
  tenant : Option String := none
  user : Option String := none
  headers : Table String String := []

/- The answer of a hook for a context. -/
def HookAnswer.give
    (a : HookAnswer)
    (c : Context) : Except OperatorError Context :=
  match a.error? with
  | some e => .error e
  | none =>
      .ok (a.headers.foldl
        (fun c h => c.withHeader h.1 h.2)
        { c with
          tenant := a.tenant.or c.tenant
          user := a.user.or c.user })

namespace Script

/- The entry under which calls of the hook are counted. -/
def hookEntry : String :=
  "prepare"

/- The hook that plays turns; it cannot change the object. -/
def hook
    (turns : List (Turn HookAnswer)) : Hook Memory :=
  fun c o => do
    let (answer, _) ← play true hookEntry turns {} c o
    return answer.give c

end Script

end Reconciler
