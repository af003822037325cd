import Baldur.Lib.Pool
import Baldur.Lib.Table

/-!
Abandoned work (`core/abandoned_work.py`). A scope holds the futures its call stopped waiting for; scopes
are chained through a context variable, and each locked operation is one step.
-/

namespace Baldur.Work

structure WorkSummary where
  ownFinished : Bool := false
  ownFailed : Bool := false
  deriving DecidableEq

abbrev Origin := Option Nat

structure WorkScope where
  origin : Origin
  parent : Option Nat
  running : Table Nat (Nat × Origin) Prod.fst := Table.empty
  ownFinished : Bool := false
  ownFailed : Bool := false
  closed : Bool := false
  isSealed : Bool := false
  /-- Whether a callback was handed over and is still kept. -/
  onSettled : Bool := false

namespace WorkScope

variable (scope : WorkScope)

def isOwn (origin : Origin) : Bool :=
  scope.origin.isSome && origin = scope.origin

def summary : WorkSummary :=
  ⟨scope.ownFinished, scope.ownFailed⟩

def add (future : Nat) (origin : Origin) : WorkScope × Bool :=
  if scope.isSealed then (scope, false)
  else ({ scope with running := scope.running.put (future, origin) }, true)

def note (origin : Origin) (failed : Bool) : WorkScope :=
  if scope.isOwn origin then
    { scope with ownFinished := true, ownFailed := scope.ownFailed || failed }
  else
    scope

/-- The summary for the callback, when the scope settles here and kept one. -/
def settleIfEmpty : WorkScope × Option WorkSummary :=
  if scope.closed && scope.running.entries.isEmpty && !scope.isSealed then
    ({ scope with isSealed := true, onSettled := false }, if scope.onSettled then some scope.summary else none)
  else
    (scope, none)

def fold (future : Nat) (failed : Bool) : WorkScope × Option WorkSummary :=
  match scope.running.find future with
  | none => (scope, none)
  | some entry => ({ scope with running := scope.running.erase future }.note entry.2 failed).settleIfEmpty

def close (callback : Bool) : WorkScope × Option WorkSummary :=
  if scope.isSealed then ({ scope with closed := true }, none)
  else if scope.running.entries.isEmpty then
    ({ scope with closed := true, isSealed := true }, some scope.summary)
  else
    ({ scope with closed := true, onSettled := callback }, none)

end WorkScope

structure WorkWorld where
  scopes : List WorkScope := []
  current : Nat → Option Nat := fun _ => none
  ended : Nat → Option Bool := fun _ => none
  callbacks : Nat → List (List Nat) := fun _ => []

namespace WorkWorld

def chainFrom (scopes : List WorkScope) : Nat → Option Nat → List Nat
  | 0, _ => []
  | _ + 1, none => []
  | fuel + 1, some scope => match scopes[scope]? with
      | none => []
      | some here => scope :: chainFrom scopes fuel here.parent

def chain (world : WorkWorld) (context : Nat) : List Nat :=
  chainFrom world.scopes world.scopes.length (world.current context)

def onScope {α : Type} (world : WorkWorld) (scope : Nat) (missing : α) (body : WorkScope → WorkScope × α) :
    WorkWorld × α :=
  match world.scopes[scope]? with
  | none => (world, missing)
  | some here => ({ world with scopes := world.scopes.set scope (body here).1 }, (body here).2)

end WorkWorld

inductive WorkCall
  | chain (context : Nat)
  | newScope (origin : Origin) (parent : Option Nat)
  | setCurrent (context : Nat) (scope : Option Nat)
  | add (scope future : Nat) (origin : Origin)
  /-- Whether the future had already ended, so that the callback runs at once. -/
  | addDoneCallback (future : Nat) (holders : List Nat)
  | finish (future : Nat) (failed : Bool)
  | fold (scope future : Nat)
  | settle (scope : Nat) (summary : WorkSummary)
  | close (scope : Nat) (callback : Bool)
  deriving DecidableEq

@[reducible] def WorkCall.Answer : WorkCall → Type
  | .chain _ => List Nat
  | .newScope .. => Nat
  | .setCurrent .. => Unit
  | .add .. => Bool
  | .addDoneCallback .. => Bool
  | .finish .. => List (List Nat)
  | .fold .. => Option WorkSummary
  | .settle .. => Unit
  | .close .. => Option WorkSummary

namespace WorkWorld

def exec : (call : WorkCall) → WorkWorld → WorkWorld × call.Answer
  | .chain context, world => (world, world.chain context)
  | .newScope origin parent, world =>
      ({ world with scopes := world.scopes ++ [{ origin, parent }] }, world.scopes.length)
  | .setCurrent context scope, world =>
      ({ world with current := Function.update world.current context scope }, ())
  | .add scope future origin, world => world.onScope scope false fun here => here.add future origin
  | .addDoneCallback future holders, world =>
      if (world.ended future).isSome then (world, true)
      else ({ world with
        callbacks := Function.update world.callbacks future (world.callbacks future ++ [holders]) }, false)
  | .finish future failed, world =>
      -- A future ends once; its callbacks are taken with its end.
      if (world.ended future).isSome then (world, [])
      else ({ world with
        ended := Function.update world.ended future (some failed)
        callbacks := Function.update world.callbacks future [] }, world.callbacks future)
  | .fold scope future, world =>
      world.onScope scope none fun here => here.fold future ((world.ended future).getD false)
  | .settle _ _, world => (world, ())
  | .close scope callback, world => world.onScope scope none fun here => here.close callback

end WorkWorld

abbrev WorkProg := Prog WorkCall WorkCall.Answer

def workCommand (call : WorkCall) : WorkProg call.Answer :=
  Prog.perform call

def openWorkScope (context : Nat) (origin : Origin) : WorkProg Nat := do
  let chain : List Nat ← workCommand (.chain context)
  let scope : Nat ← workCommand (.newScope origin chain.head?)
  let _ : Unit ← workCommand (.setCurrent context (some scope))
  return scope

/-- `holder._fold(done)`; the callback runs outside the lock. -/
def foldHolder (future holder : Nat) : WorkProg Unit := do
  let settled : Option WorkSummary ← workCommand (.fold holder future)
  match settled with
  | some summary => workCommand (.settle holder summary)
  | none => return ()

def onDone (future : Nat) (holders : List Nat) : WorkProg Unit :=
  holders.foldlM (fun _ holder => foldHolder future holder) ()

def addToChain (future : Nat) (origin : Origin) (chain : List Nat) : WorkProg (List Nat) :=
  chain.foldlM (fun (holders : List Nat) (scope : Nat) => do
      let added : Bool ← workCommand (.add scope future origin)
      return if added then holders ++ [scope] else holders)
    []

def recordAbandoned (context future : Nat) (origin : Origin) : WorkProg Unit := do
  let chain : List Nat ← workCommand (.chain context)
  let holders ← addToChain future origin chain
  if holders.isEmpty then
    return ()
  else
    let endedAlready : Bool ← workCommand (.addDoneCallback future holders)
    if endedAlready then onDone future holders else return ()

/-- A future ends: `set_result`, `set_exception` or a cancel, and its callbacks. -/
def endFuture (future : Nat) (failed : Bool) : WorkProg Unit := do
  let callbacks : List (List Nat) ← workCommand (.finish future failed)
  callbacks.foldlM (fun _ holders => onDone future holders) ()

def closeNested (scope : Nat) (chain : List Nat) : WorkProg Unit :=
  if scope ∈ chain then
    (chain.takeWhile fun nested => nested ≠ scope).foldlM (fun _ nested => do
        let _ : Option WorkSummary ← workCommand (.close nested false)
        return ())
      ()
  else
    return ()

/-- `token` is what the reset restores; nothing when there is no token or the reset fails. -/
def closeWorkScope (context scope : Nat) (token : Option (Option Nat)) (callback : Bool) :
    WorkProg (Option WorkSummary) := do
  let chain : List Nat ← workCommand (.chain context)
  closeNested scope chain
  match token with
  | some restored => let _ : Unit ← workCommand (.setCurrent context restored)
  | none => pure ()
  workCommand (.close scope callback)

inductive WorkProgram : WorkProg (Option WorkSummary) → Prop
  | opens (context : Nat) (origin : Origin) :
      WorkProgram (openWorkScope context origin >>= fun _ => .ret none)
  | records (context future : Nat) (origin : Origin) :
      WorkProgram (recordAbandoned context future origin >>= fun _ => .ret none)
  | ends (future : Nat) (failed : Bool) : WorkProgram (endFuture future failed >>= fun _ => .ret none)
  | closes (context scope : Nat) (token : Option (Option Nat)) (callback : Bool) :
      WorkProgram (closeWorkScope context scope token callback)

structure ContextCopy where
  source : Nat
  target : Nat

abbrev WorkConfig := Pool.Config WorkCall WorkCall.Answer WorkWorld (Option WorkSummary)

abbrev WorkAction := Pool.Action WorkCall WorkCall.Answer ContextCopy (Option WorkSummary)

abbrev WorkEvent := Pool.Event WorkCall WorkCall.Answer

def workMachine : Pool.Machine WorkCall WorkCall.Answer WorkWorld ContextCopy (Option WorkSummary) where
  exec := WorkWorld.exec
  disturb copy world :=
    { world with current := Function.update world.current copy.target (world.current copy.source) }
  fork _ _ := []

end Baldur.Work
