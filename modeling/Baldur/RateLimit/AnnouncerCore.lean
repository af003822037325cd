import Baldur.Lib.Table
import Baldur.RateLimit.CooldownWait
import Mathlib.Data.List.Sort
import Mathlib.Data.String.Basic

/-!
The cooldown-end announcer: one record per key, the expiry last learned. A pass takes the due records, reads
the store for each, and removes the record to announce it when the cooldown is over. An action is one locked
section, store access or clock reading.
-/

namespace Baldur.RateLimit

structure Record where
  key : String
  expiry : ℚ
  deriving DecidableEq

def Record.le (first second : Record) : Prop :=
  first.expiry < second.expiry ∨ first.expiry = second.expiry ∧ first.key ≤ second.key

instance : DecidableRel Record.le :=
  fun first second => inferInstanceAs
    (Decidable (first.expiry < second.expiry ∨ first.expiry = second.expiry ∧ first.key ≤ second.key))

structure Announcer where
  records : Table String Record Record.key
  inFlight : String → Nat
  heldUntil : Option ℚ
  holdDelay : Option ℚ
  scanOffset : Nat
  stopped : Bool

namespace Announcer

def fresh : Announcer :=
  { records := .empty
    inFlight := fun _ => 0
    heldUntil := none
    holdDelay := none
    scanOffset := 0
    stopped := false }

def setInFlight (announcer : Announcer) (key : String) (count : Nat) : Announcer :=
  { announcer with inFlight := fun other => if other = key then count else announcer.inFlight other }

def begin (announcer : Announcer) (key : String) : Announcer :=
  announcer.setInFlight key (announcer.inFlight key + 1)

def track (announcer : Announcer) (key : String) (cooldownUntil : Option ℚ) : Announcer :=
  let released := announcer.setInFlight key (announcer.inFlight key - 1)
  match cooldownUntil with
  | none => released
  | some expiry =>
      if released.stopped then released
      else { released with records := released.records.put ⟨key, expiry⟩ }

def reverify (announcer : Announcer) (key : String) (clock : ℚ) : Announcer :=
  match announcer.records.find key with
  | none => announcer
  | some record =>
      { announcer with records := announcer.records.put ⟨key, min record.expiry clock⟩ }

def held (announcer : Announcer) (now : ℚ) : Bool :=
  match announcer.heldUntil with
  | none => false
  | some deadline => decide (now < deadline)

def dueRecords (announcer : Announcer) (now : ℚ) : List Record × Announcer :=
  if announcer.stopped then ([], announcer)
  else if announcer.held now then ([], announcer)
  else
    let due := (announcer.records.entries.filter fun record =>
      decide (record.expiry ≤ now) && decide (announcer.inFlight record.key = 0)).insertionSort Record.le
    if due = [] then ([], announcer)
    else
      let offset := announcer.scanOffset % due.length
      (due.drop offset ++ due.take offset, { announcer with scanOffset := offset + 1 })

def learn (announcer : Announcer) (key : String) (storedUntil : ℚ) : Announcer :=
  match announcer.records.find key with
  | none => announcer
  | some record =>
      { announcer with records := announcer.records.put ⟨key, max record.expiry storedUntil⟩ }

def remove (announcer : Announcer) (key : String) (expiry : ℚ) : Bool × Announcer :=
  if announcer.stopped = true ∨ announcer.inFlight key ≠ 0 then (false, announcer)
  else if announcer.records.find key ≠ some ⟨key, expiry⟩ then (false, announcer)
  else (true, { announcer with records := announcer.records.erase key })

def enterHold (announcer : Announcer) (clock drawn : ℚ) : Announcer :=
  let delay := announcer.holdDelay.getD drawn
  { announcer with
    holdDelay := some delay
    heldUntil := some (clock + delay) }

def leaveHold (announcer : Announcer) : Announcer :=
  { announcer with
    heldUntil := none
    holdDelay := none }

def stop (announcer : Announcer) : Announcer :=
  { announcer with
    stopped := true
    records := .empty }

end Announcer

inductive CallStage
  | computed (candidate : ℚ)
  | begun (candidate : ℚ)
  | extended (recorded : ℚ)
  | raised
  | tracked
  deriving DecidableEq

def CallStage.inFlight : CallStage → Bool
  | .begun _ | .extended _ | .raised => true
  | .computed _ | .tracked => false

structure Local429 where
  key : String
  stage : CallStage
  deriving DecidableEq

inductive Event
  | began (call : Nat) (key : String)
  | extended (call : Nat) (key : String)
  | tracked (call : Nat) (key : String)
  | cleared (key : String)
  | read (key : String) (storedUntil clock : ℚ)
  | removed (key : String)
  deriving DecidableEq

/-- An operator's clear before its `reverify`; `since` is the length of the log after its store write. -/
structure PendingClear where
  key : String
  since : Nat
  deriving DecidableEq

structure Verifying where
  record : Record
  storedUntil : ℚ
  deriving DecidableEq

structure Pass where
  current : ℚ
  anyDue : Bool
  todo : List Record
  verifying : Option Verifying
  deriving DecidableEq

/-- `log` is a record of the model, newest event first. -/
structure System where
  clock : ℚ
  storage : Storage
  announcer : Announcer
  calls : List Local429
  clears : List PendingClear
  pass : Option Pass
  log : List Event

inductive Action
  | tick (reading : ℚ)
  | arrive (key : String) (delay : ℚ)
  | begin (call : Nat)
  | extend (call : Nat)
  | extendRaises (call : Nat)
  | track (call : Nat)
  | peer (change : Change)
  | clear (key : String)
  | reverify (clear : Nat)
  | passStart
  | read
  | readRaises (drawn : ℚ)
  | decide
  | passEnd
  | stop

namespace System

def start (clock : ℚ) (storage : Storage) : System :=
  { clock := clock
    storage := storage
    announcer := .fresh
    calls := []
    clears := []
    pass := none
    log := [] }

def setCall (system : System) (call : Nat) (local429 : Local429) : System :=
  { system with calls := system.calls.set call local429 }

def note (system : System) (event : Event) : System :=
  { system with log := event :: system.log }

def begin (system : System) (call : Nat) : System :=
  match system.calls[call]? with
  | some ⟨key, .computed candidate⟩ =>
      ({ system with announcer := system.announcer.begin key }.setCall call
        ⟨key, .begun candidate⟩).note (.began call key)
  | _ => system

def extend (system : System) (call : Nat) : System :=
  match system.calls[call]? with
  | some ⟨key, .begun candidate⟩ =>
      let storage := system.storage.extendCooldown key candidate
      ({ system with storage := storage }.setCall call
        ⟨key, .extended (storage.getState key).cooldownUntil⟩).note (.extended call key)
  | _ => system

def extendRaises (system : System) (call : Nat) : System :=
  match system.calls[call]? with
  | some ⟨key, .begun _⟩ => system.setCall call ⟨key, .raised⟩
  | _ => system

def track (system : System) (call : Nat) : System :=
  match system.calls[call]? with
  | some ⟨key, .extended recorded⟩ =>
      ({ system with announcer := system.announcer.track key (some recorded) }.setCall call
        ⟨key, .tracked⟩).note (.tracked call key)
  | some ⟨key, .raised⟩ =>
      ({ system with announcer := system.announcer.track key none }.setCall call
        ⟨key, .tracked⟩).note (.tracked call key)
  | _ => system

def peer (system : System) (change : Change) : System :=
  let changed := { system with storage := system.storage.apply change }
  match change with
  | .clear key => changed.note (.cleared key)
  | _ => changed

def clear (system : System) (key : String) : System :=
  let pending : PendingClear := ⟨key, system.log.length + 1⟩
  { system with
    storage := system.storage.clear key
    clears := system.clears ++ [pending] }.note (.cleared key)

def reverify (system : System) (clear : Nat) : System :=
  match system.clears[clear]? with
  | none => system
  | some pending =>
      { system with
        announcer := system.announcer.reverify pending.key system.clock
        clears := system.clears.eraseIdx clear }

def passStart (system : System) : System :=
  match system.pass with
  | some _ => system
  | none =>
      let (due, announcer) := system.announcer.dueRecords system.clock
      { system with
        announcer := announcer
        pass := some ⟨system.clock, !due.isEmpty, due, none⟩ }

def read (system : System) : System :=
  match system.pass with
  | some ⟨current, anyDue, record :: todo, none⟩ =>
      let storedUntil := (system.storage.getState record.key).cooldownUntil
      { system with pass := some ⟨current, anyDue, todo, some ⟨record, storedUntil⟩⟩ }.note
        (.read record.key storedUntil system.clock)
  | _ => system

def readRaises (system : System) (drawn : ℚ) : System :=
  match system.pass with
  | some ⟨_, _, _ :: _, none⟩ =>
      { system with
        announcer := system.announcer.enterHold system.clock drawn
        pass := none }
  | _ => system

def decide (system : System) : System :=
  match system.pass with
  | some ⟨current, anyDue, todo, some ⟨record, storedUntil⟩⟩ =>
      let pass := some ⟨current, anyDue, todo, none⟩
      if current < storedUntil then
        { system with
          announcer := system.announcer.learn record.key storedUntil
          pass := pass }
      else
        match system.announcer.remove record.key record.expiry with
        | (false, announcer) => { system with announcer := announcer, pass := pass }
        | (true, announcer) =>
            { system with announcer := announcer, pass := pass }.note (.removed record.key)
  | _ => system

def passEnd (system : System) : System :=
  match system.pass with
  | some ⟨_, anyDue, [], none⟩ =>
      { system with
        announcer := if anyDue then system.announcer.leaveHold else system.announcer
        pass := none }
  | _ => system

def step (system : System) : Action → System
  | .tick reading => { system with clock := max system.clock reading }
  | .arrive key delay =>
      if 0 < delay then
        { system with
          storage := system.storage.incrementConsecutive429s key
          calls := system.calls ++ [⟨key, .computed (system.clock + delay)⟩] }
      else system
  | .begin call => system.begin call
  | .extend call => system.extend call
  | .extendRaises call => system.extendRaises call
  | .track call => system.track call
  | .peer change => system.peer change
  | .clear key => system.clear key
  | .reverify clear => system.reverify clear
  | .passStart => system.passStart
  | .read => system.read
  | .readRaises drawn => system.readRaises drawn
  | .decide => system.decide
  | .passEnd => system.passEnd
  | .stop => { system with announcer := system.announcer.stop }

def run (system : System) (actions : List Action) : System :=
  actions.foldl step system

end System

/-- What the removal of a record, in order to announce it, promises about the log before it. -/
def Verified (key : String) (before : List Event) : Prop :=
  ∃ since storedUntil clock older,
    before = since ++ .read key storedUntil clock :: older ∧
    (∀ other expiry reading, .read other expiry reading ∉ since) ∧
    storedUntil ≤ clock ∧
    (∀ call, .began call key ∈ before → .tracked call key ∈ before) ∧
    ∀ call later earlier, since = later ++ .extended call key :: earlier → .cleared key ∈ later

def NeverEarly (log : List Event) : Prop :=
  ∀ key after before, log = after ++ .removed key :: before → Verified key before

end Baldur.RateLimit
