import Baldur.Dlq.EvictionCore
import Baldur.Dlq.RedisIndexes
import Mathlib.Data.Finset.Option
import Mathlib.Data.Prod.Lex

/-!
Selection of replayable entries in pages (`find_replayable_page`), strictly after a cursor, up to a limit and
a scan bound. The in-memory selector reads once under the lock, the Redis selector window after window.
-/

namespace Baldur.Dlq

abbrev Position := Time ×ₗ String

def replayCursorPosition (createdAt : Time) (id : String) : Position :=
  toLex (createdAt, id)

inductive Cursor
  | encoded (position : Position)
  | unusable (text : String)
  deriving DecidableEq

def encodeReplayCursor (createdAt : Time) (id : String) : Cursor :=
  .encoded (replayCursorPosition createdAt id)

def decodeReplayCursor : Option Cursor → Option Position
  | some (.encoded position) => some position
  | _ => none

def FailedOperationData.position (entry : Entry) : Option Position :=
  entry.createdAt.map fun createdAt => replayCursorPosition createdAt entry.id

def FailedOperationData.cursor (entry : Entry) : Option Cursor :=
  entry.createdAt.map fun createdAt => encodeReplayCursor createdAt entry.id

def beyond (floor : Option Position) (position : Position) : Bool :=
  floor.all fun low => low < position

structure ReplayablePage where
  entries : List Entry := []
  nextCursor : Option Cursor := none
  scanExhausted : Bool := false

structure Lane where
  failureType : String
  domain : Option String
  source : Option String
  deriving DecidableEq

def Lane.isReplayableMatch (lane : Lane) (maxRetries : Int) (requirePending : Bool)
    (entry : Entry) : Bool :=
  !(requirePending && entry.status ≠ .pending) && !(maxRetries ≤ entry.retryCount) &&
    !(lane.failureType ≠ "" && entry.failureType ≠ lane.failureType) &&
    lane.source.all fun source => entry.metadata "source" = some (.text source)

def positioned (entries : List Entry) : List (Position × Entry) :=
  entries.filterMap fun entry => entry.position.map fun position => (position, entry)

def highest : List (Position × Entry) → Option (Position × Entry)
  | [] => none
  | item :: rest =>
      match highest rest with
      | none => some item
      | some best => if item.1 < best.1 then some best else some item

namespace MemoryStore

variable (store : MemoryStore)

def pendingIds (domain : Option String) : Finset String :=
  match givenDomain domain with
  | some named => store.indexByStatusDomain .pending named
  | none => store.indexByStatus .pending

def findReplayablePage (iteration : SetIteration) (maxRetries : Int) (lane : Lane) (limit : Nat)
    (cursor : Option Cursor) : ReplayablePage :=
  let floor := decodeReplayCursor cursor
  let read := (iteration.order (store.pendingIds lane.domain)).filterMap store.find
  let fresh := (positioned read).filter fun item => beyond floor item.1
  let found := fresh.filter fun item => lane.isReplayableMatch maxRetries false item.2
  let selected := (found.insertionSort fun left right => left.1 ≤ right.1).take limit
  let boundary := if selected.length < found.length ∧ selected ≠ [] then selected.getLast? else highest fresh
  { entries := selected.map Prod.snd
    nextCursor := boundary.bind fun item => item.2.cursor }

end MemoryStore

def SortedSet.zrangebyscore (set : SortedSet) (minScore : Option Time) (count : Nat) : List String :=
  (((set.entries.insertionSort fun left right => zorder left right = true).filter fun member =>
    minScore.all fun low => low ≤ member.2).map Prod.fst).take count

/-- What one window sees: the index when it is ranged over, the blobs when they are fetched. -/
structure RedisView where
  indexed : RedisWorld
  loaded : RedisWorld

structure ReplayScan where
  found : List Entry := []
  boundary : Option (Position × Entry) := none
  examined : Nat := 0
  scanExhausted : Bool := false
  minScore : Option Time := none
  consumedAtFloor : Finset String := ∅

namespace RedisQuery

/-- `_replayable_index_key` in normal mode: the index already is the status scope. -/
def replayableIndexKey : Option String → IndexKey
  | none => .pending
  | some domain => .statusDomain .pending domain

def replayableWindowIds (set : SortedSet) (minScore : Option Time) (window : Nat)
    (consumedAtFloor : Finset String) : List String :=
  ((set.zrangebyscore minScore (window + consumedAtFloor.card)).filter fun id =>
    id ∉ consumedAtFloor).take window

/-- The first window entries at the highest score it read are named off; a window that never left
its floor is named off whole. -/
def advanceReplayableAnchor (window : List (Position × Entry)) (ids : List String)
    (minScore : Option Time) (consumedAtFloor : Finset String) : Option Time × Finset String :=
  match highest window with
  | some (top, _) =>
      if minScore.all fun low => low < (ofLex top).1 then
        (some (ofLex top).1,
          ((window.filter fun item => (ofLex item.1).1 = (ofLex top).1).map fun item => item.2.id).toFinset)
      else
        (minScore, consumedAtFloor ∪ ids.toFinset)
  | none => (minScore, consumedAtFloor ∪ ids.toFinset)

def fartherBoundary (boundary windowBoundary : Option (Position × Entry)) :
    Option (Position × Entry) :=
  match boundary, windowBoundary with
  | none, window => window
  | some old, none => some old
  | some old, some new => if old.1 < new.1 then some new else some old

/-- What one window contributes, and how far a cursor may advance. -/
def collectReplayableWindow (maxRetries : Int) (lane : Lane) (floor : Option Position) (room : Nat)
    (window : List (Position × Entry)) :
    List Entry × Option (Position × Entry) :=
  let fresh := window.filter fun item => beyond floor item.1
  let eligible := fresh.filter fun item => lane.isReplayableMatch maxRetries false item.2
  let taken := eligible.take room
  (taken.map Prod.snd,
    if taken.length < eligible.length ∧ taken ≠ [] then taken.getLast? else highest fresh)

/-- One round of the loop: the scan goes on from the second component when it is there. -/
def scanWindow (view : RedisView) (maxRetries : Int) (lane : Lane) (floor : Option Position)
    (limit window : Nat) (scan : ReplayScan) : ReplayScan × Bool :=
  let ids := replayableWindowIds (view.indexed.index (replayableIndexKey lane.domain)) scan.minScore
    window scan.consumedAtFloor
  if ids = [] then
    (scan, false)
  else
    let read := positioned (ids.filterMap view.loaded.find)
    let collected := collectReplayableWindow maxRetries lane floor (limit - scan.found.length) read
    let anchor := advanceReplayableAnchor read ids scan.minScore scan.consumedAtFloor
    let after : ReplayScan := { scan with
      found := scan.found ++ collected.1
      boundary := fartherBoundary scan.boundary collected.2
      examined := scan.examined + ids.length }
    if limit ≤ after.found.length ∨ ids.length < window then
      (after, false)
    else
      ({ after with minScore := anchor.1, consumedAtFloor := anchor.2 }, true)

/-- The loop of `find_replayable_page`. Every round that goes on spends some of the scan bound. -/
def scanWindows (views : Nat → RedisView) (chunk maxScan : Nat) (maxRetries : Int) (lane : Lane)
    (floor : Option Position) (limit : Nat) : (rounds turn : Nat) → ReplayScan → ReplayScan
  | 0, _, scan => { scan with scanExhausted := true }
  | rounds + 1, turn, scan =>
      if limit ≤ scan.found.length then
        scan
      else
        let window := min chunk (maxScan - scan.examined)
        if window = 0 then
          { scan with scanExhausted := true }
        else
          match scanWindow (views turn) maxRetries lane floor limit window scan with
          | (after, false) => after
          | (after, true) => scanWindows views chunk maxScan maxRetries lane floor limit rounds (turn + 1) after

def findReplayablePage (views : Nat → RedisView) (chunk maxScan : Nat) (maxRetries : Int) (lane : Lane)
    (limit : Nat) (cursor : Option Cursor) : ReplayablePage :=
  let floor := decodeReplayCursor cursor
  let start : ReplayScan :=
    { minScore := floor.map fun position => (ofLex position).1
      consumedAtFloor := (floor.map fun position => ((ofLex position).2 : String)).toFinset }
  let scan := scanWindows views chunk maxScan maxRetries lane floor limit (maxScan + 1) 0 start
  { entries := scan.found
    nextCursor := scan.boundary.bind fun item => item.2.cursor
    scanExhausted := scan.scanExhausted }

end RedisQuery

end Baldur.Dlq
