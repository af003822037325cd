import Baldur.CircuitBreaker.MemoryCore
import Baldur.CircuitBreaker.RedisCore

/-!
The in-memory adapter and the Lua scripts of the Redis adapter are one state machine. A hash reads as a row
with the scripts' defaults: CLOSED, zero, no value.
-/

namespace Baldur.CircuitBreaker

open CircuitBreakerStateData Hash InMemory RedisCommand

structure SameFields (row : Row) (hash : Hash) : Prop where
  state : hash.state.getD .closed = row.state
  failureCount : hash.failureCount.getD 0 = row.failureCount
  successCount : hash.successCount.getD 0 = row.successCount
  openedAt : hash.openedAt.get = row.openedAt
  halfOpenRequestCount : hash.halfOpenRequestCount.getD 0 = row.halfOpenRequestCount
  halfOpenWindowStartedAt : hash.halfOpenWindowStartedAt.get = row.halfOpenWindowStartedAt
  manuallyControlled : hash.manuallyControlled.getD false = row.manuallyControlled
  controlledById : hash.controlledById.get = row.controlledById
  controlReason : hash.controlReason.getD "" = row.controlReason
  manualOverrideExpiresAt : hash.manualOverrideExpiresAt.get = row.manualOverrideExpiresAt

namespace SameFields

variable {row : Row} {hash : Hash}

section

variable (same : SameFields row hash)

include same

theorem isPinActive (now : Time) : hash.isPinActive now = row.isPinActive now := by
  have flag := same.manuallyControlled
  simp only [Hash.isPinActive, Hash.pinActive, CircuitBreakerStateData.isPinActive,
    manualPinIsActive, same.manualOverrideExpiresAt]
  cases stored : hash.manuallyControlled with
  | none =>
    simp only [stored, Option.getD_none] at flag
    simp [← flag]
  | some =>
    simp only [stored, Option.getD_some] at flag
    subst flag
    cases row.manuallyControlled <;> cases row.manualOverrideExpiresAt <;> simp

theorem stateOf {state : CircuitState} (notClosed : state ≠ .closed) : hash.state = some state ↔ row.state = state := by
  rw [← same.state]
  cases hash.state with
  | none => simpa using notClosed.symm
  | some => simp

theorem windowIsStuck (stuck : Int) (now : Time) : hash.windowIsStuck stuck now = row.windowIsStuck stuck now := by
  cases watermark : row.halfOpenWindowStartedAt <;>
    simp [Hash.windowIsStuck, CircuitBreakerStateData.windowIsStuck, same.halfOpenWindowStartedAt, watermark]

theorem startWindow (now : Time) :
    SameFields (row.startHalfOpenWindow now) (hash.hset
      { state := some .halfOpen
        successCount := some 0
        halfOpenRequestCount := some 1
        halfOpenWindowStartedAt := some (.value now)
        updatedAt := some (.value now) }) := by
  exact { same with
    state := rfl
    successCount := rfl
    halfOpenRequestCount := rfl
    halfOpenWindowStartedAt := rfl }

theorem takeSlot (now : Time) :
    SameFields { row with
        halfOpenRequestCount := row.halfOpenRequestCount + 1
        halfOpenWindowStartedAt := row.halfOpenWindowStartedAt.or (some now)
        updatedAt := some now }
      (if row.halfOpenWindowStartedAt = none then
        (hash.hset { halfOpenRequestCount := some (row.halfOpenRequestCount + 1)
                     updatedAt := some (.value now) }).hset
          { halfOpenWindowStartedAt := some (.value now) }
      else
        hash.hset { halfOpenRequestCount := some (row.halfOpenRequestCount + 1)
                    updatedAt := some (.value now) }) := by
  have watermark := same.halfOpenWindowStartedAt
  cases started : row.halfOpenWindowStartedAt with
  | none =>
    exact { same with
      halfOpenRequestCount := rfl
      halfOpenWindowStartedAt := rfl }
  | some =>
    rw [started] at watermark
    exact { same with
      halfOpenRequestCount := rfl
      halfOpenWindowStartedAt := watermark }

theorem tryAcquire (limit stuck : Int) (now : Time) :
    (row.tryAcquireHalfOpenSlot limit stuck now).2 = (hash.luaTryAcquireHalfOpenSlot limit stuck now).2 ∧
      SameFields (row.tryAcquireHalfOpenSlot limit stuck now).1 (hash.luaTryAcquireHalfOpenSlot limit stuck now).1 := by
  simp only [tryAcquireHalfOpenSlot, luaTryAcquireHalfOpenSlot,
    same.state, same.halfOpenRequestCount, same.halfOpenWindowStartedAt]
  cases found : row.state with
  | closed => simp [same]
  | opened => simp [same.startWindow now]
  | halfOpen =>
    by_cases full : limit ≤ row.halfOpenRequestCount
    · rw [same.windowIsStuck]
      by_cases isStuck : row.windowIsStuck stuck now = true
      · simp [full, isStuck, same.startWindow now]
      · simp [full, isStuck, same]
    · have room : row.halfOpenRequestCount < limit := by omega
      simpa [full, room, found] using same.takeSlot now

attribute [local simp] CircuitBreakerStateData.clearHalfOpenWindow

theorem closeCheck (threshold : Int) (now : Time) :
    (row.recordSuccessWithCloseCheck threshold now).2.didClose =
        (hash.luaRecordSuccessWithCloseCheck threshold now).2.didClose ∧
      (row.state = .halfOpen →
        SameFields (row.recordSuccessWithCloseCheck threshold now).1
          (hash.luaRecordSuccessWithCloseCheck threshold now).1) := by
  have inHalfOpen : hash.state = some .halfOpen ↔ row.state = .halfOpen :=
    same.stateOf (by decide)
  simp only [CircuitBreakerStateData.recordSuccessWithCloseCheck,
    Hash.luaRecordSuccessWithCloseCheck, inHalfOpen, same.successCount]
  by_cases trial : row.state = .halfOpen
  · by_cases reached : threshold ≤ row.successCount + 1
    · simp only [trial, reached, and_self, if_true, true_and, forall_const]
      cases same
      constructor <;> simp [*, Hash.hset]
    · simp only [trial, reached, and_false, if_false, if_true, true_and, forall_const]
      exact { same with
        state := same.state.trans trial
        successCount := rfl }
  · simp [trial]

theorem openCheck (now : Time) :
    (row.recordFailureWithOpenCheck now).2.didOpen = (hash.luaRecordFailureWithOpenCheck now).2.didOpen ∧
      SameFields (row.recordFailureWithOpenCheck now).1 (hash.luaRecordFailureWithOpenCheck now).1 := by
  have inHalfOpen : hash.state = some .halfOpen ↔ row.state = .halfOpen :=
    same.stateOf (by decide)
  simp only [CircuitBreakerStateData.recordFailureWithOpenCheck, Hash.luaRecordFailureWithOpenCheck, inHalfOpen]
  by_cases trial : row.state = .halfOpen
  · simp only [trial, if_true, true_and]
    cases same
    constructor <;> simp [*, Hash.hset]
  · simp only [trial, if_false]
    split <;> exact ⟨rfl, same⟩

theorem trip (failureCount : Int) (now : Time) :
    (row.tripToOpen failureCount now).2.didOpen = (hash.luaTripToOpen failureCount now).2.didOpen ∧
      SameFields (row.tripToOpen failureCount now).1 (hash.luaTripToOpen failureCount now).1 := by
  have closedState : (hash.state = some .closed ∨ hash.state = none) ↔ row.state = .closed := by
    rw [← same.state]
    cases hash.state <;> simp
  simp only [CircuitBreakerStateData.tripToOpen, Hash.luaTripToOpen, same.isPinActive, closedState]
  by_cases pinned : row.isPinActive now = true
  · simp [pinned, pinnedTripAttempt, same]
  · by_cases closed : row.state = .closed
    · simp only [pinned, closed, if_true, ne_eq, not_true_eq_false, if_false, true_and, Bool.false_eq_true]
      constructor <;> simp [Hash.hset, same.controlReason]
    · simp only [pinned, closed, if_false, ne_eq, not_false_eq_true, if_true, Bool.false_eq_true]
      split <;> exact ⟨rfl, same⟩

end

end SameFields

theorem entry_put (storage : Storage) (name : String) (now : Time)
    {row : Row} (named : row.serviceName = name) :
    entry (storage.put row) name now = row := by
  simp [entry, Table.find_put, named]

attribute [local simp] InMemory.exec InMemory.onRow RedisCommand.exec RedisCommand.onHash
  RedisCommand.serviceName entry_put

/-- Over every stored breaker the two adapters give the same verdicts, and wherever the
verdict is a grant, a transition or a counted trial success they store the same breaker. -/
theorem lua_scripts_match_memory (storage : Storage) (keys : Keyspace) (name : String)
    (limit stuck threshold failureCount : Int) (now : Time)
    (same : SameFields (entry storage name now) (keys name)) :
    (let memory := exec now storage (.tryAcquireHalfOpenSlot name limit stuck)
      let redis := exec (.evalTryAcquireHalfOpenSlot name limit stuck now) keys
      memory.2 = redis.2 ∧ SameFields (entry memory.1 name now) (redis.1 name)) ∧
    (let memory := exec now storage (.recordSuccessWithCloseCheck name threshold)
      let redis := exec (.evalRecordSuccessWithCloseCheck name threshold now) keys
      memory.2.didClose = redis.2.didClose ∧
        ((entry storage name now).state = .halfOpen → SameFields (entry memory.1 name now) (redis.1 name))) ∧
    (let memory := exec now storage (.recordFailureWithOpenCheck name)
      let redis := exec (.evalRecordFailureWithOpenCheck name now) keys
      memory.2.didOpen = redis.2.didOpen ∧ SameFields (entry memory.1 name now) (redis.1 name)) ∧
    (let memory := exec now storage (.tripToOpen name failureCount)
      let redis := exec (.evalTripToOpen name failureCount now) keys
      memory.2.didOpen = redis.2.didOpen ∧ SameFields (entry memory.1 name now) (redis.1 name)) := by
  refine ⟨?_, ?_, ?_, ?_⟩
  · obtain ⟨verdict, stored⟩ := same.tryAcquire limit stuck now
    refine ⟨verdict, ?_⟩
    simpa using stored
  · simpa using same.closeCheck threshold now
  · simpa using same.openCheck now
  · simpa using same.trip failureCount now

theorem lua_scripts_match_memory_half_open :
    SameFields (entry (Table.empty.put
        { serviceName := "payment-api", state := .halfOpen, successCount := 1
          openedAt := some 5, halfOpenRequestCount := 3 }) "payment-api" 9)
      { state := some .halfOpen, successCount := some 1, openedAt := .value 5
        halfOpenRequestCount := some 3, controlledById := .empty } ∧
    (exec 9 (Table.empty.put
        { serviceName := "payment-api", state := .halfOpen, successCount := 1
          openedAt := some 5, halfOpenRequestCount := 3 })
        (.tryAcquireHalfOpenSlot "payment-api" 3 60)).2 =
      (exec (.evalTryAcquireHalfOpenSlot "payment-api" 3 60 9)
        (fun _ => { state := some .halfOpen, successCount := some 1, openedAt := .value 5
                    halfOpenRequestCount := some 3, controlledById := .empty })).2 := by
  have same : SameFields (entry (Table.empty.put
        { serviceName := "payment-api", state := .halfOpen, successCount := 1
          openedAt := some 5, halfOpenRequestCount := 3 }) "payment-api" 9)
      { state := some .halfOpen, successCount := some 1, openedAt := .value 5
        halfOpenRequestCount := some 3, controlledById := .empty } := by
    constructor <;> rfl
  exact ⟨same, (lua_scripts_match_memory _ _ _ 3 60 2 5 9 same).1.1⟩

end Baldur.CircuitBreaker
