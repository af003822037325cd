import Baldur.Lib.Pool
import Baldur.Lib.Words

/-!
Entry ids across forks (`_repair_if_forked`, `_allocate_id`). A process holds identity objects and an
attribute that refers to one; a fork copies both. Threads allocate in single steps.
-/

namespace Baldur.Dlq

open Prog List Option Pool Words

structure EntryIdentity where
  podId : String
  pid : Int
  runNonce : String
  originPid : Int
  deriving Inhabited

def EntryIdentity.entryId (identity : EntryIdentity) (seq : Nat) : String :=
  identity.podId ++ ":" ++ toString identity.pid ++ ":" ++ identity.runNonce ++ ":" ++ seq.repr

/-- `secrets.token_hex` over all processes: the text of each draw, never the same twice. -/
structure NonceSource where
  tokenHex : Nat → String
  distinct : Function.Injective tokenHex
  plain : ∀ draw, ':' ∉ (tokenHex draw).toList

structure IdProcess where
  pid : Int
  live : Bool
  heap : List (EntryIdentity × Nat)
  entryIdentity : Nat

structure ForkTree where
  source : NonceSource
  drawn : Nat
  processes : List IdProcess

inductive IdCall
  | loadIdentity (process : Nat)
  | getpid (process : Nat)
  | tokenHex
  | storeIdentity (process : Nat) (identity : EntryIdentity)
  | nextSeq (process object : Nat)

@[reducible] def IdCall.Answer : IdCall → Type
  | .loadIdentity _ => Nat × EntryIdentity
  | .getpid _ => Int
  | .tokenHex => String
  | .storeIdentity .. => Nat
  | .nextSeq .. => Nat

namespace IdProcess

variable (process : IdProcess)

def load : Nat × EntryIdentity :=
  (process.entryIdentity, match process.heap[process.entryIdentity]? with
    | some object => object.1
    | none => default)

def store (identity : EntryIdentity) : IdProcess :=
  { process with heap := process.heap ++ [(identity, 0)], entryIdentity := process.heap.length }

def next (object : Nat) : IdProcess × Nat :=
  match process.heap[object]? with
  | some (identity, seq) => ({ process with heap := process.heap.set object (identity, seq + 1) }, seq)
  | none => (process, 0)

end IdProcess

namespace ForkTree

def exec : (call : IdCall) → ForkTree → ForkTree × call.Answer
  | .loadIdentity process, tree => (tree, match tree.processes[process]? with
      | some running => running.load
      | none => default)
  | .getpid process, tree => (tree, match tree.processes[process]? with
      | some running => running.pid
      | none => default)
  | .tokenHex, tree => ({ tree with drawn := tree.drawn + 1 }, tree.source.tokenHex tree.drawn)
  | .storeIdentity process identity, tree => match tree.processes[process]? with
      | some running =>
          ({ tree with processes := tree.processes.set process (running.store identity) }, running.heap.length)
      | none => (tree, default)
  | .nextSeq process object, tree => match tree.processes[process]? with
      | some running =>
          let out := running.next object
          ({ tree with processes := tree.processes.set process out.1 }, out.2)
      | none => (tree, default)

def livePid (tree : ForkTree) (pid : Int) : Bool :=
  tree.processes.any fun process => process.live && process.pid = pid

end ForkTree

inductive ForkChange
  | fork (parent : Nat) (pid : Int)
  | exit (process : Nat)

/-- The operating system forks only what lives and never hands out a live process's pid. -/
def ForkTree.disturb : ForkChange → ForkTree → ForkTree
  | .fork parent pid, tree => match tree.processes[parent]? with
      | some running =>
          if running.live && !tree.livePid pid then
            { tree with processes := tree.processes ++ [{ running with pid := pid }] }
          else
            tree
      | none => tree
  | .exit process, tree => match tree.processes[process]? with
      | some running => { tree with processes := tree.processes.set process { running with live := false } }
      | none => tree

abbrev IdProg := Prog IdCall IdCall.Answer

def idCommand (call : IdCall) : IdProg call.Answer :=
  Prog.perform call

/-- The object to allocate from, with its identity. -/
def repairIfForked (process : Nat) : IdProg (Nat × EntryIdentity) := do
  let inherited : Nat × EntryIdentity ← idCommand (.loadIdentity process)
  let current : Int ← idCommand (.getpid process)
  if inherited.2.originPid = current then
    return inherited
  else
    let pid : Int ← idCommand (.getpid process)
    let runNonce : String ← idCommand .tokenHex
    let originPid : Int ← idCommand (.getpid process)
    let fresh : EntryIdentity := { podId := inherited.2.podId, pid, runNonce, originPid }
    let object : Nat ← idCommand (.storeIdentity process fresh)
    return (object, fresh)

def allocateId (process : Nat) : IdProg String := do
  let ident ← repairIfForked process
  let seq : Nat ← idCommand (.nextSeq process ident.1)
  return ident.2.entryId seq

def constructed (source : NonceSource) (podId : String) (pid : Option Int) (current : Int) : ForkTree where
  source := source
  drawn := 1
  processes := [{
    pid := current
    live := true
    heap := [({ podId, pid := pid.getD current, runNonce := source.tokenHex 0, originPid := current }, 0)]
    entryIdentity := 0 }]

abbrev IdConfig := Pool.Config IdCall IdCall.Answer ForkTree String

abbrev IdAction := Pool.Action IdCall IdCall.Answer ForkChange String

def forkMachine : Pool.Machine IdCall IdCall.Answer ForkTree ForkChange String :=
  ⟨ForkTree.exec, ForkTree.disturb, fun _ _ => []⟩

def IdCall.process : IdCall → Option Nat
  | .loadIdentity process => some process
  | .getpid process => some process
  | .tokenHex => none
  | .storeIdentity process _ => some process
  | .nextSeq process _ => some process

def runsAllocations (config : IdConfig) : IdAction → Prop
  | .step thread => ∀ call ∈ config.pending thread, ∀ process ∈ call.process,
      ∃ running, config.state.processes[process]? = some running ∧ running.live = true
  | .disturb _ => True
  | .spawn program => ∃ process, program = allocateId process

/-- No fork hands out the pid that the forking process's current identity names as its origin. -/
def originUnused (config : IdConfig) : IdAction → Prop
  | .disturb (.fork parent pid) => ∀ running, config.state.processes[parent]? = some running →
      running.load.2.originPid ≠ pid
  | _ => True

theorem colon_notMem_repr (seq : Nat) : ':' ∉ seq.repr.toList := by
  intro member
  rw [Nat.repr_eq_ofList_toDigits, String.toList_ofList] at member
  exact absurd (Nat.isDigit_of_mem_toDigits (by decide) (by decide) member) (by decide)

theorem entryId_inj {first second : EntryIdentity} {seq seq' : Nat}
    (plain : ':' ∉ first.runNonce.toList) (plain' : ':' ∉ second.runNonce.toList)
    (same : first.entryId seq = second.entryId seq') : first.runNonce = second.runNonce ∧ seq = seq' := by
  have letters := congrArg (fun text => text.toList.reverse) same
  simp only [EntryIdentity.entryId, String.toList_append, reverse_append] at letters
  have colon : (":" : String).toList.reverse = [':'] := by decide
  simp only [colon, singleton_append] at letters
  have reversed (text : String) (free : ':' ∉ text.toList) : ':' ∉ text.toList.reverse := by
    simpa using free
  obtain ⟨numbers, rest⟩ := word_inj (reversed _ (colon_notMem_repr seq))
    (reversed _ (colon_notMem_repr seq')) (endsWord_cons _) (endsWord_cons _) letters
  obtain ⟨nonces, _⟩ := word_inj (reversed _ plain) (reversed _ plain') (endsWord_cons _)
    (endsWord_cons _) (cons.inj rest).2
  constructor
  · exact String.toList_inj.mp (reverse_injective nonces)
  · exact repr_injective (String.toList_inj.mp (reverse_injective numbers))

inductive AllocationStage
  | begun (process : Nat)
  | loaded (process object : Nat) (identity : EntryIdentity)
  | repairing (process : Nat)
  | drew (process : Nat) (nonce : String)
  | owner (process object : Nat) (nonce : String)
  | issued (nonce : String) (seq : Nat)

open AllocationStage

def AllocationStage.held : AllocationStage → Option String
  | drew _ nonce => some nonce
  | _ => none

def AllocationStage.issue : AllocationStage → Option (String × Nat)
  | issued nonce seq => some (nonce, seq)
  | _ => none

def allocationDiscipline : Discipline IdCall IdCall.Answer AllocationStage where
  may stage
    | .loadIdentity process => stage = begun process
    | .getpid process => match stage with
        | loaded own _ _ => own = process
        | repairing own => own = process
        | drew own _ => own = process
        | _ => False
    | .tokenHex => ∃ process, stage = repairing process
    | .storeIdentity process identity => stage = drew process identity.runNonce
    | .nextSeq process object => ∃ nonce, stage = owner process object nonce
  valid _ _ _ := True
  after stage
    | .loadIdentity process, inherited => loaded process inherited.1 inherited.2
    | .getpid _, pid => match stage with
        | loaded process object identity =>
            if identity.originPid = pid then owner process object identity.runNonce else repairing process
        | other => other
    | .tokenHex, nonce => match stage with
        | repairing process => drew process nonce
        | other => other
    | .storeIdentity process identity, object => owner process object identity.runNonce
    | .nextSeq _ _, seq => match stage with
        | owner _ _ nonce => issued nonce seq
        | other => other

def Returns (stage : AllocationStage) (id : String) : Prop :=
  ∃ (identity : EntryIdentity) (seq : Nat), stage = issued identity.runNonce seq ∧ id = identity.entryId seq

theorem allocateId_obeys (process : Nat) : Obeys allocationDiscipline Returns (begun process) (allocateId process) := by
  simp only [allocateId, repairIfForked, idCommand, perform_bind, obeys_bind]
  refine ⟨rfl, fun inherited _ => ⟨rfl, fun current _ => ?_⟩⟩
  refine (obeys_ite _ _ _ _ _ _).mpr ⟨fun own => ?_, fun foreign => ?_⟩
  · simp only [allocationDiscipline, own, if_true]
    exact ⟨⟨_, rfl⟩, fun seq _ => ⟨inherited.2, seq, rfl, rfl⟩⟩
  · simp only [allocationDiscipline, foreign, if_false]
    refine ⟨rfl, fun pid _ => ⟨⟨process, rfl⟩, fun nonce _ => ⟨rfl, fun origin _ => ?_⟩⟩⟩
    exact ⟨rfl, fun object _ => ⟨⟨_, rfl⟩, fun seq _ => ⟨_, seq, rfl, rfl⟩⟩⟩

def Own (base : Nat → Nat) (tree : ForkTree) (process object : Nat) (content : EntryIdentity × Nat) : Prop :=
  ∃ running, tree.processes[process]? = some running ∧ base process ≤ object ∧ running.heap[object]? = some content

def Drawn (tree : ForkTree) (nonce : String) : Prop :=
  ∃ draw, draw < tree.drawn ∧ nonce = tree.source.tokenHex draw

def StageFits (base : Nat → Nat) (tree : ForkTree) : AllocationStage → Prop
  | begun _ => True
  | loaded process object identity => ∃ running content, tree.processes[process]? = some running ∧
      running.heap[object]? = some content ∧ content.1 = identity ∧
      (base process ≤ object ∨ identity.originPid ≠ running.pid)
  | repairing _ => True
  | drew _ nonce => Drawn tree nonce ∧
      ∀ process object content, Own base tree process object content → content.1.runNonce ≠ nonce
  | owner process object nonce => ∃ content, Own base tree process object content ∧ content.1.runNonce = nonce
  | issued nonce seq => ∃ process object content, Own base tree process object content ∧
      content.1.runNonce = nonce ∧ seq < content.2

structure Partitioned (base : Nat → Nat) (tree : ForkTree) (locals : List AllocationStage) : Prop where
  drawn : ∀ process object content, Own base tree process object content → Drawn tree content.1.runNonce
  apart : ∀ process object content process' object' content', Own base tree process object content →
    Own base tree process' object' content' → content.1.runNonce = content'.1.runNonce →
    process = process' ∧ object = object'
  current : ∀ (process : Nat) (running : IdProcess), tree.processes[process]? = some running →
    ∃ content, running.heap[running.entryIdentity]? = some content ∧
      (base process ≤ running.entryIdentity ∨ content.1.originPid ≠ running.pid)
  bounded : ∀ (process : Nat) (running : IdProcess), tree.processes[process]? = some running →
    base process ≤ running.heap.length
  stages : ∀ (thread : Nat) (stage : AllocationStage), locals[thread]? = some stage → StageFits base tree stage
  heldApart : Pool.Keyed AllocationStage.held locals
  issuedApart : Pool.Keyed AllocationStage.issue locals

def Namespaced (tree : ForkTree) (_ : List (Pool.Event IdCall IdCall.Answer)) (locals : List AllocationStage) : Prop :=
  ∃ base, Partitioned base tree locals

section

variable {base : Nat → Nat} {tree : ForkTree} {locals : List AllocationStage} {thread process object : Nat}
  {stage next : AllocationStage} {running changed : IdProcess} {content : EntryIdentity × Nat}

theorem own_set (found : tree.processes[process]? = some running) (other : Nat) :
    Own base { tree with processes := tree.processes.set process changed } other object content ↔
      (other = process ∧ base process ≤ object ∧ changed.heap[object]? = some content) ∨
        (other ≠ process ∧ Own base tree other object content) := by
  have bound : process < tree.processes.length := (List.getElem?_eq_some_iff.mp found).1
  by_cases same : other = process
  · subst same
    simp [Own, bound]
  · simp [Own, same, getElem?_set_ne (Ne.symm same)]

theorem own_unique {first second : EntryIdentity × Nat} (left : Own base tree process object first)
    (right : Own base tree process object second) : first = second := by
  obtain ⟨here, found, _, there⟩ := left
  obtain ⟨here', found', _, there'⟩ := right
  obtain rfl : here = here' := mem_unique found found'
  exact mem_unique there there'

theorem stages_after {before after : ForkTree} {base' : Nat → Nat}
    (stages : ∀ (thread : Nat) (stage : AllocationStage), locals[thread]? = some stage → StageFits base before stage)
    (located : locals[thread]? = some stage) (fits : StageFits base' after next)
    (carried : ∀ (other : Nat) (stage : AllocationStage), other ≠ thread → locals[other]? = some stage →
      StageFits base before stage → StageFits base' after stage) :
    ∀ (other : Nat) (found : AllocationStage), (locals.set thread next ++ [])[other]? = some found →
      StageFits base' after found := by
  intro other found there
  rcases located_after located there with ⟨_, rfl⟩ | ⟨apart, earlier⟩ | ⟨_, none⟩
  · exact fits
  · exact carried other found apart earlier (stages other found earlier)
  · cases none

variable (partitioned : Partitioned base tree locals)

include partitioned in
theorem partitioned_set (located : locals[thread]? = some stage) (fits : StageFits base tree next)
    (holdsNone : next.held = none)
    (issues : ∀ key, next.issue = some key → ∀ (other : Nat) (found : AllocationStage), other ≠ thread →
      locals[other]? = some found → found.issue ≠ some key) :
    Partitioned base tree (locals.set thread next ++ []) := by
  refine { partitioned with stages := ?_, heldApart := ?_, issuedApart := ?_ }
  · exact stages_after partitioned.stages located fits fun _ _ _ _ known => known
  · exact keyed_after partitioned.heldApart located (by simp [holdsNone])
  · exact keyed_after partitioned.issuedApart located issues

include partitioned in
theorem partitioned_quiet (located : locals[thread]? = some stage) (fits : StageFits base tree next)
    (holdsNone : next.held = none) (issuesNone : next.issue = none) :
    Partitioned base tree (locals.set thread next ++ []) :=
  partitioned_set partitioned located fits holdsNone (by simp [issuesNone])

variable {identity : EntryIdentity}

include partitioned in
theorem partitioned_getpid (located : locals[thread]? = some (loaded process object identity))
    (found : tree.processes[process]? = some running) :
    Partitioned base tree (locals.set thread (if identity.originPid = running.pid then
      owner process object identity.runNonce else repairing process) ++ []) := by
  obtain ⟨here, content, found', there, rfl, owned⟩ := partitioned.stages thread _ located
  obtain rfl : here = running := mem_unique found' found
  by_cases own : content.1.originPid = here.pid
  · rw [if_pos own]
    refine partitioned_quiet partitioned located ⟨content, ?_, rfl⟩ rfl rfl
    exact ⟨here, found, owned.resolve_right fun foreign => foreign own, there⟩
  · rw [if_neg own]
    exact partitioned_quiet partitioned located trivial rfl rfl

variable {nonce : String}

theorem drawn_grows (drawn : Drawn tree nonce) : Drawn { tree with drawn := tree.drawn + 1 } nonce := by
  obtain ⟨draw, below, rfl⟩ := drawn
  exact ⟨draw, Nat.lt_succ_of_lt below, rfl⟩

theorem fresh_draw (drawn : Drawn tree nonce) : nonce ≠ tree.source.tokenHex tree.drawn := by
  obtain ⟨draw, below, rfl⟩ := drawn
  intro same
  have equal := tree.source.distinct same
  omega

theorem stageFits_drawn (fits : StageFits base tree stage) :
    StageFits base { tree with drawn := tree.drawn + 1 } stage := by
  cases stage with
  | drew => exact ⟨drawn_grows fits.1, fits.2⟩
  | _ => exact fits

include partitioned in
theorem drawn_of_held {other : Nat} (there : locals[other]? = some stage) (holds : stage.held = some nonce) :
    Drawn tree nonce := by
  have fits := partitioned.stages other stage there
  cases stage with
  | drew process held =>
    obtain rfl : held = nonce := some.inj holds
    exact fits.1
  | _ => cases holds

include partitioned in
theorem partitioned_tokenHex (located : locals[thread]? = some (repairing process)) :
    Partitioned base { tree with drawn := tree.drawn + 1 }
      (locals.set thread (drew process (tree.source.tokenHex tree.drawn)) ++ []) := by
  refine ⟨?_, partitioned.apart, partitioned.current, partitioned.bounded, ?_, ?_, ?_⟩
  · intro owner object content own
    exact drawn_grows (partitioned.drawn owner object content own)
  · refine stages_after partitioned.stages located ⟨⟨tree.drawn, Nat.lt_succ_self _, rfl⟩, ?_⟩
      fun _ _ _ _ known => stageFits_drawn known
    intro owner object content own
    exact fresh_draw (partitioned.drawn owner object content own)
  · refine keyed_after partitioned.heldApart located ?_
    rintro _ ⟨⟩ other found _ there holds
    exact fresh_draw (drawn_of_held partitioned there holds) rfl
  · exact keyed_after partitioned.issuedApart located (by simp [issue])

/-- The process keeps its pid, and its objects their identities with numbers that never fall. -/
def IdProcess.Keeps (running after : IdProcess) : Prop :=
  after.pid = running.pid ∧ ∀ (index : Nat) content, running.heap[index]? = some content →
    ∃ kept, after.heap[index]? = some kept ∧ kept.1 = content.1 ∧ content.2 ≤ kept.2

theorem IdProcess.keeps_self (running : IdProcess) : running.Keeps running :=
  ⟨rfl, fun _ content stays => ⟨content, stays, rfl, Nat.le_refl _⟩⟩

structure Carries (base base' : Nat → Nat) (tree changed : ForkTree) : Prop where
  sources : changed.source = tree.source ∧ changed.drawn = tree.drawn
  kept : ∀ (process : Nat) (running : IdProcess), tree.processes[process]? = some running →
    base' process = base process ∧ ∃ after, changed.processes[process]? = some after ∧ running.Keeps after

variable {base' : Nat → Nat} {after : ForkTree}

section

variable (carries : Carries base base' tree after)

include carries

theorem Carries.drawn (drawn : Drawn tree nonce) : Drawn after nonce := by
  obtain ⟨draw, below, rfl⟩ := drawn
  exact ⟨draw, by rwa [carries.sources.2], by rw [carries.sources.1]⟩

theorem Carries.own (own : Own base tree process object content) :
    ∃ kept, Own base' after process object kept ∧ kept.1 = content.1 ∧ content.2 ≤ kept.2 := by
  obtain ⟨running, found, beyond, there⟩ := own
  obtain ⟨same, now, found', _, objects⟩ := carries.kept process running found
  obtain ⟨kept, stays, identity, grown⟩ := objects object content there
  exact ⟨kept, ⟨now, found', by rwa [same], stays⟩, identity, grown⟩

theorem Carries.stageFits (fresh : ∀ own drawn, stage = drew own drawn → ∀ process object content,
      Own base' after process object content → content.1.runNonce ≠ drawn)
    (fits : StageFits base tree stage) : StageFits base' after stage := by
  cases stage with
  | begun => trivial
  | repairing => trivial
  | loaded process object identity =>
    obtain ⟨running, content, found, there, rfl, owned⟩ := fits
    obtain ⟨same, now, found', pid, objects⟩ := carries.kept process running found
    obtain ⟨kept, stays, identity, _⟩ := objects object content there
    exact ⟨now, kept, found', stays, identity, by rwa [same, pid]⟩
  | drew process nonce => exact ⟨carries.drawn fits.1, fresh process nonce rfl⟩
  | owner =>
    obtain ⟨content, owned, rfl⟩ := fits
    obtain ⟨kept, stays, identity, _⟩ := carries.own owned
    exact ⟨kept, stays, by rw [identity]⟩
  | issued =>
    obtain ⟨process, object, content, owned, rfl, below⟩ := fits
    obtain ⟨kept, stays, identity, grown⟩ := carries.own owned
    exact ⟨process, object, kept, stays, by rw [identity], Nat.lt_of_lt_of_le below grown⟩

end

include partitioned in
theorem partitioned_change (carries : Carries base base' tree after)
    (own : ∀ process object content, Own base' after process object content →
      ∃ before, Own base tree process object before ∧ content.1 = before.1)
    (current : ∀ (process : Nat) (running : IdProcess), after.processes[process]? = some running →
      ∃ content, running.heap[running.entryIdentity]? = some content ∧
        (base' process ≤ running.entryIdentity ∨ content.1.originPid ≠ running.pid))
    (bounded : ∀ (process : Nat) (running : IdProcess), after.processes[process]? = some running →
      base' process ≤ running.heap.length) : Partitioned base' after locals := by
  refine ⟨?_, ?_, current, bounded, ?_, partitioned.heldApart, partitioned.issuedApart⟩
  · intro process object content owned
    obtain ⟨before, old, same⟩ := own process object content owned
    rw [same]
    exact carries.drawn (partitioned.drawn process object before old)
  · intro first object content second object' content' owned owned' same
    obtain ⟨before, old, identity⟩ := own first object content owned
    obtain ⟨before', old', identity'⟩ := own second object' content' owned'
    rw [identity, identity'] at same
    exact partitioned.apart first object before second object' before' old old' same
  · intro thread stage there
    have known := partitioned.stages thread stage there
    refine carries.stageFits ?_ known
    rintro _ nonce rfl process object content owned
    obtain ⟨before, old, same⟩ := own process object content owned
    rw [same]
    exact known.2 process object before old

section

variable (found : tree.processes[process]? = some running)

include found

theorem process_set {other : Nat} {here : IdProcess} :
    (tree.processes.set process changed)[other]? = some here ↔
      other = process ∧ changed = here ∨ other ≠ process ∧ tree.processes[other]? = some here := by
  have bound : process < tree.processes.length := (List.getElem?_eq_some_iff.mp found).1
  by_cases same : other = process
  · subst same
    simp [bound]
  · simp [same, getElem?_set_ne (Ne.symm same)]

theorem carries_set (keeps : running.Keeps changed) :
    Carries base base tree { tree with processes := tree.processes.set process changed } := by
  refine ⟨⟨rfl, rfl⟩, fun other here there => ⟨rfl, ?_⟩⟩
  by_cases same : other = process
  · subst same
    obtain rfl := mem_unique there found
    exact ⟨changed, (process_set found).mpr (.inl ⟨rfl, rfl⟩), keeps⟩
  · exact ⟨here, (process_set found).mpr (.inr ⟨same, there⟩), here.keeps_self⟩

include partitioned in
theorem partitioned_touch (keeps : running.Keeps changed) (same : changed.entryIdentity = running.entryIdentity)
    (size : changed.heap.length = running.heap.length) :
    Partitioned base { tree with processes := tree.processes.set process changed } locals := by
  refine partitioned_change partitioned (carries_set found keeps) ?_ ?_ ?_
  · intro other index content own
    rcases (own_set found other).mp own with ⟨rfl, beyond, there⟩ | ⟨_, old⟩
    · have bound := (List.getElem?_eq_some_iff.mp there).1
      have before := getElem?_eq_getElem (size ▸ bound)
      obtain ⟨kept, stays, identity, _⟩ := keeps.2 index _ before
      obtain rfl := mem_unique stays there
      exact ⟨_, ⟨running, found, beyond, before⟩, identity⟩
    · exact ⟨content, old, rfl⟩
  · intro other here there
    rcases (process_set found).mp there with ⟨rfl, rfl⟩ | ⟨_, old⟩
    · obtain ⟨content, present, owned⟩ := partitioned.current other running found
      obtain ⟨kept, stays, identity, _⟩ := keeps.2 _ content present
      exact ⟨kept, by rwa [same], by rwa [same, keeps.1, identity]⟩
    · exact partitioned.current other here old
  · intro other here there
    rcases (process_set found).mp there with ⟨rfl, rfl⟩ | ⟨_, old⟩
    · rw [size]
      exact partitioned.bounded other running found
    · exact partitioned.bounded other here old

theorem own_store {other : Nat}
    (own : Own base { tree with processes := tree.processes.set process (running.store identity) } other object
      content) :
    Own base tree other object content ∨ other = process ∧ object = running.heap.length ∧ content = (identity, 0) := by
  rcases (own_set found other).mp own with ⟨rfl, beyond, there⟩ | ⟨_, old⟩
  · rcases located_append there with before | last
    · exact .inl ⟨running, found, beyond, before⟩
    · exact .inr ⟨rfl, last⟩
  · exact .inl old

include partitioned in
theorem partitioned_store (located : locals[thread]? = some (drew process identity.runNonce)) :
    Partitioned base { tree with processes := tree.processes.set process (running.store identity) }
      (locals.set thread (owner process running.heap.length identity.runNonce) ++ []) := by
  obtain ⟨drawn, unowned⟩ := partitioned.stages thread _ located
  have inherited := partitioned.bounded process running found
  have carries : Carries base base tree
      { tree with processes := tree.processes.set process (running.store identity) } := by
    refine carries_set found ⟨rfl, fun index content stays => ⟨content, ?_, rfl, Nat.le_refl _⟩⟩
    exact (List.getElem?_append_left (List.getElem?_eq_some_iff.mp stays).1).trans stays
  refine ⟨?_, ?_, ?_, ?_, ?_, ?_, ?_⟩
  · intro other object content own
    rcases own_store found own with old | ⟨_, _, rfl⟩
    · exact partitioned.drawn other object content old
    · exact drawn
  · intro first object content second object' content' own own' same
    rcases own_store found own with old | ⟨rfl, rfl, rfl⟩ <;> rcases own_store found own' with old' | ⟨rfl, rfl, rfl⟩
    · exact partitioned.apart first object content second object' content' old old' same
    · exact absurd same (unowned first object content old)
    · exact absurd same.symm (unowned second object' content' old')
    · exact ⟨rfl, rfl⟩
  · intro other here there
    rcases (process_set found).mp there with ⟨rfl, rfl⟩ | ⟨_, old⟩
    · exact ⟨(identity, 0), by simp [IdProcess.store], Or.inl inherited⟩
    · exact partitioned.current other here old
  · intro other here there
    rcases (process_set found).mp there with ⟨rfl, rfl⟩ | ⟨_, old⟩
    · simp only [IdProcess.store, List.length_append]
      omega
    · exact partitioned.bounded other here old
  · refine stages_after partitioned.stages located ?_ fun other stage apart there known => ?_
    · refine ⟨(identity, 0), (own_set found process).mpr (.inl ⟨rfl, inherited, ?_⟩), rfl⟩
      simp [IdProcess.store]
    · refine carries.stageFits ?_ known
      rintro _ nonce rfl first object content owned
      rcases own_store found owned with old | ⟨_, _, rfl⟩
      · exact known.2 first object content old
      · intro same
        exact apart (partitioned.heldApart other thread _ _ nonce there located rfl (congrArg some same))
  · exact Pool.keyed_after partitioned.heldApart located (by simp [AllocationStage.held])
  · exact Pool.keyed_after partitioned.issuedApart located (by simp [AllocationStage.issue])

include partitioned in
theorem partitioned_next (located : locals[thread]? = some (owner process object nonce)) :
    Partitioned base { tree with processes := tree.processes.set process (running.next object).1 }
      (locals.set thread (issued nonce (running.next object).2) ++ []) := by
  obtain ⟨content, held, named⟩ := partitioned.stages thread _ located
  obtain ⟨here, found', beyond, there⟩ := id held
  obtain rfl : here = running := Option.mem_unique found' found
  have bound := (List.getElem?_eq_some_iff.mp there).1
  have moved : here.next object =
      ({ here with heap := here.heap.set object (content.1, content.2 + 1) }, content.2) := by
    simp [IdProcess.next, there]
  rw [moved]
  refine partitioned_set (partitioned_touch partitioned found ⟨rfl, ?_⟩ rfl List.length_set) located ?_ rfl ?_
  · intro index kept stays
    by_cases this : index = object
    · subst this
      obtain rfl : kept = content := Option.mem_unique stays there
      exact ⟨_, List.getElem?_set_self bound, rfl, Nat.le_succ _⟩
    · exact ⟨kept, (List.getElem?_set_ne (Ne.symm this)).trans stays, rfl, Nat.le_refl _⟩
  · refine ⟨process, object, (content.1, content.2 + 1), ?_, named, Nat.lt_succ_self _⟩
    exact (own_set found process).mpr (.inl ⟨rfl, beyond, List.getElem?_set_self bound⟩)
  · rintro _ ⟨⟩ other stage _ position issues
    have known := partitioned.stages other stage position
    cases stage with
    | issued =>
      obtain ⟨rfl, rfl⟩ := Prod.mk.inj (Option.some.inj issues)
      obtain ⟨first, index, before, old, name, below⟩ := known
      obtain ⟨rfl, rfl⟩ := partitioned.apart first index before process object content old held (name.trans named.symm)
      rw [own_unique old held] at below
      omega
    | _ => cases issues

include partitioned in
theorem partitioned_exit :
    Partitioned base { tree with processes := tree.processes.set process { running with live := false } } locals :=
  partitioned_touch partitioned found running.keeps_self rfl rfl

end

end

def withChild (base : Nat → Nat) (child inherited process : Nat) : Nat :=
  if process = child then inherited else base process

theorem partitioned_fork {base : Nat → Nat} {tree : ForkTree} {locals : List AllocationStage}
    {parent : Nat} {running : IdProcess} {pid : Int} (partitioned : Partitioned base tree locals)
    (found : tree.processes[parent]? = some running) (unused : running.load.2.originPid ≠ pid) :
    Partitioned (withChild base tree.processes.length running.heap.length)
      { tree with processes := tree.processes ++ [{ running with pid := pid }] } locals := by
  have older {process : Nat} {here : IdProcess} (there : tree.processes[process]? = some here) :
      process < tree.processes.length := (List.getElem?_eq_some_iff.mp there).1
  have child : withChild base tree.processes.length running.heap.length tree.processes.length =
      running.heap.length := if_pos rfl
  have others {process : Nat} {here : IdProcess} (there : tree.processes[process]? = some here) :
      withChild base tree.processes.length running.heap.length process = base process :=
    if_neg (Nat.ne_of_lt (older there))
  refine partitioned_change partitioned ⟨⟨rfl, rfl⟩, ?_⟩ ?_ ?_ ?_
  · intro process here old
    exact ⟨others old, here, (List.getElem?_append_left (older old)).trans old, here.keeps_self⟩
  · rintro process object content ⟨here, there, beyond, stays⟩
    rcases located_append there with old | ⟨rfl, rfl⟩
    · rw [others old] at beyond
      exact ⟨content, ⟨here, old, beyond, stays⟩, rfl⟩
    · rw [child] at beyond
      have bound := (List.getElem?_eq_some_iff.mp stays).1
      exact absurd bound (Nat.not_lt.mpr beyond)
  · intro process here there
    rcases located_append there with old | ⟨rfl, rfl⟩
    · rw [others old]
      exact partitioned.current process here old
    · obtain ⟨content, stays, _⟩ := partitioned.current parent running found
      have identity : running.load.2 = content.1 := by simp [IdProcess.load, stays]
      exact ⟨content, stays, Or.inr (identity ▸ unused)⟩
  · intro process here there
    rcases located_append there with old | ⟨rfl, rfl⟩
    · rw [others old]
      exact partitioned.bounded process here old
    · rw [child]

theorem allocations_sound :
    Pool.Sound forkMachine allocationDiscipline Returns Namespaced
      (fun config action => runsAllocations config action ∧ originUnused config action) where
  step config locals thread stage call allowed pending namespaced located may := by
    obtain ⟨base, partitioned⟩ := namespaced
    have alive := allowed.1 call pending
    refine ⟨trivial, [], .nil, base, ?_⟩
    cases call with
    | loadIdentity process =>
      obtain ⟨running, found, _⟩ := alive process rfl
      simp only [forkMachine, ForkTree.exec, found]
      refine partitioned_quiet partitioned located ?_ rfl rfl
      obtain ⟨content, there, owned⟩ := partitioned.current process running found
      have identity : running.load.2 = content.1 := by simp [IdProcess.load, there]
      change StageFits base config.state (loaded process running.load.1 running.load.2)
      rw [identity]
      exact ⟨running, content, found, there, rfl, owned⟩
    | getpid process =>
      obtain ⟨running, found, _⟩ := alive process rfl
      simp only [forkMachine, ForkTree.exec, found]
      have unchanged (same : allocationDiscipline.after stage (.getpid process) running.pid = stage) :
          Partitioned base config.state (locals.set thread
            (allocationDiscipline.after stage (.getpid process) running.pid) ++ []) := by
        have resting : locals.set thread stage = locals := by
          obtain ⟨bound, value⟩ := List.getElem?_eq_some_iff.mp located
          rw [← value, List.set_getElem_self]
        rw [same, resting, List.append_nil]
        exact partitioned
      cases stage with
      | loaded own =>
        obtain rfl : own = process := may
        exact partitioned_getpid partitioned located found
      | repairing own | drew own nonce => exact unchanged rfl
      | _ => cases may
    | tokenHex =>
      obtain ⟨process, rfl⟩ := may
      exact partitioned_tokenHex partitioned located
    | storeIdentity process identity =>
      obtain ⟨running, found, _⟩ := alive process rfl
      simp only [forkMachine, ForkTree.exec, found]
      obtain rfl : stage = drew process identity.runNonce := may
      exact partitioned_store partitioned found located
    | nextSeq process =>
      obtain ⟨running, found, _⟩ := alive process rfl
      simp only [forkMachine, ForkTree.exec, found]
      obtain ⟨nonce, rfl⟩ := may
      exact partitioned_next partitioned found located
  disturb config locals change allowed namespaced := by
    obtain ⟨base, partitioned⟩ := namespaced
    cases change with
    | fork =>
      simp only [forkMachine, ForkTree.disturb]
      split
      · rename_i running found
        split
        · exact ⟨_, partitioned_fork partitioned found (allowed.2 running found)⟩
        · exact ⟨base, partitioned⟩
      · exact ⟨base, partitioned⟩
    | exit =>
      simp only [forkMachine, ForkTree.disturb]
      split
      · rename_i running found
        exact ⟨base, partitioned_exit partitioned found⟩
      · exact ⟨base, partitioned⟩
  spawn config locals program allowed namespaced := by
    obtain ⟨base, partitioned⟩ := namespaced
    obtain ⟨process, rfl⟩ := allowed.1
    refine ⟨begun process, allocateId_obeys process, base,
      { partitioned with stages := ?_, heldApart := ?_, issuedApart := ?_ }⟩
    · intro thread stage there
      rcases located_append there with before | ⟨_, rfl⟩
      · exact partitioned.stages thread stage before
      · trivial
    · exact Pool.keyed_append partitioned.heldApart rfl
    · exact Pool.keyed_append partitioned.issuedApart rfl

theorem namespaced_constructed (source : NonceSource) (podId : String) (pid : Option Int) (current : Int) :
    Namespaced (constructed source podId pid current) [] [] := by
  have only {process : Nat} {running : IdProcess}
      (found : (constructed source podId pid current).processes[process]? = some running) :
      process = 0 ∧ running.heap.length = 1 ∧ running.entryIdentity = 0 := by
    cases process with
    | zero =>
      obtain rfl := some.inj found
      exact ⟨rfl, rfl, rfl⟩
    | succ => simp [constructed] at found
  have first {process object : Nat} {content : EntryIdentity × Nat}
      (own : Own (fun _ => 0) (constructed source podId pid current) process object content) :
      process = 0 ∧ object = 0 := by
    obtain ⟨running, found, _, stays⟩ := own
    obtain ⟨rfl, size, _⟩ := only found
    have bound := (List.getElem?_eq_some_iff.mp stays).1
    exact ⟨rfl, by omega⟩
  refine ⟨fun _ => 0, ?_, ?_, ?_, ?_, ?_, keyed_nil _, keyed_nil _⟩
  · intro process object content own
    obtain ⟨rfl, rfl⟩ := first own
    obtain ⟨running, found, _, stays⟩ := own
    obtain rfl := some.inj found
    obtain rfl := some.inj stays
    exact ⟨0, Nat.one_pos, rfl⟩
  · intro process object content process' object' content' own own' _
    obtain ⟨rfl, rfl⟩ := first own
    obtain ⟨rfl, rfl⟩ := first own'
    exact ⟨rfl, rfl⟩
  · intro process running found
    obtain ⟨rfl, _, identity⟩ := only found
    obtain rfl := some.inj found
    exact ⟨_, rfl, Or.inl (Nat.zero_le _)⟩
  · intro process running found
    exact Nat.zero_le _
  · intro thread stage there
    simp at there

/-- As long as no fork hands out the pid recorded in the identity the forking process holds, no two
allocations anywhere in the tree return the same id. -/
theorem entry_ids_unique (source : NonceSource) (podId : String) (pid : Option Int) (current : Int)
    (schedule : List IdAction)
    (allocations : forkMachine.Always runsAllocations (start (constructed source podId pid current)) schedule)
    (unused : forkMachine.Always originUnused (start (constructed source podId pid current)) schedule) :
    ∀ thread thread' id,
      (forkMachine.run (start (constructed source podId pid current)) schedule).finished thread = some id →
      (forkMachine.run (start (constructed source podId pid current)) schedule).finished thread' = some id →
      thread = thread' := by
  intro thread thread' id returned returned'
  have started : Coherent allocationDiscipline Returns Namespaced (start (constructed source podId pid current)) :=
    ⟨[], .nil, namespaced_constructed source podId pid current⟩
  have allowed := forkMachine.always_and allocations unused
  obtain ⟨locals, obeys, base, partitioned⟩ := allocations_sound.run allowed started
  have issuedFor {thread : Nat}
      (ended : (forkMachine.run (start (constructed source podId pid current)) schedule).finished thread = some id) :
      ∃ (identity : EntryIdentity) (seq : Nat), locals[thread]? = some (issued identity.runNonce seq) ∧
        id = identity.entryId seq ∧ ':' ∉ identity.runNonce.toList := by
    rw [Config.finished_eq_some] at ended
    obtain ⟨stage, located, identity, seq, rfl, named⟩ := forall₂_getElem? obeys ended
    obtain ⟨process, object, content, own, same, _⟩ := partitioned.stages thread _ located
    obtain ⟨draw, _, drawn⟩ := partitioned.drawn process object content own
    refine ⟨identity, seq, located, named, ?_⟩
    rw [← same, drawn]
    exact NonceSource.plain _ draw
  obtain ⟨identity, seq, located, named, plain⟩ := issuedFor returned
  obtain ⟨identity', seq', located', named', plain'⟩ := issuedFor returned'
  obtain ⟨nonces, numbers⟩ := entryId_inj plain plain' (named.symm.trans named')
  refine partitioned.issuedApart thread thread' _ _ (identity.runNonce, seq) located located' rfl ?_
  rw [nonces, numbers]
  rfl

def numberedSource : NonceSource where
  tokenHex draw := draw.repr
  distinct _ _ same := repr_injective same
  plain := colon_notMem_repr

def rootProcess : IdConfig :=
  Pool.start (constructed numberedSource "pod" none 100)

theorem runsAllocations_of_live {config : IdConfig} {thread : Nat}
    (checked : ((config.pending thread).all fun call => call.process.all fun process =>
      config.state.processes[process]?.any fun running => running.live) = true) :
    runsAllocations config (.step thread) := by
  intro call pending process named
  have each := (all_eq_true _ _).mp checked call pending
  have live := (all_eq_true _ _).mp each process named
  exact (any_eq_true _ _).mp live

def childRun : List IdAction :=
  [.disturb (.fork 0 101), .spawn (allocateId 1), .spawn (allocateId 0), .step 0, .step 0, .step 0, .step 0,
    .step 0, .step 0, .step 0, .step 1, .step 1, .step 1]

theorem child_allocates_own_ids :
    (∀ thread thread' id, (forkMachine.run rootProcess childRun).finished thread = some id →
      (forkMachine.run rootProcess childRun).finished thread' = some id → thread = thread') ∧
      (forkMachine.run rootProcess childRun).finished 0 = some "pod:101:1:0" ∧
      (forkMachine.run rootProcess childRun).finished 1 = some "pod:100:0:0" := by
  refine ⟨entry_ids_unique numberedSource "pod" none 100 childRun ?_ ?_, by decide +kernel, by decide +kernel⟩
  · refine ⟨trivial, ⟨1, rfl⟩, ⟨0, rfl⟩, ?_, ?_, ?_, ?_, ?_, ?_, ?_, ?_, ?_, ?_, trivial⟩ <;>
      exact runsAllocations_of_live (by decide +kernel)
  · refine ⟨?_, trivial, trivial, trivial, trivial, trivial, trivial, trivial, trivial, trivial, trivial,
      trivial, trivial, trivial⟩
    intro running found
    obtain rfl := some.inj found
    decide

def reusedPidRun : List IdAction :=
  [.disturb (.fork 0 101), .spawn (allocateId 0), .step 0, .step 0, .step 0, .disturb (.exit 0),
    .disturb (.fork 1 100), .spawn (allocateId 2), .step 1, .step 1, .step 1]

theorem reused_pid_repeats_id :
    forkMachine.Always runsAllocations rootProcess reusedPidRun ∧
      (forkMachine.run rootProcess reusedPidRun).finished 0 = some "pod:100:0:0" ∧
      (forkMachine.run rootProcess reusedPidRun).finished 1 = some "pod:100:0:0" := by
  refine ⟨?_, by decide +kernel, by decide +kernel⟩
  refine ⟨trivial, ⟨0, rfl⟩, ?_, ?_, ?_, trivial, trivial, ⟨2, rfl⟩, ?_, ?_, ?_, trivial⟩ <;>
    exact runsAllocations_of_live (by decide +kernel)

end Baldur.Dlq
