import ExchangeMatching.Library.Processes
import Mathlib.Data.List.Basic
import Mathlib.Tactic.SplitIfs

/-! One instance of a service that works off batches of rows in the callbacks of
an event loop. It keeps the promise of its loop, so that a second call joins the
loop that is under way, and on shutdown it waits for what is under way. Whatever
the instance awaits may settle at any time and in any order; between two such
callbacks its code runs without interruption. -/
namespace SingleFlight

open Processes

variable {Command : Type → Type} {Failure Row : Type}

/-- Pruning of old rows, at most once in an interval unless it fails. -/
structure Maintenance (Command : Type → Type) where
  interval : Nat
  prune : Nat → Command Unit

/-- What a service does: claim a batch, attempt one row and tell whether that
failed, and perhaps prune. -/
structure Worker (Command : Type → Type) (Failure Row : Type) where
  claim : Command (List Row)
  attempt : Row → Process Command Failure Bool
  maintenance : Option (Maintenance Command)

/-- A dispatch loop: it awaits its claim, or a command of the row that it
attempts, or it has ended and the callback that clears its promise is due. -/
inductive Flight (Command : Type → Type) (Failure Row : Type) : Type 1 where
  | claiming
  | attempting (process : Process Command Failure Bool) (rest : List Row) (hasFailedDispatch : Bool)
  | ended (result : Except Failure Unit)

/-- A prune, whether maintenance asked for it, and its outcome once it has one. -/
structure Pruning (Failure : Type) where
  scheduled : Bool
  outcome : Option (Except Failure Unit)

/-- What an instance has issued, with the promise of the loop that did. -/
inductive Entry (Command : Type → Type) (Row : Type) : Type 1 where
  | claim (loop : Nat)
  | batch (loop : Nat) (rows : List Row)
  | attempt (loop : Nat) (row : Row)
  | command (loop : Nat) {Reply : Type} (command : Command Reply)
  | prune (command : Command Unit)

/-- The fields of an instance, the loops and prunes whose promises have not
settled, the shutdown hooks that wait for the promises they found, whether one of
them has resolved, and a log. -/
structure Dispatcher (Command : Type → Type) (Failure Row : Type) : Type 1 where
  stopping : Bool
  dispatchPromise : Option Nat
  maintenancePromise : Option Nat
  lastMaintenanceAt : Option Nat
  promises : Nat
  loops : List (Nat × Flight Command Failure Row)
  prunes : List (Nat × Pruning Failure)
  /-- Failed maintenance runs that have yet to forget when they ran. -/
  forgetting : Nat
  hooks : List (Option Nat × Option Nat)
  resolved : Bool
  log : List (Entry Command Row)

/-- The entry of a promise is replaced. -/
def put {Value : Type*} (entries : List (Nat × Value)) (promise : Nat) (value : Value) :
    List (Nat × Value) :=
  entries.map fun entry => if entry.1 = promise then (promise, value) else entry

/-- The promise settles. -/
def remove {Value : Type*} (entries : List (Nat × Value)) (promise : Nat) : List (Nat × Value) :=
  entries.filter (·.1 ≠ promise)

/-- The code of a loop from a reply to its next await. -/
def Worker.advance (worker : Worker Command Failure Row) (stopping : Bool) (loop : Nat) :
    Process Command Failure Bool → List Row → Bool →
      Flight Command Failure Row × List (Entry Command Row)
  | .issue command next, rest, hasFailedDispatch =>
      (.attempting (.issue command next) rest hasFailedDispatch, [.command loop command])
  | .throw failure, _, _ => (.ended (.error failure), [])
  | .pure failed, [], hasFailedDispatch =>
      if hasFailedDispatch || failed || stopping then (.ended (.ok ()), [])
      else (.claiming, [.claim loop])
  | .pure failed, row :: rest, hasFailedDispatch =>
      let out := worker.advance stopping loop (worker.attempt row) rest
        (hasFailedDispatch || failed)
      (out.1, .attempt loop row :: out.2)

/-- The same after a claim. -/
def Worker.claimed (worker : Worker Command Failure Row) (stopping : Bool) (loop : Nat) :
    Except Failure (List Row) → Flight Command Failure Row × List (Entry Command Row)
  | .error failure => (.ended (.error failure), [])
  | .ok [] => (.ended (.ok ()), [])
  | .ok (row :: rows) =>
      let out := worker.advance stopping loop (.pure false) (row :: rows) false
      (out.1, .batch loop (row :: rows) :: out.2)

namespace Dispatcher

/-- An instance that has done nothing. -/
def start : Dispatcher Command Failure Row where
  stopping := false
  dispatchPromise := none
  maintenancePromise := none
  lastMaintenanceAt := none
  promises := 0
  loops := []
  prunes := []
  forgetting := 0
  hooks := []
  resolved := false
  log := []

variable (worker : Worker Command Failure Row) (dispatcher : Dispatcher Command Failure Row)

def dispatchPending : Dispatcher Command Failure Row :=
  if dispatcher.stopping then dispatcher
  else
    match dispatcher.dispatchPromise with
    | some _ => dispatcher
    | none => { dispatcher with
        dispatchPromise := some dispatcher.promises
        promises := dispatcher.promises + 1
        loops := dispatcher.loops ++ [(dispatcher.promises, .claiming)]
        log := dispatcher.log ++ [.claim dispatcher.promises] }

def dispatchInBackground : Dispatcher Command Failure Row :=
  if dispatcher.dispatchPromise.isSome || dispatcher.stopping then dispatcher
  else dispatcher.dispatchPending

def pruneExpiredEvents (maintenance : Maintenance Command) (scheduled : Bool) (now : Nat) :
    Dispatcher Command Failure Row :=
  if dispatcher.stopping then dispatcher
  else
    match dispatcher.maintenancePromise with
    | some _ => dispatcher
    | none => { dispatcher with
        maintenancePromise := some dispatcher.promises
        promises := dispatcher.promises + 1
        prunes := dispatcher.prunes ++ [(dispatcher.promises, ⟨scheduled, none⟩)]
        log := dispatcher.log ++ [.prune (maintenance.prune now)] }

def runMaintenanceIfDue (maintenance : Maintenance Command) (now : Nat) :
    Dispatcher Command Failure Row :=
  if dispatcher.stopping || dispatcher.maintenancePromise.isSome then dispatcher
  else if dispatcher.lastMaintenanceAt.any (fun last => now - last < maintenance.interval) then
    dispatcher
  else { dispatcher with lastMaintenanceAt := some now }.pruneExpiredEvents maintenance true now

/-- A tick of the timer, and the initialisation as well. A tick may come at any
time, even from a timer that has been cleared. -/
def tick (now : Nat) : Dispatcher Command Failure Row :=
  match worker.maintenance with
  | none => dispatcher.dispatchInBackground
  | some maintenance => dispatcher.dispatchInBackground.runMaintenanceIfDue maintenance now

/-- Both shutdown hooks. The hook waits for what is under way. -/
def onApplicationShutdown : Dispatcher Command Failure Row :=
  { dispatcher with
    stopping := true
    hooks := (dispatcher.dispatchPromise, dispatcher.maintenancePromise) :: dispatcher.hooks }

/-- A loop goes on. -/
def resume (loop : Nat) (out : Flight Command Failure Row × List (Entry Command Row)) :
    Dispatcher Command Failure Row :=
  { dispatcher with
    loops := put dispatcher.loops loop out.1
    log := dispatcher.log ++ out.2 }

/-- What may happen next. -/
inductive Step : Dispatcher Command Failure Row → Dispatcher Command Failure Row → Prop where
  | dispatchPending {dispatcher : Dispatcher Command Failure Row} :
      Step dispatcher dispatcher.dispatchPending
  | tick {dispatcher : Dispatcher Command Failure Row} (now : Nat) :
      Step dispatcher (dispatcher.tick worker now)
  | pruneExpiredEvents {dispatcher : Dispatcher Command Failure Row}
      {maintenance : Maintenance Command}
      (now : Nat) (maintains : worker.maintenance = some maintenance) :
      Step dispatcher (dispatcher.pruneExpiredEvents maintenance false now)
  | onApplicationShutdown {dispatcher : Dispatcher Command Failure Row} :
      Step dispatcher dispatcher.onApplicationShutdown
  | claimed {dispatcher : Dispatcher Command Failure Row} {loop : Nat}
      (reply : Except Failure (List Row)) (awaits : (loop, .claiming) ∈ dispatcher.loops) :
      Step dispatcher (dispatcher.resume loop (worker.claimed dispatcher.stopping loop reply))
  | replied {dispatcher : Dispatcher Command Failure Row} {loop : Nat} {Reply : Type}
      {command : Command Reply} {next : Except Failure Reply → Process Command Failure Bool}
      {rest : List Row} {hasFailedDispatch : Bool} (reply : Except Failure Reply)
      (awaits : (loop, .attempting (.issue command next) rest hasFailedDispatch) ∈
        dispatcher.loops) :
      Step dispatcher (dispatcher.resume loop
        (worker.advance dispatcher.stopping loop (next reply) rest hasFailedDispatch))
  | cleared {dispatcher : Dispatcher Command Failure Row} {loop : Nat}
      {result : Except Failure Unit} (ended : (loop, .ended result) ∈ dispatcher.loops) :
      Step dispatcher { dispatcher with
        dispatchPromise := none, loops := remove dispatcher.loops loop }
  | pruned {dispatcher : Dispatcher Command Failure Row} {prune : Nat} {scheduled : Bool}
      (outcome : Except Failure Unit) (awaits : (prune, ⟨scheduled, none⟩) ∈ dispatcher.prunes) :
      Step dispatcher { dispatcher with
        prunes := put dispatcher.prunes prune ⟨scheduled, some outcome⟩ }
  | pruneCleared {dispatcher : Dispatcher Command Failure Row} {prune : Nat} {scheduled : Bool}
      {outcome : Except Failure Unit}
      (ended : (prune, ⟨scheduled, some outcome⟩) ∈ dispatcher.prunes) :
      Step dispatcher { dispatcher with
        maintenancePromise := none
        prunes := remove dispatcher.prunes prune
        forgetting := dispatcher.forgetting + if scheduled && !outcome.isOk then 1 else 0 }
  | forgotten {dispatcher : Dispatcher Command Failure Row} {forgetting : Nat}
      (due : dispatcher.forgetting = forgetting + 1) :
      Step dispatcher { dispatcher with lastMaintenanceAt := none, forgetting := forgetting }
  | resolved {dispatcher : Dispatcher Command Failure Row} {hook : Option Nat × Option Nat}
      (waits : hook ∈ dispatcher.hooks)
      (dispatched : ∀ entry ∈ dispatcher.loops, hook.1 ≠ some entry.1)
      (maintained : ∀ entry ∈ dispatcher.prunes, hook.2 ≠ some entry.1) :
      Step dispatcher { dispatcher with resolved := true }

/-- What any interleaving leads to. -/
def Reaches : Dispatcher Command Failure Row → Dispatcher Command Failure Row → Prop :=
  Relation.ReflTransGen (Step worker)

end Dispatcher

/-- The process never throws. -/
def Catches {Result : Type} : Process Command Failure Result → Prop
  | .pure _ => True
  | .throw _ => False
  | .issue _ next => ∀ reply, Catches (next reply)

/-- A sequence throws only where one of its parts does. -/
theorem Catches.bind {Result Result' : Type} {process : Process Command Failure Result}
    {next : Result → Process Command Failure Result'} (h : Catches process)
    (hNext : ∀ result, Catches (next result)) : Catches (process >>= next) := by
  induction process with
  | pure result => exact hNext result
  | throw failure => exact absurd h id
  | issue command rest ih => exact fun reply => ih reply (h reply)

/-- What is thrown inside is caught. -/
theorem catches_attempt {Result : Type} (process : Process Command Failure Result) :
    Catches process.attempt := by
  induction process with
  | pure result => trivial
  | throw failure => trivial
  | issue command rest ih => exact fun reply => ih reply

/-- The rows that a loop has claimed. -/
def batches (loop : Nat) (log : List (Entry Command Row)) : List Row :=
  log.flatMap fun
    | .batch other rows => if other = loop then rows else []
    | _ => []

/-- The rows that a loop has attempted. -/
def attempts (loop : Nat) (log : List (Entry Command Row)) : List Row :=
  log.flatMap fun
    | .attempt other row => if other = loop then [row] else []
    | _ => []

/-- The claimed rows that a loop has yet to attempt. -/
def Flight.rest : Flight Command Failure Row → List Row
  | .attempting _ rest _ => rest
  | _ => []

/-- A loop that attempts a row awaits one of its commands. -/
def Flight.Catches : Flight Command Failure Row → Prop
  | .attempting (.issue _ next) _ _ => ∀ reply, SingleFlight.Catches (next reply)
  | .attempting _ _ _ => False
  | _ => True

/-- The code of a loop attempts the claimed rows one after another, and nothing
else. -/
structure Continues (loop : Nat) (rest : List Row)
    (out : Flight Command Failure Row × List (Entry Command Row)) : Prop where
  catches : out.1.Catches
  attempted : rest ++ batches loop out.2 = attempts loop out.2 ++ out.1.rest
  others : ∀ other ≠ loop, batches other out.2 = [] ∧ attempts other out.2 = []

/-- Finitely many replies lead a loop through the rest of its batch, whatever
they are. -/
inductive Drains (worker : Worker Command Failure Row) (loop : Nat) :
    Flight Command Failure Row → Prop where
  | drained {flight : Flight Command Failure Row} (done : flight.rest = []) :
      Drains worker loop flight
  | replied {Reply : Type} {command : Command Reply}
      {next : Except Failure Reply → Process Command Failure Bool} {rest : List Row}
      {hasFailedDispatch : Bool}
      (goes : ∀ stopping reply,
        Drains worker loop (worker.advance stopping loop (next reply) rest hasFailedDispatch).1) :
      Drains worker loop (.attempting (.issue command next) rest hasFailedDispatch)

section Code

variable {worker : Worker Command Failure Row} {loop : Nat}

/-- What a loop has claimed is read off the log, entry by entry. -/
theorem batches_append (log log' : List (Entry Command Row)) :
    batches loop (log ++ log') = batches loop log ++ batches loop log' := List.flatMap_append ..

/-- And so is what it has attempted. -/
theorem attempts_append (log log' : List (Entry Command Row)) :
    attempts loop (log ++ log') = attempts loop log ++ attempts loop log' := List.flatMap_append ..

/-- What is not a batch or an attempt of a loop does not count for it. -/
theorem accounts_append {log' : List (Entry Command Row)} (log : List (Entry Command Row))
    (hBatches : batches loop log' = []) (hAttempts : attempts loop log' = []) :
    batches loop (log ++ log') = batches loop log ∧
    attempts loop (log ++ log') = attempts loop log := by
  rw [batches_append, attempts_append, hBatches, hAttempts, List.append_nil, List.append_nil]
  exact ⟨rfl, rfl⟩

/-- A loop that goes on attempts all rows that it has left, whatever fails. -/
theorem Worker.continues_advance (hAttempt : ∀ row, Catches (worker.attempt row)) (stopping : Bool)
    (process : Process Command Failure Bool) (hProcess : Catches process) (rest : List Row)
    (hasFailedDispatch : Bool) :
    Continues loop rest (worker.advance stopping loop process rest hasFailedDispatch) := by
  induction rest generalizing process hasFailedDispatch with
  | nil =>
      cases process with
      | pure failed =>
          unfold advance
          split_ifs
          · exact ⟨trivial, rfl, fun _ _ => ⟨rfl, rfl⟩⟩
          · exact ⟨trivial, rfl, fun _ _ => ⟨rfl, rfl⟩⟩
      | throw failure => exact absurd hProcess id
      | issue command next => exact ⟨hProcess, rfl, fun _ _ => ⟨rfl, rfl⟩⟩
  | cons row rest ih =>
      cases process with
      | pure failed =>
          have hNext := ih (worker.attempt row) (hAttempt row) (hasFailedDispatch || failed)
          unfold advance
          refine ⟨hNext.catches, ?_, fun other hOther => ?_⟩
          · have hRest := hNext.attempted
            simp only [batches, attempts, List.flatMap_cons, if_true] at hRest ⊢
            rw [List.nil_append, List.cons_append, hRest]
            rfl
          · have hOthers := hNext.others other hOther
            simp only [batches, attempts, List.flatMap_cons, if_neg hOther.symm] at hOthers ⊢
            exact hOthers
      | throw failure => exact absurd hProcess id
      | issue command next => exact ⟨hProcess, List.append_nil _, fun _ _ => ⟨rfl, rfl⟩⟩

/-- When a claim has been answered, the loop goes through the rows of the answer or
ends. -/
theorem Worker.continues_claimed (hAttempt : ∀ row, Catches (worker.attempt row)) (stopping : Bool)
    (reply : Except Failure (List Row)) :
    Continues loop [] (worker.claimed stopping loop reply) := by
  unfold claimed
  split
  · exact ⟨trivial, rfl, fun _ _ => ⟨rfl, rfl⟩⟩
  · exact ⟨trivial, rfl, fun _ _ => ⟨rfl, rfl⟩⟩
  · next row rows =>
    have hNext := @continues_advance _ _ _ worker loop hAttempt stopping (.pure false) trivial
      (row :: rows) false
    refine ⟨hNext.catches, ?_, fun other hOther => ?_⟩
    · have hRest := hNext.attempted
      simp only [batches, attempts, List.flatMap_cons, if_true] at hRest ⊢
      exact hRest
    · have hOthers := hNext.others other hOther
      simp only [batches, attempts, List.flatMap_cons, if_neg hOther.symm] at hOthers ⊢
      exact hOthers

/-- By induction on the rows that are left, the loop attempts each of them. -/
theorem Worker.drains_advance (hAttempt : ∀ row, Catches (worker.attempt row)) (stopping : Bool)
    (process : Process Command Failure Bool) (hProcess : Catches process) (rest : List Row)
    (hasFailedDispatch : Bool) :
    Drains worker loop (worker.advance stopping loop process rest hasFailedDispatch).1 := by
  induction rest generalizing process hasFailedDispatch stopping with
  | nil =>
      refine .drained ?_
      cases process with
      | pure failed =>
          unfold advance
          split_ifs
          · rfl
          · rfl
      | throw failure => rfl
      | issue command next => rfl
  | cons row rest ih =>
      induction process generalizing stopping with
      | pure failed =>
          exact ih stopping (worker.attempt row) (hAttempt row) (hasFailedDispatch || failed)
      | throw failure => exact absurd hProcess id
      | issue command next ihNext =>
          exact .replied fun stopping reply => ihNext reply stopping (hProcess reply)

/-- Whatever a loop is waiting for, it drains from there. -/
theorem Flight.Catches.drains {flight : Flight Command Failure Row}
    (hAttempt : ∀ row, SingleFlight.Catches (worker.attempt row)) (h : flight.Catches) :
    Drains worker loop flight := by
  cases flight with
  | claiming => exact .drained rfl
  | ended result => exact .drained rfl
  | attempting process rest hasFailedDispatch =>
      cases process with
      | pure failed => exact absurd h id
      | throw failure => exact absurd h id
      | issue command next =>
          exact .replied fun stopping reply =>
            worker.drains_advance hAttempt stopping (next reply) (h reply) rest hasFailedDispatch

end Code

namespace Dispatcher

variable {worker : Worker Command Failure Row}
  {dispatcher dispatcher' : Dispatcher Command Failure Row}

/-- The claimed rows that are left to a loop. -/
def remaining (dispatcher : Dispatcher Command Failure Row) (loop : Nat) : List Row :=
  dispatcher.loops.flatMap fun entry => if entry.1 = loop then entry.2.rest else []

/-- Promises that have not settled: one at most, which is the one that is kept. -/
def Kept {Value : Type*} (promise : Option Nat) (entries : List (Nat × Value)) : Prop :=
  entries = [] ∧ promise = none ∨ ∃ entry, entries = [entry] ∧ promise = some entry.1

/-- The one promise that is kept can make progress. -/
theorem Kept.put {Value : Type*} {promise : Option Nat} {entries : List (Nat × Value)} {key : Nat}
    {value : Value} (h : Kept promise entries) : Kept promise (put entries key value) := by
  rcases h with ⟨rfl, hNone⟩ | ⟨entry, rfl, hSome⟩
  · exact Or.inl ⟨rfl, hNone⟩
  · refine Or.inr ⟨_, rfl, ?_⟩
    dsimp only
    split_ifs with hKey
    · rw [hSome, hKey]
    · exact hSome

/-- A promise that has not settled is the one that is kept. -/
theorem Kept.eq_of_mem {Value : Type*} {promise : Option Nat} {entries : List (Nat × Value)}
    {entry : Nat × Value} (h : Kept promise entries) (hMem : entry ∈ entries) :
    entries = [entry] ∧ promise = some entry.1 := by
  rcases h with ⟨rfl, _⟩ | ⟨other, rfl, hSome⟩
  · cases hMem
  · obtain rfl := List.mem_singleton.mp hMem
    exact ⟨rfl, hSome⟩

/-- The entry that settles was the only one. -/
theorem Kept.remove_eq_nil {Value : Type*} {promise : Option Nat} {entries : List (Nat × Value)}
    {entry : Nat × Value} (h : Kept promise entries) (hMem : entry ∈ entries) :
    remove entries entry.1 = [] := by
  rw [(h.eq_of_mem hMem).1, remove]
  simp

/-- So there is never more than one flight. -/
theorem Kept.length_le {Value : Type*} {promise : Option Nat} {entries : List (Nat × Value)}
    (h : Kept promise entries) : entries.length ≤ 1 := by
  rcases h with ⟨rfl, _⟩ | ⟨entry, rfl, _⟩
  · exact Nat.zero_le 1
  · exact Nat.le_refl 1

/-- Without flights there is no promise. -/
theorem Kept.eq_none {Value : Type*} {promise : Option Nat} {entries : List (Nat × Value)}
    (h : Kept promise entries) (hNil : entries = []) : promise = none := by
  rcases h with ⟨_, hNone⟩ | ⟨entry, hEntry, _⟩
  · exact hNone
  · rw [hNil] at hEntry
    cases hEntry

/-- And without a promise no flight. -/
theorem Kept.eq_nil {Value : Type*} {promise : Option Nat} {entries : List (Nat × Value)}
    (h : Kept promise entries) (hNone : promise = none) : entries = [] := by
  rcases h with ⟨hNil, _⟩ | ⟨entry, _, hSome⟩
  · exact hNil
  · rw [hNone] at hSome
    cases hSome

/-- What holds of an instance between any two callbacks. -/
structure Sound (dispatcher : Dispatcher Command Failure Row) : Prop where
  loops : Kept dispatcher.dispatchPromise dispatcher.loops
  prunes : Kept dispatcher.maintenancePromise dispatcher.prunes
  catches : ∀ entry ∈ dispatcher.loops, entry.2.Catches
  issued : ∀ entry ∈ dispatcher.loops, entry.1 < dispatcher.promises
  fresh : ∀ loop ≥ dispatcher.promises,
    batches loop dispatcher.log = [] ∧ attempts loop dispatcher.log = []
  attempted : ∀ loop, batches loop dispatcher.log =
    attempts loop dispatcher.log ++ dispatcher.remaining loop
  hooks : ∀ hook ∈ dispatcher.hooks, dispatcher.stopping = true ∧
    (∀ entry ∈ dispatcher.loops, hook.1 = some entry.1) ∧
    ∀ entry ∈ dispatcher.prunes, hook.2 = some entry.1
  drained : dispatcher.resolved = true →
    dispatcher.stopping = true ∧ dispatcher.loops = [] ∧ dispatcher.prunes = []

/-- A new instance has promised nothing. -/
theorem sound_start : (start : Dispatcher Command Failure Row).Sound where
  loops := Or.inl ⟨rfl, rfl⟩
  prunes := Or.inl ⟨rfl, rfl⟩
  catches _ hEntry := by cases hEntry
  issued _ hEntry := by cases hEntry
  fresh _ _ := ⟨rfl, rfl⟩
  attempted _ := rfl
  hooks _ hHook := by cases hHook
  drained hResolved := by cases hResolved

/-- A second call finds the promise of the first and does not start a loop of its
own. -/
theorem Sound.dispatchPending (h : dispatcher.Sound) : dispatcher.dispatchPending.Sound := by
  unfold Dispatcher.dispatchPending
  split_ifs with hStopping
  · exact h
  · split
    · exact h
    · next hNone =>
      have hLoops : dispatcher.loops = [] := h.loops.eq_nil hNone
      have hEntries : ∀ loop, batches loop (dispatcher.log ++ [.claim dispatcher.promises]) =
            batches loop dispatcher.log ∧
          attempts loop (dispatcher.log ++ [.claim dispatcher.promises]) =
            attempts loop dispatcher.log := fun _ => accounts_append dispatcher.log rfl rfl
      have hKept := h.attempted
      unfold remaining at hKept
      rw [hLoops] at hKept
      refine ⟨Or.inr ⟨_, by rw [hLoops]; rfl, rfl⟩, h.prunes, ?_, ?_, fun loop hLoop => ?_,
        fun loop => ?_,
        fun hook hHook => absurd (h.hooks hook hHook).1 hStopping,
        fun hResolved => absurd (h.drained hResolved).1 hStopping⟩
      · rw [hLoops]
        intro entry hEntry
        rw [List.mem_singleton.mp hEntry]
        trivial
      · rw [hLoops]
        intro entry hEntry
        rw [List.mem_singleton.mp hEntry]
        exact Nat.lt_succ_self _
      · rw [(hEntries loop).1, (hEntries loop).2]
        exact h.fresh loop (Nat.le_of_succ_le hLoop)
      · rw [(hEntries loop).1, (hEntries loop).2, hKept loop]
        unfold remaining
        rw [hLoops]
        simp [Flight.rest]

/-- The same for a call that nobody waits for. -/
theorem Sound.dispatchInBackground
    (h : dispatcher.Sound) : dispatcher.dispatchInBackground.Sound := by
  unfold Dispatcher.dispatchInBackground
  split_ifs
  · exact h
  · exact h.dispatchPending

/-- Pruning is single as well, behind a promise of its own. -/
theorem Sound.pruneExpiredEvents (h : dispatcher.Sound) (maintenance : Maintenance Command)
    (scheduled : Bool) (now : Nat) :
    (dispatcher.pruneExpiredEvents maintenance scheduled now).Sound := by
  unfold Dispatcher.pruneExpiredEvents
  split_ifs with hStopping
  · exact h
  · split
    · exact h
    · next hNone =>
      have hPrunes : dispatcher.prunes = [] := h.prunes.eq_nil hNone
      have hEntries : ∀ loop, batches loop (dispatcher.log ++ [.prune (maintenance.prune now)]) =
            batches loop dispatcher.log ∧
          attempts loop (dispatcher.log ++ [.prune (maintenance.prune now)]) =
            attempts loop dispatcher.log := fun _ => accounts_append dispatcher.log rfl rfl
      refine ⟨h.loops, Or.inr ⟨_, by rw [hPrunes]; rfl, rfl⟩, h.catches,
        fun entry hEntry => Nat.lt_succ_of_lt (h.issued entry hEntry), fun loop hLoop => ?_,
          fun loop => ?_,
        fun hook hHook => absurd (h.hooks hook hHook).1 hStopping,
        fun hResolved => absurd (h.drained hResolved).1 hStopping⟩
      · rw [(hEntries loop).1, (hEntries loop).2]
        exact h.fresh loop (Nat.le_of_succ_le hLoop)
      · rw [(hEntries loop).1, (hEntries loop).2]
        exact h.attempted loop

/-- And scheduled maintenance is that pruning, when it is due. -/
theorem Sound.runMaintenanceIfDue (h : dispatcher.Sound) (maintenance : Maintenance Command)
    (now : Nat) : (dispatcher.runMaintenanceIfDue maintenance now).Sound := by
  unfold Dispatcher.runMaintenanceIfDue
  split_ifs
  · exact h
  · exact h
  · have hLater : { dispatcher with lastMaintenanceAt := some now }.Sound :=
      ⟨h.loops, h.prunes, h.catches, h.issued, h.fresh, h.attempted, h.hooks, h.drained⟩
    exact hLater.pruneExpiredEvents maintenance true now

/-- A loop that goes on keeps the account of its rows. -/
theorem Sound.resume (h : dispatcher.Sound) {loop : Nat} {flight : Flight Command Failure Row}
    {out : Flight Command Failure Row × List (Entry Command Row)}
    (hAwaits : (loop, flight) ∈ dispatcher.loops) (hOut : Continues loop flight.rest out) :
    (dispatcher.resume loop out).Sound := by
  obtain ⟨hLoops, hPromise⟩ := h.loops.eq_of_mem hAwaits
  have hPut : put dispatcher.loops loop out.1 = [(loop, out.1)] := by
    rw [hLoops, put, List.map_singleton, if_pos rfl]
  have hBefore := h.attempted
  unfold remaining at hBefore
  rw [hLoops] at hBefore
  refine ⟨h.loops.put, h.prunes, fun entry hEntry => ?_, fun entry hEntry => ?_,
    fun other hOther => ?_,
    fun other => ?_, fun hook hHook => ?_, fun hResolved => ?_⟩
  · change entry ∈ put dispatcher.loops loop out.1 at hEntry
    rw [hPut, List.mem_singleton] at hEntry
    rw [hEntry]
    exact hOut.catches
  · change entry ∈ put dispatcher.loops loop out.1 at hEntry
    rw [hPut, List.mem_singleton] at hEntry
    rw [hEntry]
    exact h.issued (loop, flight) hAwaits
  · have hNe : other ≠ loop :=
      fun hEq => absurd (h.issued _ hAwaits) (Nat.not_lt.mpr (hEq ▸ hOther))
    obtain ⟨hBatches, hAttempts⟩ := hOut.others other hNe
    obtain ⟨hNone, hNever⟩ := h.fresh other hOther
    change batches other (dispatcher.log ++ out.2) = [] ∧
      attempts other (dispatcher.log ++ out.2) = []
    rw [batches_append, attempts_append, hBatches, hAttempts, hNone, hNever]
    exact ⟨rfl, rfl⟩
  · change batches other (dispatcher.log ++ out.2) = attempts other (dispatcher.log ++ out.2) ++
      (put dispatcher.loops loop out.1).flatMap fun entry => if entry.1 =
        other then entry.2.rest else []
    rw [batches_append, attempts_append, hBefore, hPut, List.flatMap_singleton,
      List.flatMap_singleton]
    dsimp only
    split_ifs with hEq
    · subst hEq
      rw [List.append_assoc, hOut.attempted, List.append_assoc]
    · obtain ⟨hBatches, hAttempts⟩ := hOut.others other (Ne.symm hEq)
      rw [hBatches, hAttempts, List.append_nil]
  · obtain ⟨hStopping, hWaits, hPrunes⟩ := h.hooks hook hHook
    refine ⟨hStopping, fun entry hEntry => ?_, hPrunes⟩
    change entry ∈ put dispatcher.loops loop out.1 at hEntry
    rw [hPut, List.mem_singleton] at hEntry
    rw [hEntry]
    exact hWaits (loop, flight) hAwaits
  · rw [(h.drained hResolved).2.1] at hAwaits
    cases hAwaits

/-- Every callback keeps the invariant. -/
theorem Sound.step (h : dispatcher.Sound) (hAttempt : ∀ row, Catches (worker.attempt row))
    (hStep : Step worker dispatcher dispatcher') : dispatcher'.Sound := by
  cases hStep with
  | dispatchPending => exact h.dispatchPending
  | tick now =>
      unfold tick
      split
      · exact h.dispatchInBackground
      · exact h.dispatchInBackground.runMaintenanceIfDue _ now
  | pruneExpiredEvents now maintains => exact h.pruneExpiredEvents _ false now
  | onApplicationShutdown =>
      refine ⟨h.loops, h.prunes, h.catches, h.issued, h.fresh, h.attempted, fun hook hHook => ?_,
        fun hResolved => ⟨rfl, (h.drained hResolved).2⟩⟩
      rcases List.mem_cons.mp hHook with rfl | hOld
      · exact ⟨rfl, fun entry hEntry => (h.loops.eq_of_mem hEntry).2,
          fun entry hEntry => (h.prunes.eq_of_mem hEntry).2⟩
      · exact ⟨rfl, (h.hooks hook hOld).2⟩
  | claimed reply awaits => exact h.resume awaits (worker.continues_claimed hAttempt _ reply)
  | replied reply awaits =>
      exact h.resume awaits (worker.continues_advance hAttempt _ _ (h.catches _ awaits reply) _ _)
  | @cleared loop result ended =>
      obtain ⟨hLoops, _⟩ := h.loops.eq_of_mem ended
      have hNone : remove dispatcher.loops loop = [] := h.loops.remove_eq_nil ended
      have hBefore := h.attempted
      unfold remaining at hBefore
      rw [hLoops] at hBefore
      refine ⟨Or.inl ⟨hNone, rfl⟩, h.prunes, ?_, ?_, h.fresh, fun other => ?_,
        fun hook hHook => ?_,
        fun hResolved => ⟨(h.drained hResolved).1, hNone, (h.drained hResolved).2.2⟩⟩
      · rw [hNone]
        exact fun _ hEntry => by cases hEntry
      · rw [hNone]
        exact fun _ hEntry => by cases hEntry
      · rw [hBefore]
        unfold remaining
        rw [hNone]
        simp [Flight.rest]
      · obtain ⟨hStopping, _, hPrunes⟩ := h.hooks hook hHook
        refine ⟨hStopping, ?_, hPrunes⟩
        rw [hNone]
        exact fun _ hEntry => by cases hEntry
  | @pruned prune scheduled outcome awaits =>
      obtain ⟨hPrunes, _⟩ := h.prunes.eq_of_mem awaits
      refine ⟨h.loops, h.prunes.put, h.catches, h.issued, h.fresh, h.attempted,
        fun hook hHook => ?_,
        fun hResolved => ?_⟩
      · obtain ⟨hStopping, hLoops, hWaits⟩ := h.hooks hook hHook
        refine ⟨hStopping, hLoops, fun entry hEntry => ?_⟩
        rw [hPrunes, put, List.map_singleton, if_pos rfl, List.mem_singleton] at hEntry
        rw [hEntry]
        exact hWaits (prune, ⟨scheduled, none⟩) awaits
      · rw [(h.drained hResolved).2.2] at awaits
        cases awaits
  | @pruneCleared prune scheduled outcome ended =>
      have hNone : remove dispatcher.prunes prune = [] := h.prunes.remove_eq_nil ended
      refine ⟨h.loops, Or.inl ⟨hNone, rfl⟩, h.catches, h.issued, h.fresh, h.attempted,
        fun hook hHook => ?_, fun hResolved =>
          ⟨(h.drained hResolved).1, (h.drained hResolved).2.1, hNone⟩⟩
      obtain ⟨hStopping, hLoops, _⟩ := h.hooks hook hHook
      refine ⟨hStopping, hLoops, ?_⟩
      rw [hNone]
      exact fun _ hEntry => by cases hEntry
  | forgotten due =>
      exact ⟨h.loops, h.prunes, h.catches, h.issued, h.fresh, h.attempted, h.hooks, h.drained⟩
  | @resolved hook waits dispatched maintained =>
      obtain ⟨hStopping, hLoops, hPrunes⟩ := h.hooks hook waits
      refine ⟨h.loops, h.prunes, h.catches, h.issued, h.fresh, h.attempted, h.hooks,
        fun _ => ⟨hStopping, ?_, ?_⟩⟩
      · exact List.eq_nil_iff_forall_not_mem.mpr fun entry hEntry => dispatched entry hEntry
          (hLoops entry hEntry)
      · exact List.eq_nil_iff_forall_not_mem.mpr fun entry hEntry => maintained entry hEntry
          (hPrunes entry hEntry)

/-- Nothing is under way, and nothing will be. -/
structure Quiet (dispatcher : Dispatcher Command Failure Row) : Prop where
  stopping : dispatcher.stopping = true
  loops : dispatcher.loops = []
  prunes : dispatcher.prunes = []

/-- After the shutdown a call starts nothing. -/
theorem Quiet.dispatchPending (h : dispatcher.Quiet) : dispatcher.dispatchPending = dispatcher :=
  if_pos h.stopping

/-- Also one that nobody waits for. -/
theorem Quiet.dispatchInBackground (h : dispatcher.Quiet) :
    dispatcher.dispatchInBackground = dispatcher := by
  unfold Dispatcher.dispatchInBackground
  rw [h.stopping, Bool.or_true, if_pos rfl]

/-- The timer may still fire, but it starts nothing. -/
theorem Quiet.tick (h : dispatcher.Quiet)
    (now : Nat) : dispatcher.tick worker now = dispatcher := by
  unfold Dispatcher.tick
  split
  · exact h.dispatchInBackground
  · rw [h.dispatchInBackground]
    exact if_pos (by rw [h.stopping, Bool.true_or])

/-- An instance that is quiet stays so and issues nothing. -/
theorem Quiet.step (h : dispatcher.Quiet) (hStep : Step worker dispatcher dispatcher') :
    dispatcher'.Quiet ∧ dispatcher'.log = dispatcher.log := by
  cases hStep with
  | dispatchPending =>
      rw [h.dispatchPending]
      exact ⟨h, rfl⟩
  | tick now =>
      rw [h.tick now]
      exact ⟨h, rfl⟩
  | pruneExpiredEvents now maintains =>
      rw [Dispatcher.pruneExpiredEvents, if_pos h.stopping]
      exact ⟨h, rfl⟩
  | onApplicationShutdown => exact ⟨⟨rfl, h.loops, h.prunes⟩, rfl⟩
  | claimed reply awaits =>
      rw [h.loops] at awaits
      cases awaits
  | replied reply awaits =>
      rw [h.loops] at awaits
      cases awaits
  | cleared ended =>
      rw [h.loops] at ended
      cases ended
  | pruned outcome awaits =>
      rw [h.prunes] at awaits
      cases awaits
  | pruneCleared ended =>
      rw [h.prunes] at ended
      cases ended
  | forgotten due => exact ⟨⟨h.stopping, h.loops, h.prunes⟩, rfl⟩
  | resolved waits dispatched maintained => exact ⟨⟨h.stopping, h.loops, h.prunes⟩, rfl⟩

/-- So an instance that has become quiet issues nothing in any run from there. -/
theorem Quiet.of_reaches (h : dispatcher.Quiet) (hReaches : Reaches worker dispatcher dispatcher') :
    dispatcher'.Quiet ∧ dispatcher'.log = dispatcher.log := by
  induction hReaches with
  | refl => exact ⟨h, rfl⟩
  | tail _ step ih =>
      obtain ⟨hQuiet, hLog⟩ := ih
      obtain ⟨hLater, hSame⟩ := hQuiet.step step
      exact ⟨hLater, hSame.trans hLog⟩

/-- Soundness holds between any two callbacks, by induction on the run. -/
theorem Sound.of_reaches (h : dispatcher.Sound) (hAttempt : ∀ row, Catches (worker.attempt row))
    (hReaches : Reaches worker dispatcher dispatcher') : dispatcher'.Sound := by
  induction hReaches with
  | refl => exact h
  | tail _ step ih => exact ih.step hAttempt step

/-- What an instance is to do, at any time. A loop that has ended is cleared next,
which waits for nothing. -/
structure Behaves (worker : Worker Command Failure Row)
    (dispatcher : Dispatcher Command Failure Row) : Prop where
  singleLoop : dispatcher.loops.length ≤ 1
  singlePrune : dispatcher.prunes.length ≤ 1
  clears : ∀ loop result, (loop, .ended result) ∈ dispatcher.loops →
    Step worker dispatcher { dispatcher with dispatchPromise := none, loops := [] }
  restarts : dispatcher.stopping = false → dispatcher.loops = [] →
    dispatcher.dispatchPending.loops = [(dispatcher.promises, .claiming)] ∧
      dispatcher.dispatchPending.log = dispatcher.log ++ [.claim dispatcher.promises]
  attempted : ∀ loop, batches loop dispatcher.log =
    attempts loop dispatcher.log ++ dispatcher.remaining loop
  drains : ∀ entry ∈ dispatcher.loops, Drains worker entry.1 entry.2
  drained : dispatcher.resolved = true →
    ∀ later, Reaches worker dispatcher later → later.log = dispatcher.log

/-- What a sound instance promises to its callers. -/
theorem Sound.behaves (h : dispatcher.Sound) (hAttempt : ∀ row, Catches (worker.attempt row)) :
    dispatcher.Behaves worker where
  singleLoop := h.loops.length_le
  singlePrune := h.prunes.length_le
  clears loop result ended := by
    have hStep := @Step.cleared _ _ _ worker _ _ _ ended
    obtain ⟨hLoops, _⟩ := h.loops.eq_of_mem ended
    have hNone : remove dispatcher.loops loop = [] := by
      rw [hLoops, remove]
      simp
    rw [hNone] at hStep
    exact hStep
  restarts hStopping hLoops := by
    have hPending : dispatcher.dispatchPending = { dispatcher with
        dispatchPromise := some dispatcher.promises
        promises := dispatcher.promises + 1
        loops := dispatcher.loops ++ [(dispatcher.promises, .claiming)]
        log := dispatcher.log ++ [.claim dispatcher.promises] } := by
      unfold Dispatcher.dispatchPending
      rw [hStopping, if_neg Bool.false_ne_true, h.loops.eq_none hLoops]
    rw [hPending, hLoops]
    exact ⟨rfl, rfl⟩
  attempted := h.attempted
  drains entry hEntry := (h.catches entry hEntry).drains hAttempt
  drained hResolved later hLater := by
    obtain ⟨hStopping, hLoops, hPrunes⟩ := h.drained hResolved
    have hQuiet : dispatcher.Quiet := ⟨hStopping, hLoops, hPrunes⟩
    exact (hQuiet.of_reaches hLater).2

/-- The same of an instance that any interleaving has led to. -/
theorem behaves_of_reaches (hAttempt : ∀ row, Catches (worker.attempt row))
    (hReaches : Reaches worker start dispatcher) : dispatcher.Behaves worker :=
  (sound_start.of_reaches hAttempt hReaches).behaves hAttempt

end Dispatcher
end SingleFlight
