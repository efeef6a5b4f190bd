import ExchangeMatching.Library.Program
import Mathlib.Data.Fintype.Basic
import Mathlib.Logic.Function.Basic
import Mathlib.Logic.Relation

/-! Transactions that run side by side over one committed state. A statement
sees the latest committed state with the transaction's own writes on top. Its
lock is taken when no other transaction holds it and kept until the end;
writes of a transaction appear to the others all at once, when it commits. -/
namespace Transactions

/-- The programs of a set of transactions and the locks that statements take. -/
structure Protocol (Statement : Type → Type)
    (Failure Environment State Write Resource Result Index : Type) where
  engine : Engine Statement Failure Environment State Write
  locks : {Reply : Type} → Statement Reply → State → Option Resource
  environment : Index → Environment
  /-- The programs with which a transaction may start in a committed state. -/
  starts : Index → State → Program Statement Failure Result → Prop

/-- A transaction under way: what is left to do, its uncommitted writes and
the locks that it holds. -/
structure Session (Statement : Type → Type) (Failure Write Resource Result : Type) : Type 1 where
  program : Program Statement Failure Result
  writes : List Write
  held : List Resource

inductive Phase (Statement : Type → Type) (Failure Write Resource Result : Type) : Type 1 where
  | idle
  | running (session : Session Statement Failure Write Resource Result)
  | over

structure System (Statement : Type → Type) (Failure State Write Resource Result Index : Type) :
    Type 1 where
  committed : State
  phases : Index → Phase Statement Failure Write Resource Result
  /-- The committed transactions in commit order. -/
  log : List (Index × Result)

variable {Statement : Type → Type}
  {Failure Environment State Write Resource Result Result' Index : Type}

namespace System

variable (system : System Statement Failure State Write Resource Result Index)

def start (state : State) : System Statement Failure State Write Resource Result Index :=
  ⟨state, fun _ => .idle, []⟩

def Holds (index : Index) (resource : Resource) : Prop :=
  ∃ session, system.phases index = .running session ∧ resource ∈ session.held

instance [DecidableEq Resource] (index : Index) (resource : Resource) :
    Decidable (system.Holds index resource) :=
  match h : system.phases index with
  | .running session => decidable_of_iff (resource ∈ session.held) <| by simp [Holds, h]
  | .idle => isFalse <| by simp [Holds, h]
  | .over => isFalse <| by simp [Holds, h]

variable [DecidableEq Index]

def put (index : Index) (phase : Phase Statement Failure Write Resource Result) :
    System Statement Failure State Write Resource Result Index :=
  { system with phases := Function.update system.phases index phase }

variable {system} {index other : Index} {phase : Phase Statement Failure Write Resource Result}
  {resource : Resource}

theorem phases_put_self : (system.put index phase).phases index = phase := Function.update_self ..

theorem phases_put_of_ne (hNe : other ≠ index) :
    (system.put index phase).phases other = system.phases other := Function.update_of_ne hNe ..

theorem holds_put_of_ne (hNe : other ≠ index) :
    (system.put index phase).Holds other resource ↔ system.Holds other resource := by
  simp only [Holds, phases_put_of_ne hNe]

theorem holds_put_running {session : Session Statement Failure Write Resource Result} :
    (system.put index (.running session)).Holds index resource ↔ resource ∈ session.held := by
  simp [Holds, phases_put_self]

theorem not_holds_put_over : ¬(system.put index .over).Holds index resource := by
  simp [Holds, phases_put_self]

end System

namespace Protocol

variable (protocol : Protocol Statement Failure Environment State Write Resource Result Index)

/-- What a statement does for a transaction with these uncommitted writes. -/
def effect (index : Index) {Reply : Type} (statement : Statement Reply) (state : State)
    (writes : List Write) : Except Failure (Reply × List Write) :=
  protocol.engine.effect (protocol.environment index) statement
    (protocol.engine.applyAll state writes)

/-- The lock that a statement takes. -/
def lock {Reply : Type} (statement : Statement Reply) (state : State) (writes : List Write) :
    Option Resource :=
  protocol.locks statement (protocol.engine.applyAll state writes)

/-- The locks held after a statement. -/
def heldAfter {Reply : Type} (statement : Statement Reply) (state : State) (writes : List Write)
    (held : List Resource) : List Resource :=
  (protocol.lock statement state writes).toList ++ held

variable {protocol} in
theorem mem_heldAfter {Reply : Type} {statement : Statement Reply} {state : State}
    {writes : List Write} {held : List Resource} {resource : Resource} :
    resource ∈ protocol.heldAfter statement state writes held ↔
      resource ∈ protocol.lock statement state writes ∨ resource ∈ held := by
  simp [heldAfter]

variable {protocol} in
/-- Locks are kept. -/
theorem mem_heldAfter_of_mem {Reply : Type} {statement : Statement Reply} {state : State}
    {writes : List Write} {held : List Resource} {resource : Resource} (h : resource ∈ held) :
    resource ∈ protocol.heldAfter statement state writes held :=
  mem_heldAfter.mpr (Or.inr h)

variable [DecidableEq Index]

inductive Step (system : System Statement Failure State Write Resource Result Index) :
    System Statement Failure State Write Resource Result Index → Prop where
  | start (index : Index) {program : Program Statement Failure Result}
      (idle : system.phases index = .idle)
      (starts : protocol.starts index system.committed program) :
      Step system (system.put index (.running ⟨program, [], []⟩))
  | execute (index : Index) {Reply : Type} {statement : Statement Reply}
      {next : Reply → Program Statement Failure Result} {writes written : List Write}
      {held : List Resource} {reply : Reply}
      (running : system.phases index = .running ⟨.issue statement next, writes, held⟩)
      (free : ∀ resource ∈ protocol.lock statement system.committed writes,
        ∀ other, other ≠ index → ¬system.Holds other resource)
      (effect : protocol.effect index statement system.committed writes = .ok (reply, written)) :
      Step system (system.put index (.running ⟨next reply, writes ++ written,
        protocol.heldAfter statement system.committed writes held⟩))
  | commit (index : Index) {result : Result} {writes : List Write} {held : List Resource}
      (running : system.phases index = .running ⟨.pure result, writes, held⟩) :
      Step system { system.put index .over with
        committed := protocol.engine.applyAll system.committed writes
        log := system.log ++ [(index, result)] }
  | rollback (index : Index) {session : Session Statement Failure Write Resource Result}
      (running : system.phases index = .running session) :
      Step system (system.put index .over)

/-- What any interleaving leads to. -/
def Reaches : System Statement Failure State Write Resource Result Index →
    System Statement Failure State Write Resource Result Index → Prop :=
  Relation.ReflTransGen protocol.Step

variable {protocol} {state : State}
  {system system' : System Statement Failure State Write Resource Result Index}

/-- A step adds at most one lock, and one that no other transaction holds. -/
theorem holds_of_step (hStep : protocol.Step system system') {index : Index} {resource : Resource}
    (h : system'.Holds index resource) :
    system.Holds index resource ∨ ∀ other, other ≠ index → ¬system'.Holds other resource := by
  cases hStep with
  | @start started program idle starts =>
      by_cases hNe : index = started
      · subst hNe
        exact absurd (System.holds_put_running.mp h) List.not_mem_nil
      · exact Or.inl ((System.holds_put_of_ne hNe).mp h)
  | @execute executing Reply statement next writes written held reply running free effect =>
      by_cases hNe : index = executing
      · subst hNe
        rcases mem_heldAfter.mp (System.holds_put_running.mp h) with hLock | hHeld
        · right
          intro other hOther hHolds
          exact free resource hLock other hOther ((System.holds_put_of_ne hOther).mp hHolds)
        · exact Or.inl ⟨_, running, hHeld⟩
      · exact Or.inl ((System.holds_put_of_ne hNe).mp h)
  | @commit committing result writes held running =>
      by_cases hNe : index = committing
      · subst hNe
        exact absurd h System.not_holds_put_over
      · exact Or.inl ((System.holds_put_of_ne hNe).mp h)
  | @rollback ending session running =>
      by_cases hNe : index = ending
      · subst hNe
        exact absurd h System.not_holds_put_over
      · exact Or.inl ((System.holds_put_of_ne hNe).mp h)

/-- A lock belongs to one transaction at a time. -/
theorem holds_unique (hRun : protocol.Reaches (.start state) system) {first second : Index}
    {resource : Resource} (hFirst : system.Holds first resource)
    (hSecond : system.Holds second resource) : first = second := by
  induction hRun generalizing first second with
  | refl =>
      obtain ⟨_, hIdle, _⟩ := hFirst
      cases hIdle
  | tail _ hStep ih =>
      by_contra hNe
      rcases holds_of_step hStep hFirst with hOldFirst | hOnlyFirst
      · rcases holds_of_step hStep hSecond with hOldSecond | hOnlySecond
        · exact hNe (ih hOldFirst hOldSecond)
        · exact hOnlySecond first hNe hFirst
      · exact hOnlyFirst second (Ne.symm hNe) hSecond

/-- What holds of a transaction when it starts, and is kept by its statements
and by the commits of others, holds of every transaction under way. -/
theorem running_induction
    {I : Index → Session Statement Failure Write Resource Result → State → Prop}
    (hStart : ∀ {index : Index} {program : Program Statement Failure Result} {state : State},
      protocol.starts index state program → I index ⟨program, [], []⟩ state)
    (hExecute : ∀ {index : Index} {Reply : Type} {statement : Statement Reply}
      {next : Reply → Program Statement Failure Result} {writes written : List Write}
      {held : List Resource} {reply : Reply} {state : State},
      I index ⟨.issue statement next, writes, held⟩ state →
      protocol.effect index statement state writes = .ok (reply, written) →
      I index ⟨next reply, writes ++ written,
        protocol.heldAfter statement state writes held⟩ state)
    (hCommit : ∀ {index other : Index}
      {session : Session Statement Failure Write Resource Result} {result : Result}
      {writes : List Write} {held : List Resource} {state : State},
      I index session state → I other ⟨.pure result, writes, held⟩ state → other ≠ index →
      (∀ resource ∈ held, resource ∉ session.held) →
      I index session (protocol.engine.applyAll state writes))
    (hRun : protocol.Reaches (.start state) system) {index : Index}
    {session : Session Statement Failure Write Resource Result}
    (hRunning : system.phases index = .running session) : I index session system.committed := by
  induction hRun generalizing index session with
  | refl => cases hRunning
  | tail hBefore hStep ih =>
      cases hStep with
      | @start started program idle starts =>
          by_cases hNe : index = started
          · subst hNe
            rw [System.phases_put_self] at hRunning
            cases hRunning
            exact hStart starts
          · rw [System.phases_put_of_ne hNe] at hRunning
            exact ih hRunning
      | @execute executing Reply statement next writes written held reply running free effect =>
          by_cases hNe : index = executing
          · subst hNe
            rw [System.phases_put_self] at hRunning
            cases hRunning
            exact hExecute (ih running) effect
          · rw [System.phases_put_of_ne hNe] at hRunning
            exact ih hRunning
      | @commit committing result writes held running =>
          by_cases hNe : index = committing
          · subst hNe
            rw [System.phases_put_self] at hRunning
            cases hRunning
          · rw [System.phases_put_of_ne hNe] at hRunning
            refine hCommit (ih hRunning) (ih running) (Ne.symm hNe) fun resource hHeld hOwn => ?_
            exact hNe (holds_unique hBefore ⟨_, hRunning, hOwn⟩ ⟨_, running, hHeld⟩)
      | @rollback ending session running =>
          by_cases hNe : index = ending
          · subst hNe
            rw [System.phases_put_self] at hRunning
            cases hRunning
          · rw [System.phases_put_of_ne hNe] at hRunning
            exact ih hRunning

section Schedules

variable [Fintype Index] [DecidableEq Resource]

/-- The next statement of a transaction, or its commit. There is no result
when the transaction has to wait, fails or is not under way. -/
def advance (protocol : Protocol Statement Failure Environment State Write Resource Result Index)
    (system : System Statement Failure State Write Resource Result Index) (index : Index) :
    Option (System Statement Failure State Write Resource Result Index) :=
  match system.phases index with
  | .running ⟨.issue statement next, writes, held⟩ =>
      if ∀ resource ∈ protocol.lock statement system.committed writes,
          ∀ other, other ≠ index → ¬system.Holds other resource then
        match protocol.effect index statement system.committed writes with
        | .ok (reply, written) => some (system.put index (.running ⟨next reply, writes ++ written,
            protocol.heldAfter statement system.committed writes held⟩))
        | .error _ => none
      else none
  | .running ⟨.pure result, writes, _⟩ => some { system.put index .over with
      committed := protocol.engine.applyAll system.committed writes
      log := system.log ++ [(index, result)] }
  | _ => none

theorem step_of_advance {index : Index} (h : protocol.advance system index = some system') :
    protocol.Step system system' := by
  unfold advance at h
  split at h
  · next statement next writes held hRunning =>
    split_ifs at h with hFree
    split at h
    · next reply written hEffect =>
      cases h
      exact .execute index hRunning hFree hEffect
    · cases h
  · next result writes held hRunning =>
    cases h
    exact .commit index hRunning
  · cases h

/-- A schedule names the transaction that goes on next. -/
theorem reaches_of_schedule {schedule : List Index}
    (h : schedule.foldlM protocol.advance system = some system') :
    protocol.Reaches system system' := by
  induction schedule generalizing system with
  | nil =>
      cases h
      exact .refl
  | cons index schedule ih =>
      obtain ⟨next, hNext, hRest⟩ := Option.bind_eq_some_iff.mp h
      exact .head (step_of_advance hNext) (ih hRest)

end Schedules

end Protocol
end Transactions
