import ExchangeMatching.Library.Concurrency
import Mathlib.Tactic.Common

/-! Freedom from deadlock by an order of locks. Locks are taken in rising
rank. Only the holder of one distinguished lock, of which there is one at a
time, may take several locks of the same rank. -/
namespace Transactions

variable {Statement : Type → Type}
  {Failure Environment State Write Resource Outcome Result Result' Index : Type}

/-- Ranks of locks and the lock that allows several of one rank. -/
structure LockOrder (Resource : Type) where
  rank : Resource → Nat
  gate : Resource
  bound : Nat
  rank_le : ∀ resource, rank resource ≤ bound

/-- The locks that may be taken while others are held. -/
def LockOrder.Allows (order : LockOrder Resource) (held : List Resource)
    (resource : Resource) : Prop :=
  resource ∈ held ∨ ∀ other ∈ held, order.rank other < order.rank resource ∨
    order.gate ∈ held ∧ order.rank other ≤ order.rank resource

namespace Protocol

variable (protocol : Protocol Statement Failure Environment State Write Resource Outcome Index)
  (order : LockOrder Resource)

/-- Whatever the replies, the program takes locks in order. -/
def Orderly (index : Index) : Program Statement Failure Result → List Resource →
    (Result → List Resource → Prop) → Prop
  | .pure result, held, Q => Q result held
  | .throw _, _, _ => True
  | .issue statement next, held, Q => ∀ state,
      (∀ resource ∈ protocol.locks statement state, order.Allows held resource) ∧
      ∀ reply writes, protocol.engine.effect (protocol.environment index) statement state =
          .ok (reply, writes) →
        Orderly index (next reply) ((protocol.locks statement state).toList ++ held) Q

variable {protocol order} {index : Index} {held : List Resource}

namespace Orderly

variable {Q : Result → List Resource → Prop} {program : Program Statement Failure Result}

theorem bind {next : Result → Program Statement Failure Result'}
    {Q' : Result' → List Resource → Prop} (h : protocol.Orderly order index program held Q)
    (hNext : ∀ result held, Q result held → protocol.Orderly order index (next result) held Q') :
    protocol.Orderly order index (program >>= next) held Q' := by
  induction program generalizing held with
  | pure result => exact hNext _ _ h
  | throw failure => exact trivial
  | issue statement rest ih =>
      exact fun state => ⟨(h state).1, fun reply writes hEffect =>
        ih reply ((h state).2 reply writes hEffect)⟩

/-- A program of statements whose locks stay allowed. -/
theorem of_within {allowed : {Reply : Type} → Statement Reply → Prop} {P : Failure → Prop}
    {base : List Resource} (h : program.Within allowed P)
    (hAllowed : ∀ {Reply : Type} (statement : Statement Reply) (state : State) (resource : Resource)
      (held : List Resource), allowed statement → base ⊆ held →
      resource ∈ protocol.locks statement state → order.Allows held resource)
    (hBase : base ⊆ held) : protocol.Orderly order index program held (fun _ _ => True) := by
  induction program generalizing held with
  | pure result => exact trivial
  | throw failure => exact trivial
  | issue statement next ih =>
      exact fun state => ⟨fun resource => hAllowed statement state resource held h.1 hBase,
        fun reply _ _ => ih reply (h.2 reply)
          (List.Subset.trans hBase (List.subset_append_right _ _))⟩

end Orderly

variable [DecidableEq Index]

/-- A transaction whose next statement needs a lock that another one holds. -/
def Waits (protocol : Protocol Statement Failure Environment State Write Resource Outcome Index)
    (system : System Statement Failure State Write Resource Outcome Index)
    (waiting holder : Index) :
    Prop :=
  ∃ (Reply : Type) (statement : Statement Reply) (next : Reply → Program Statement Failure Outcome)
    (writes : List Write) (held : List Resource),
    system.phases waiting = .running ⟨.issue statement next, writes, held⟩ ∧
    holder ≠ waiting ∧ ∃ resource ∈ protocol.lock statement system.committed writes,
    system.Holds holder resource

variable {state : State} {system : System Statement Failure State Write Resource Outcome Index}

/-- Every transaction under way goes on in order. -/
theorem orderly_of_reaches
    (hOrderly : ∀ index program state, protocol.starts index state program →
      protocol.Orderly order index program [] (fun _ _ => True))
    (hRun : protocol.Reaches (.start state) system) {index : Index}
    {session : Session Statement Failure Write Resource Outcome}
    (hRunning : system.phases index = .running session) :
    protocol.Orderly order index session.program session.held (fun _ _ => True) := by
  refine running_induction (I := fun index session _ =>
    protocol.Orderly order index session.program session.held (fun _ _ => True)) ?_ ?_ ?_ hRun
      hRunning
  · exact fun hStarts => hOrderly _ _ _ hStarts
  · exact fun hRest hEffect => (hRest _).2 _ _ hEffect
  · exact fun hOwn _ _ _ => hOwn

variable [DecidableEq Resource]

/-- How far up the order a transaction stands that waits for a lock. Of two
that wait for the same rank, the one with the distinguished lock is higher. -/
def weight (protocol : Protocol Statement Failure Environment State Write Resource Outcome Index)
    (order : LockOrder Resource)
    (system : System Statement Failure State Write Resource Outcome Index) (index : Index) : Nat :=
  match system.phases index with
  | .running ⟨.issue statement _, writes, held⟩ =>
      match protocol.lock statement system.committed writes with
      | some resource => 2 * order.rank resource + if order.gate ∈ held then 1 else 0
      | none => 0
  | _ => 0

omit [DecidableEq Index] in
theorem weight_le (index : Index) : protocol.weight order system index ≤ 2 * order.bound + 1 := by
  unfold weight
  split
  · split
    · next resource _ =>
      have hRank := order.rank_le resource
      split_ifs <;> omega
    · omega
  · omega

/-- Along a chain of waiting transactions the weight grows. -/
theorem weight_lt_of_waits
    (hOrderly : ∀ index program state, protocol.starts index state program →
      protocol.Orderly order index program [] (fun _ _ => True))
    (hRun : protocol.Reaches (.start state) system) {first second third : Index}
    (hFirst : protocol.Waits system first second) (hSecond : protocol.Waits system second third) :
    protocol.weight order system first < protocol.weight order system second := by
  obtain ⟨_, _, _, writes, held, hRunning, hNe, resource, hLock, hHolds⟩ := hFirst
  obtain ⟨_, _, _, writes', held', hRunning', hNe', resource', hLock', hHolds'⟩ := hSecond
  have hHeld : resource ∈ held' := by
    obtain ⟨session, hSession, hMem⟩ := hHolds
    rw [hRunning'] at hSession
    cases hSession
    exact hMem
  have hFree : resource' ∉ held' := fun hMem =>
    hNe' (holds_unique hRun hHolds' ⟨_, hRunning', hMem⟩)
  have hAllowed := ((orderly_of_reaches hOrderly hRun hRunning') _).1 resource' hLock'
  have hGate : order.gate ∈ held' → order.gate ∉ held := fun hMem' hMem =>
    hNe (holds_unique hRun ⟨_, hRunning', hMem'⟩ ⟨_, hRunning, hMem⟩)
  simp only [weight, hRunning, hRunning', Option.mem_def.mp hLock, Option.mem_def.mp hLock']
  rcases hAllowed.resolve_left hFree resource hHeld with hLower | ⟨hMarked, hNotHigher⟩
  · split_ifs <;> omega
  · rw [if_neg (hGate hMarked), if_pos hMarked]
    omega

/-- No transactions wait for each other in a circle. -/
theorem waits_acyclic
    (hOrderly : ∀ index program state, protocol.starts index state program →
      protocol.Orderly order index program [] (fun _ _ => True))
    (hRun : protocol.Reaches (.start state) system) (index : Index) :
    ¬Relation.TransGen (protocol.Waits system) index index := by
  have hGrows : ∀ {first second third}, Relation.TransGen (protocol.Waits system) first second →
      protocol.Waits system second third →
      protocol.weight order system first < protocol.weight order system second := by
    intro first second third hChain hLast
    induction hChain generalizing third with
    | single hWaits => exact weight_lt_of_waits hOrderly hRun hWaits hLast
    | tail _ hWaits ih => exact (ih hWaits).trans (weight_lt_of_waits hOrderly hRun hWaits hLast)
  intro hCycle
  obtain ⟨next, hFirst, _⟩ := Relation.TransGen.head'_iff.mp hCycle
  exact Nat.lt_irrefl _ (hGrows hCycle hFirst)

/-- As long as one transaction is not over, one that is not over can go on. -/
theorem exists_unblocked
    (hOrderly : ∀ index program state, protocol.starts index state program →
      protocol.Orderly order index program [] (fun _ _ => True))
    (hRun : protocol.Reaches (.start state) system) {index : Index}
    (hUnfinished : system.phases index ≠ .over) :
    ∃ ready, system.phases ready ≠ .over ∧ ∀ holder, ¬protocol.Waits system ready holder := by
  induction hHeight : 2 * order.bound + 1 - protocol.weight order system index
    using Nat.strong_induction_on generalizing index with
  | _ height ih =>
      by_cases hWaits : ∃ holder, protocol.Waits system index holder
      · obtain ⟨holder, hHolder⟩ := hWaits
        have hBusy : system.phases holder ≠ .over := by
          obtain ⟨_, _, _, _, _, _, _, _, _, session, hSession, _⟩ := hHolder
          rw [hSession]
          exact fun hOver => by cases hOver
        by_cases hNext : ∃ third, protocol.Waits system holder third
        · obtain ⟨third, hThird⟩ := hNext
          have hGrows := weight_lt_of_waits hOrderly hRun hHolder hThird
          have hBound : protocol.weight order system holder ≤ 2 * order.bound + 1 :=
            weight_le holder
          exact ih _ (by omega) hBusy rfl
        · exact ⟨holder, hBusy, not_exists.mp hNext⟩
      · exact ⟨index, hUnfinished, not_exists.mp hWaits⟩

end Protocol
end Transactions
