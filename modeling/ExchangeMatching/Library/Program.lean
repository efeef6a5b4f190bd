import Mathlib.Tactic.TypeStar

/-! Database transactions as programs of statements. A program issues one
statement after another and may use every result in what it does next; an
engine says what a statement returns and writes in a given state. The same
program is run alone here and interleaved with others elsewhere. -/
namespace Transactions

/-- A program of statements. A failure ends the transaction. -/
inductive Program (Statement : Type → Type) (Failure Result : Type) : Type 1 where
  | pure (result : Result)
  | throw (failure : Failure)
  | issue {Reply : Type} (statement : Statement Reply)
      (next : Reply → Program Statement Failure Result)

/-- What statements do: the reply and the writes of one statement, or its
failure, and the effect of one write on the state. The environment holds the
values generated for a transaction from outside the state. -/
structure Engine (Statement : Type → Type) (Failure Environment State Write : Type) where
  effect : {Reply : Type} → Environment → Statement Reply → State →
    Except Failure (Reply × List Write)
  apply : State → Write → State

variable {Statement : Type → Type} {Failure Environment State Write Result Result' : Type}

namespace Program

def bind (program : Program Statement Failure Result)
    (next : Result → Program Statement Failure Result') : Program Statement Failure Result' :=
  match program with
  | .pure result => next result
  | .throw failure => .throw failure
  | .issue statement rest => .issue statement (fun reply => (rest reply).bind next)

instance : Monad (Program Statement Failure) where
  pure := .pure
  bind := .bind

/-- A program of one statement. -/
def perform {Reply : Type} (statement : Statement Reply) : Program Statement Failure Reply :=
  .issue statement .pure

/-- A computation outside the database, which may fail. -/
def ofExcept : Except Failure Result → Program Statement Failure Result
  | .ok result => .pure result
  | .error failure => .throw failure

/-- Sequencing runs the second program on the result of the first. -/
@[simp] theorem pure_bind (result : Result)
    (next : Result → Program Statement Failure Result') :
    (pure result >>= next : Program Statement Failure Result') = next result := rfl

@[simp] theorem mk_pure_bind (result : Result)
    (next : Result → Program Statement Failure Result') :
    ((Program.pure result : Program Statement Failure Result) >>= next) = next result := rfl

/-- Nothing runs after a failure. -/
@[simp] theorem throw_bind (failure : Failure)
    (next : Result → Program Statement Failure Result') :
    (Program.throw failure >>= next) = Program.throw failure := rfl

/-- What follows a statement is sequenced under its reply. -/
@[simp] theorem issue_bind {Reply : Type} (statement : Statement Reply)
    (rest : Reply → Program Statement Failure Result)
    (next : Result → Program Statement Failure Result') :
    (Program.issue statement rest >>= next) =
      .issue statement (fun reply => rest reply >>= next) := rfl

@[simp] theorem perform_bind {Reply : Type} (statement : Statement Reply)
    (next : Reply → Program Statement Failure Result') :
    (perform statement >>= next) = .issue statement next := rfl

/-- The program issues only allowed statements, and every failure that it
raises by itself satisfies `P`. -/
def Within (allowed : {Reply : Type} → Statement Reply → Prop) (P : Failure → Prop) :
    Program Statement Failure Result → Prop
  | .pure _ => True
  | .throw failure => P failure
  | .issue statement next => allowed statement ∧ ∀ reply, (next reply).Within allowed P

/-- A sequence stays within what both of its parts stay in. -/
theorem Within.bind {allowed : {Reply : Type} → Statement Reply → Prop} {P : Failure → Prop}
    {program : Program Statement Failure Result}
    {next : Result → Program Statement Failure Result'} (h : program.Within allowed P)
    (hNext : ∀ result, (next result).Within allowed P) : (program >>= next).Within allowed P := by
  induction program with
  | pure result => exact hNext result
  | throw failure => exact h
  | issue statement rest ih => exact ⟨h.1, fun reply => ih reply (h.2 reply)⟩

/-- A computation issues nothing, so only its failures matter. -/
theorem Within.ofExcept {allowed : {Reply : Type} → Statement Reply → Prop} {P : Failure → Prop}
    {computation : Except Failure Result}
    (h : ∀ failure, computation = .error failure → P failure) :
    (Program.ofExcept computation : Program Statement Failure Result).Within allowed P := by
  cases computation with
  | ok result => exact trivial
  | error failure => exact h failure rfl

/-- A single statement raises no failure by itself. -/
theorem Within.perform {allowed : {Reply : Type} → Statement Reply → Prop} {P : Failure → Prop}
    {Reply : Type} {statement : Statement Reply} (h : allowed statement) :
    (Program.perform statement : Program Statement Failure Reply).Within allowed P :=
  ⟨h, fun _ => trivial⟩

/-- Sequences may be regrouped, by induction on the first program. -/
theorem bind_assoc {Result'' : Type} (program : Program Statement Failure Result)
    (first : Result → Program Statement Failure Result')
    (second : Result' → Program Statement Failure Result'') :
    (program >>= first) >>= second = program >>= fun result => first result >>= second := by
  induction program with
  | pure result => rfl
  | throw failure => rfl
  | issue statement next ih => simp only [issue_bind, ih]

end Program

namespace Engine

variable (engine : Engine Statement Failure Environment State Write)

/-- Apply writes in the order in which they were made. -/
def applyAll (state : State) (writes : List Write) : State := writes.foldl engine.apply state

/-- Writes are applied from the first one to the last. -/
@[simp] theorem applyAll_nil (state : State) : engine.applyAll state [] = state := rfl

@[simp] theorem applyAll_cons (state : State) (write : Write) (writes : List Write) :
    engine.applyAll state (write :: writes) = engine.applyAll (engine.apply state write) writes :=
      rfl

/-- So applying two lists is applying one after the other. -/
@[simp] theorem applyAll_append (state : State) (first second : List Write) :
    engine.applyAll state (first ++ second) =
      engine.applyAll (engine.applyAll state first) second :=
  List.foldl_append ..

/-- Run a transaction alone: every statement sees the writes before it. A
failure leaves no state, so the caller keeps the state it started from. -/
def run (environment : Environment) : Program Statement Failure Result → State →
    Except Failure (Result × State)
  | .pure result, state => .ok (result, state)
  | .throw failure, _ => .error failure
  | .issue statement next, state =>
      match engine.effect environment statement state with
      | .error failure => .error failure
      | .ok (reply, writes) => run environment (next reply) (engine.applyAll state writes)

/-- How a transaction run alone ends, and the state in which it ends. Unlike
`run` this shows what a failing transaction has written so far. -/
def ending (environment : Environment) : Program Statement Failure Result → State →
    Except Failure Result × State
  | .pure result, state => (.ok result, state)
  | .throw failure, state => (.error failure, state)
  | .issue statement next, state =>
      match engine.effect environment statement state with
      | .error failure => (.error failure, state)
      | .ok (reply, writes) => ending environment (next reply) (engine.applyAll state writes)

variable {engine} {environment : Environment} {state : State}

/-- A run is its ending, without the state that a failure leaves. -/
theorem run_eq_ending (program : Program Statement Failure Result) :
    engine.run environment program state =
      match engine.ending environment program state with
      | (.ok result, state') => .ok (result, state')
      | (.error failure, _) => .error failure := by
  induction program generalizing state with
  | pure result => rfl
  | throw failure => rfl
  | issue statement next ih =>
      rw [run, ending]
      cases engine.effect environment statement state with
      | error failure => rfl
      | ok pair => exact ih pair.1

/-- A program that is done leaves the state as it is. -/
@[simp] theorem run_pure {result : Result} :
    engine.run environment (pure result : Program Statement Failure Result) state =
      .ok (result, state) := rfl

@[simp] theorem run_mk_pure {result : Result} :
    engine.run environment (.pure result : Program Statement Failure Result) state =
      .ok (result, state) := rfl

/-- A failure leaves no state behind: the transaction is rolled back. -/
@[simp] theorem run_throw {failure : Failure} :
    engine.run environment (.throw failure : Program Statement Failure Result) state =
      .error failure := rfl

/-- A statement that succeeds hands its reply to the rest of the program. -/
theorem run_issue_of_ok {Reply : Type} {statement : Statement Reply} {reply : Reply}
    {next : Reply → Program Statement Failure Result} {writes : List Write}
    (h : engine.effect environment statement state = .ok (reply, writes)) :
    engine.run environment (.issue statement next) state =
      engine.run environment (next reply) (engine.applyAll state writes) := by
  simp only [run, h]

/-- One that fails ends the run. -/
theorem run_issue_of_error {Reply : Type} {statement : Statement Reply} {failure : Failure}
    {next : Reply → Program Statement Failure Result}
    (h : engine.effect environment statement state = .error failure) :
    engine.run environment (.issue statement next) state = .error failure := by
  simp only [run, h]

/-- A run that succeeds has got past its first statement. -/
theorem run_issue_eq_ok {Reply : Type} {statement : Statement Reply}
    {next : Reply → Program Statement Failure Result} {out : Result × State} :
    engine.run environment (.issue statement next) state = .ok out ↔
      ∃ reply writes, engine.effect environment statement state = .ok (reply, writes) ∧
        engine.run environment (next reply) (engine.applyAll state writes) = .ok out := by
  cases h : engine.effect environment statement state with
  | error failure => simp [run_issue_of_error h]
  | ok pair =>
      rw [run_issue_of_ok h]
      constructor
      · exact fun hRun => ⟨_, _, rfl, hRun⟩
      · rintro ⟨_, _, hPair, hRun⟩
        cases hPair
        exact hRun

/-- A sequence of two programs is run by running the first, then the second
in the state that the first left. -/
theorem run_bind (program : Program Statement Failure Result)
    (next : Result → Program Statement Failure Result') :
    engine.run environment (program >>= next) state =
      match engine.run environment program state with
      | .error failure => .error failure
      | .ok (result, state') => engine.run environment (next result) state' := by
  induction program generalizing state with
  | pure result => rfl
  | throw failure => rfl
  | issue statement rest ih =>
      rw [Program.issue_bind]
      cases h : engine.effect environment statement state with
      | error failure => rw [run_issue_of_error h, run_issue_of_error h]
      | ok pair =>
          obtain ⟨reply, writes⟩ := pair
          rw [run_issue_of_ok h, run_issue_of_ok h, ih]

/-- A sequence succeeds exactly if both parts do, the second in the state that the
first leaves. -/
theorem run_bind_eq_ok {program : Program Statement Failure Result}
    {next : Result → Program Statement Failure Result'} {out : Result' × State} :
    engine.run environment (program >>= next) state = .ok out ↔
      ∃ result state', engine.run environment program state = .ok (result, state') ∧
        engine.run environment (next result) state' = .ok out := by
  rw [run_bind]
  cases engine.run environment program state with
  | error failure => simp
  | ok pair =>
      constructor
      · exact fun hRun => ⟨_, _, rfl, hRun⟩
      · rintro ⟨_, _, hPair, hRun⟩
        cases hPair
        exact hRun

/-- A computation succeeds with its result and does not touch the state. -/
theorem run_ofExcept_eq_ok {computation : Except Failure Result} {out : Result × State} :
    engine.run environment (.ofExcept computation) state = .ok out ↔
      computation = .ok out.1 ∧ state = out.2 := by
  obtain ⟨result, state'⟩ := out
  cases computation <;> simp [Program.ofExcept]

/-- Every failure that a run can end with satisfies `P`. -/
def FailsWith (engine : Engine Statement Failure Environment State Write)
    (environment : Environment)
    (P : Failure → Prop) (program : Program Statement Failure Result) (state : State) : Prop :=
  ∀ failure, engine.run environment program state = .error failure → P failure

variable {P : Failure → Prop}

/-- What succeeds does not fail in any way. -/
theorem failsWith_of_run_eq_ok {program : Program Statement Failure Result} {out : Result × State}
    (h : engine.run environment program state = .ok out) :
    engine.FailsWith environment P program state := by
  intro failure hFailed
  rw [h] at hFailed
  cases hFailed

/-- An explicit failure is the only one of its program. -/
theorem failsWith_throw {failure : Failure} (h : P failure) :
    engine.FailsWith environment P (.throw failure : Program Statement Failure Result) state := by
  rintro _ ⟨⟩
  exact h

/-- A sequence fails as its parts do. -/
theorem failsWith_bind {program : Program Statement Failure Result}
    {next : Result → Program Statement Failure Result'}
    (h : engine.FailsWith environment P program state)
    (hNext : ∀ result state', engine.run environment program state = .ok (result, state') →
      engine.FailsWith environment P (next result) state') :
    engine.FailsWith environment P (program >>= next) state := by
  intro failure hFailed
  rw [run_bind] at hFailed
  cases hRun : engine.run environment program state with
  | error other =>
      rw [hRun] at hFailed
      cases hFailed
      exact h _ hRun
  | ok pair =>
      rw [hRun] at hFailed
      exact hNext pair.1 pair.2 hRun failure hFailed

/-- A statement fails by itself or passes on to the rest. -/
theorem failsWith_issue {Reply : Type} {statement : Statement Reply}
    {next : Reply → Program Statement Failure Result}
    (h : ∀ failure, engine.effect environment statement state = .error failure → P failure)
    (hNext : ∀ reply writes, engine.effect environment statement state = .ok (reply, writes) →
      engine.FailsWith environment P (next reply) (engine.applyAll state writes)) :
    engine.FailsWith environment P (.issue statement next) state := by
  intro failure hFailed
  cases hEffect : engine.effect environment statement state with
  | error other =>
      rw [run_issue_of_error hEffect] at hFailed
      cases hFailed
      exact h _ hEffect
  | ok pair =>
      rw [run_issue_of_ok hEffect] at hFailed
      exact hNext pair.1 pair.2 hEffect failure hFailed

/-- A program within statements that fail with `P` fails with `P`. -/
theorem failsWith_of_within {allowed : {Reply : Type} → Statement Reply → Prop}
    {program : Program Statement Failure Result} (h : program.Within allowed P)
    (hAllowed : ∀ {Reply : Type} (statement : Statement Reply) (state : State) (failure : Failure),
      allowed statement → engine.effect environment statement state = .error failure → P failure) :
    engine.FailsWith environment P program state := by
  induction program generalizing state with
  | pure result => exact failsWith_of_run_eq_ok rfl
  | throw failure => exact failsWith_throw h
  | issue statement next ih =>
      exact failsWith_issue (fun failure => hAllowed statement state failure h.1)
        fun reply _ _ => ih reply (h.2 reply)

/-- What allowed statements preserve holds after a program within them. -/
theorem run_within {allowed : {Reply : Type} → Statement Reply → Prop} {Q : State → Prop}
    {program : Program Statement Failure Result} {out : Result × State}
    (h : program.Within allowed P)
    (hAllowed : ∀ {Reply : Type} (statement : Statement Reply) (state : State) (reply : Reply)
      (writes : List Write), allowed statement → Q state →
      engine.effect environment statement state = .ok (reply, writes) →
      Q (engine.applyAll state writes))
    (hStart : Q state) (hRun : engine.run environment program state = .ok out) : Q out.2 := by
  induction program generalizing state with
  | pure result =>
      cases hRun
      exact hStart
  | throw failure => cases hRun
  | issue statement next ih =>
      obtain ⟨reply, writes, hEffect, hNext⟩ := run_issue_eq_ok.mp hRun
      exact ih reply (h.2 reply) (hAllowed statement state reply writes h.1 hStart hEffect) hNext

end Engine
end Transactions
