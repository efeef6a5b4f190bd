import ExchangeMatching.Library.Processes
import Mathlib.Algebra.BigOperators.Group.Finset.Basic
import Mathlib.Data.Fintype.BigOperators

/-! A finite set of calls that run side by side against a service. The service
answers one command at a time, with a reply or a failure, and a command that it
cannot answer yet waits. Each call is verified on its own, against what the
others may do to the world in between. -/
namespace Interleaving

open Processes (Process)

/-- The answers that a command may get, and the world after each. -/
structure Service (Command : Type → Type) (Failure World Index : Type) where
  Answers : Index → {Reply : Type} → Command Reply → World → Except Failure Reply →
    World → Prop

structure State (Command : Type → Type) (Failure Result World Index : Type) : Type 1 where
  world : World
  calls : Index → Process Command Failure Result

variable {Command : Type → Type} {Failure World Index Result Result' : Type}

/-- A call that is over. -/
def ended : Except Failure Result → Process Command Failure Result
  | .ok result => .pure result
  | .error failure => .throw failure

/-- Every call is over. -/
def State.Finished (state : State Command Failure Result World Index) : Prop :=
  ∀ index, ∃ result, state.calls index = ended result

/-- At most this many commands are issued, whatever the answers are. -/
def AtMost : Nat → Process Command Failure Result → Prop
  | _, .pure _ => True
  | _, .throw _ => True
  | 0, .issue _ _ => False
  | count + 1, .issue _ next => ∀ reply, AtMost count (next reply)

namespace AtMost

variable {count count' : Nat} {process : Process Command Failure Result}

theorem mono (h : AtMost count process) (hLe : count ≤ count') : AtMost count' process := by
  induction process generalizing count count' with
  | pure result => cases count' <;> exact trivial
  | throw failure => cases count' <;> exact trivial
  | issue command next ih =>
      cases count with
      | zero => exact h.elim
      | succ count =>
          cases count' with
          | zero => omega
          | succ count' => exact fun reply => ih reply (h reply) (Nat.le_of_succ_le_succ hLe)

theorem pure (result : Result) :
    AtMost count (Pure.pure result : Process Command Failure Result) := by
  cases count <;> exact trivial

theorem throw (failure : Failure) :
    AtMost count (.throw failure : Process Command Failure Result) := by
  cases count <;> exact trivial

theorem perform (command : Command Result) :
    AtMost 1 (Process.perform command : Process Command Failure Result) := by
  intro reply
  cases reply <;> exact trivial

theorem bind {next : Result → Process Command Failure Result'} (h : AtMost count process)
    (hNext : ∀ result, AtMost count' (next result)) :
    AtMost (count + count') (process >>= next) := by
  induction process generalizing count with
  | pure result => exact (hNext result).mono (Nat.le_add_left _ _)
  | throw failure => exact throw failure
  | issue command rest ih =>
      cases count with
      | zero => exact h.elim
      | succ count =>
          rw [Nat.succ_add]
          exact fun reply => ih reply (h reply)

theorem attempt (h : AtMost count process) : AtMost count process.attempt := by
  induction process generalizing count with
  | pure result => exact pure _
  | throw failure => exact pure _
  | issue command next ih =>
      cases count with
      | zero => exact h.elim
      | succ count => exact fun reply => ih reply (h reply)

end AtMost

namespace Service

variable (service : Service Command Failure World Index)

/-- The process waits for an answer that the service can give. -/
inductive Answerable (index : Index) (world : World) : Process Command Failure Result → Prop where
  | issue {Reply : Type} {command : Command Reply}
      {next : Except Failure Reply → Process Command Failure Result} {reply : Except Failure Reply}
      {world' : World} (answers : service.Answers index command world reply world') :
      Answerable index world (.issue command next)

variable [DecidableEq Index]

/-- One command of one call is answered. -/
inductive Step (state : State Command Failure Result World Index) :
    State Command Failure Result World Index → Prop where
  | answer (index : Index) {Reply : Type} {command : Command Reply}
      {next : Except Failure Reply → Process Command Failure Result} (reply : Except Failure Reply)
      (world' : World) (waiting : state.calls index = .issue command next)
      (answers : service.Answers index command state.world reply world') :
      Step state ⟨world', Function.update state.calls index (next reply)⟩

/-- An interleaving in which this many commands are answered. -/
inductive Takes : Nat → State Command Failure Result World Index →
    State Command Failure Result World Index → Prop where
  | zero (state : State Command Failure Result World Index) : Takes 0 state state
  | succ {count : Nat} {first second third : State Command Failure Result World Index}
      (step : service.Step first second) (rest : Takes count second third) :
      Takes (count + 1) first third

variable {service} {state state' : State Command Failure Result World Index}

theorem Answerable.step {index : Index}
    (h : service.Answerable index state.world (state.calls index)) :
    ∃ state', service.Step state state' := by
  cases hProcess : state.calls index with
  | pure result => rw [hProcess] at h; cases h
  | throw failure => rw [hProcess] at h; cases h
  | issue command next =>
      rw [hProcess] at h
      cases h with
      | issue answers => exact ⟨_, .answer index _ _ hProcess answers⟩

/-- Each answer uses up one command of one call. -/
theorem Takes.length_le [Fintype Index] {bound : Index → Nat} {count : Nat}
    (hBound : ∀ index, AtMost (bound index) (state.calls index))
    (hRun : service.Takes count state state') : count ≤ ∑ index, bound index := by
  induction hRun generalizing bound with
  | zero => exact Nat.zero_le _
  | succ step rest ih =>
      cases step with
      | answer index reply world' waiting answers =>
          have hIndex := hBound index
          rw [waiting] at hIndex
          cases hCount : bound index with
          | zero =>
              rw [hCount] at hIndex
              exact hIndex.elim
          | succ left =>
              rw [hCount] at hIndex
              have hRest := @ih (Function.update bound index left) (by
                intro other
                dsimp only
                by_cases hOther : other = index
                · rw [hOther, Function.update_self, Function.update_self]
                  exact hIndex reply
                · rw [Function.update_of_ne hOther, Function.update_of_ne hOther]
                  exact hBound other)
              have hUpdated := Finset.sum_update_of_mem (Finset.mem_univ index) bound left
              have hSplit := Finset.sum_eq_add_sum_sdiff_singleton_of_mem
                (Finset.mem_univ index) bound
              omega

end Service

/-- An invariant of the world, what the calls other than one may do to it, and
what a call ensures before a command. -/
structure Contract (service : Service Command Failure World Index) where
  Sound : World → Prop
  Rely : Index → World → World → Prop
  Requires : Index → {Reply : Type} → Command Reply → World → Prop
  refl : ∀ index world, Rely index world world
  trans : ∀ {index first second third}, Rely index first second → Rely index second third →
    Rely index first third
  answer : ∀ {index : Index} {Reply : Type} {command : Command Reply} {world : World}
    {reply : Except Failure Reply} {world' : World}, Sound world → Requires index command world →
    service.Answers index command world reply world' →
    Sound world' ∧ ∀ other, other ≠ index → Rely other world world'

namespace Contract

variable {service : Service Command Failure World Index} (contract : Contract service)

/-- From here on the call meets what its commands require, and it ends with a
result that satisfies `Q`, whatever the others do in between. -/
def Safe (index : Index) (process : Process Command Failure Result) (world : World)
    (Q : Except Failure Result → World → Prop) : Prop :=
  match process with
  | .pure result => ∀ now, contract.Sound now → contract.Rely index world now → Q (.ok result) now
  | .throw failure =>
      ∀ now, contract.Sound now → contract.Rely index world now → Q (.error failure) now
  | .issue command next => ∀ now, contract.Sound now → contract.Rely index world now →
      contract.Requires index command now ∧
      ∀ reply later, service.Answers index command now reply later → Safe index (next reply) later Q

variable {contract} {index : Index} {world world' : World}
  {Q : Except Failure Result → World → Prop}
  {Q' : Except Failure Result' → World → Prop} {process : Process Command Failure Result}

namespace Safe

theorem rely (h : contract.Safe index process world Q) (hRely : contract.Rely index world world') :
    contract.Safe index process world' Q := by
  cases process with
  | pure result => exact fun now hNow hLater => h now hNow (contract.trans hRely hLater)
  | throw failure => exact fun now hNow hLater => h now hNow (contract.trans hRely hLater)
  | issue command next => exact fun now hNow hLater => h now hNow (contract.trans hRely hLater)

/-- It is enough to verify a call in the worlds that it may meet. -/
theorem of_later (h : ∀ now, contract.Sound now → contract.Rely index world now →
    contract.Safe index process now Q) : contract.Safe index process world Q := by
  cases process with
  | pure result => exact fun now hNow hRely => h now hNow hRely now hNow (contract.refl _ _)
  | throw failure => exact fun now hNow hRely => h now hNow hRely now hNow (contract.refl _ _)
  | issue command next => exact fun now hNow hRely => h now hNow hRely now hNow (contract.refl _ _)

theorem bind {next : Result → Process Command Failure Result'}
    (h : contract.Safe index process world Q)
    (hNext : ∀ result now, contract.Sound now → Q (.ok result) now →
      contract.Safe index (next result) now Q')
    (hThrow : ∀ failure now, contract.Sound now → Q (.error failure) now →
      Q' (.error failure) now) :
    contract.Safe index (process >>= next) world Q' := by
  induction process generalizing world with
  | pure result => exact of_later fun now hNow hRely => hNext result now hNow (h now hNow hRely)
  | throw failure => exact fun now hNow hRely => hThrow failure now hNow (h now hNow hRely)
  | issue command rest ih =>
      intro now hNow hRely
      obtain ⟨hRequires, hRest⟩ := h now hNow hRely
      exact ⟨hRequires, fun reply later hAnswers => ih reply (hRest reply later hAnswers)⟩

/-- What follows a part that does not throw. -/
theorem bind_of_ok {R : Result → World → Prop} {next : Result → Process Command Failure Result'}
    (h : contract.Safe index process world
      (fun result now => ∃ value, result = .ok value ∧ R value now))
    (hNext : ∀ value now, contract.Sound now → R value now →
      contract.Safe index (next value) now Q') :
    contract.Safe index (process >>= next) world Q' := by
  apply h.bind
  · intro result now hNow hResult
    obtain ⟨value, hValue, hHolds⟩ := hResult
    cases hValue
    exact hNext result now hNow hHolds
  · intro failure now hNow hResult
    obtain ⟨value, hValue, _⟩ := hResult
    cases hValue

/-- A failure that is caught is a result. -/
theorem attempt (h : contract.Safe index process world Q) :
    contract.Safe index process.attempt world
      (fun result now => ∃ caught, result = .ok caught ∧ Q caught now) := by
  induction process generalizing world with
  | pure result => exact fun now hNow hRely => ⟨_, rfl, h now hNow hRely⟩
  | throw failure => exact fun now hNow hRely => ⟨_, rfl, h now hNow hRely⟩
  | issue command next ih =>
      intro now hNow hRely
      obtain ⟨hRequires, hNext⟩ := h now hNow hRely
      exact ⟨hRequires, fun reply later hAnswers => ih reply (hNext reply later hAnswers)⟩

/-- What an answer says has to last until the others have gone on. -/
theorem perform {command : Command Result}
    (h : ∀ now, contract.Sound now → contract.Rely index world now →
      contract.Requires index command now ∧
      ∀ reply later last, service.Answers index command now reply later → contract.Sound last →
        contract.Rely index later last → Q reply last) :
    contract.Safe index (.perform command) world Q := by
  intro now hNow hRely
  obtain ⟨hRequires, hReply⟩ := h now hNow hRely
  refine ⟨hRequires, fun reply later hAnswers => ?_⟩
  cases reply with
  | ok result => exact fun last hLast hLater => hReply _ later last hAnswers hLast hLater
  | error failure => exact fun last hLast hLater => hReply _ later last hAnswers hLast hLater

end Safe

/-- The world is sound and every call is verified from here on. -/
structure Holds (contract : Contract service) (Q : Index → Except Failure Result → World → Prop)
    (state : State Command Failure Result World Index) : Prop where
  sound : contract.Sound state.world
  safe : ∀ index, contract.Safe index (state.calls index) state.world (Q index)

namespace Holds

variable {Q : Index → Except Failure Result → World → Prop}
  {state state' : State Command Failure Result World Index}

/-- What a call that is over has returned. -/
theorem result (h : contract.Holds Q state) {result : Except Failure Result}
    (hEnded : state.calls index = ended result) : Q index result state.world := by
  have hSafe := h.safe index
  rw [hEnded] at hSafe
  cases result with
  | ok result => exact hSafe _ h.sound (contract.refl _ _)
  | error failure => exact hSafe _ h.sound (contract.refl _ _)

/-- A command that waits meets its requirements. -/
theorem requires (h : contract.Holds Q state) {Reply : Type} {command : Command Reply}
    {next : Except Failure Reply → Process Command Failure Result}
    (hWaiting : state.calls index = .issue command next) :
    contract.Requires index command state.world := by
  have hSafe := h.safe index
  rw [hWaiting] at hSafe
  exact (hSafe _ h.sound (contract.refl _ _)).1

variable [DecidableEq Index]

theorem step (h : contract.Holds Q state) (hStep : service.Step state state') :
    contract.Holds Q state' := by
  cases hStep with
  | answer index reply world' waiting answers =>
      obtain ⟨hSound, hRely⟩ := contract.answer h.sound (h.requires waiting) answers
      refine ⟨hSound, fun other => ?_⟩
      dsimp only
      by_cases hOther : other = index
      · rw [hOther, Function.update_self]
        have hSafe := h.safe index
        rw [waiting] at hSafe
        exact (hSafe _ h.sound (contract.refl _ _)).2 reply world' answers
      · rw [Function.update_of_ne hOther]
        exact (h.safe other).rely (hRely other hOther)

/-- Calls that are verified one by one stay verified in every interleaving. -/
theorem of_takes (h : contract.Holds Q state) {count : Nat}
    (hRun : service.Takes count state state') : contract.Holds Q state' := by
  induction hRun with
  | zero => exact h
  | succ step rest ih => exact ih (h.step step)

end Holds
end Contract
end Interleaving
