import ExchangeMatching.Library.Concurrency

/-! Serializability by replay. A transaction under way keeps the promise that
running it again from its start, in any state that the others may still leave,
ends as continuing from here does. At its commit that state is the committed
one, so the commit is a run of the transaction alone. -/
namespace Transactions

variable {Statement : Type → Type}
  {Failure Environment State Write Resource Outcome Result Result' Index : Type}

namespace Protocol

variable (protocol : Protocol Statement Failure Environment State Write Resource Outcome Index)
  (permits : Index → List Resource → Write → Prop)

/-- A write of another transaction, under the locks that it holds. -/
inductive Interference (index : Index) (held : List Resource) : State → State → Prop where
  | write {state : State} {other : Index} {held' : List Resource} {write : Write}
      (ne : other ≠ index) (disjoint : ∀ resource ∈ held', resource ∉ held)
      (permitted : permits other held' write) :
      Interference index held state (protocol.engine.apply state write)

/-- What the other transactions may do while these locks are held. -/
def Rely (index : Index) (held : List Resource) : State → State → Prop :=
  Relation.ReflTransGen (protocol.Interference permits index held)

/-- Run a program of a transaction on top of its uncommitted writes. -/
def runFrom (index : Index) (program : Program Statement Failure Result)
    (writes : List Write) (state : State) : Except Failure (Result × State) :=
  protocol.engine.run (protocol.environment index) program (protocol.engine.applyAll state writes)

/-- Every statement makes only permitted writes, and would lead to the same
results if it were issued later, under the locks that it leaves. -/
def Replays (index : Index) :
    Program Statement Failure Result → List Write → List Resource → State →
      (Result → List Write → List Resource → State → Prop) → Prop
  | .pure result, writes, held, state, Q =>
      ∀ now, protocol.Rely permits index held state now → Q result writes held now
  | .throw _, _, _, _, _ => True
  | .issue statement next, writes, held, state, Q =>
      ∀ now, protocol.Rely permits index held state now → ∀ reply written,
        protocol.effect index statement now writes = .ok (reply, written) →
        (∀ write ∈ written,
          permits index (protocol.heldAfter statement now writes held) write) ∧
        (∀ later, protocol.Rely permits index
            (protocol.heldAfter statement now writes held) now later →
          ∀ out, protocol.runFrom index (next reply) (writes ++ written) later = .ok out →
            protocol.runFrom index (.issue statement next) writes later = .ok out) ∧
        Replays index (next reply) (writes ++ written)
          (protocol.heldAfter statement now writes held) now Q

/-- The committed transactions, run one at a time. -/
inductive Serially (start : State) : List (Index × Outcome) → State → Prop where
  | nil : Serially start [] start
  | snoc {log : List (Index × Outcome)} {state state' earlier : State} {index : Index}
      {program : Program Statement Failure Outcome} {outcome : Outcome}
      (before : Serially start log state) (starts : protocol.starts index earlier program)
      (run : protocol.engine.run (protocol.environment index) program state =
        .ok (outcome, state')) :
      Serially start (log ++ [(index, outcome)]) state'

variable {protocol permits} {index : Index} {held held' : List Resource} {state state' : State}
  {writes : List Write}

theorem Rely.antitone (hHeld : held ⊆ held') (h : protocol.Rely permits index held' state state') :
    protocol.Rely permits index held state state' := by
  induction h with
  | refl => exact .refl
  | tail _ hStep ih =>
      cases hStep with
      | write ne disjoint permitted =>
          exact ih.tail (.write ne (fun resource hMem hOwn =>
            disjoint resource hMem (hHeld hOwn)) permitted)

/-- The commit of another transaction is such an interference. -/
theorem rely_applyAll {other : Index} (hOther : other ≠ index)
    (hDisjoint : ∀ resource ∈ held', resource ∉ held)
    (hPermitted : ∀ write ∈ writes, permits other held' write) :
    protocol.Rely permits index held state (protocol.engine.applyAll state writes) := by
  induction writes generalizing state with
  | nil => exact .refl
  | cons write writes ih =>
      rw [List.forall_mem_cons] at hPermitted
      exact .head (.write hOther hDisjoint hPermitted.1) (ih hPermitted.2)

/-- A fact that no single interference destroys survives all of them. -/
theorem Rely.keeps {P : State → Prop} (h : protocol.Rely permits index held state state')
    (hStep : ∀ {state state'}, protocol.Interference permits index held state state' →
      P state → P state') (hStart : P state) : P state' := by
  induction h with
  | refl => exact hStart
  | tail _ hLast ih => exact hStep hLast ih

namespace Replays

variable {Q Q' : Result → List Write → List Resource → State → Prop}
  {program : Program Statement Failure Result}

theorem rely (h : protocol.Replays permits index program writes held state Q)
    (hRely : protocol.Rely permits index held state state') :
    protocol.Replays permits index program writes held state' Q := by
  cases program with
  | pure result => exact fun now hNow => h now (hRely.trans hNow)
  | throw failure => exact trivial
  | issue statement next => exact fun now hNow => h now (hRely.trans hNow)

theorem mono (h : protocol.Replays permits index program writes held state Q)
    (hPost : ∀ result writes held state, Q result writes held state → Q' result writes held state) :
    protocol.Replays permits index program writes held state Q' := by
  induction program generalizing writes held state with
  | pure result => exact fun now hNow => hPost _ _ _ _ (h now hNow)
  | throw failure => exact trivial
  | issue statement next ih =>
      intro now hNow reply written hEffect
      obtain ⟨hWritten, hReplay, hNext⟩ := h now hNow reply written hEffect
      exact ⟨hWritten, hReplay, ih reply hNext⟩

/-- Locks are only added, and all writes stay permitted. -/
theorem withFrame (hMono : ∀ held held' write, held ⊆ held' → permits index held write →
      permits index held' write)
    (h : protocol.Replays permits index program writes held state Q)
    (hWrites : ∀ write ∈ writes, permits index held write) :
    protocol.Replays permits index program writes held state
      (fun result writes' held' state' => Q result writes' held' state' ∧ held ⊆ held' ∧
        ∀ write ∈ writes', permits index held' write) := by
  induction program generalizing writes held state with
  | pure result => exact fun now hNow => ⟨h now hNow, fun _ => id, hWrites⟩
  | throw failure => exact trivial
  | issue statement next ih =>
      intro now hNow reply written hEffect
      obtain ⟨hWritten, hReplay, hNext⟩ := h now hNow reply written hEffect
      have hHeld : held ⊆ protocol.heldAfter statement now writes held :=
        fun resource hMem => mem_heldAfter_of_mem hMem
      refine ⟨hWritten, hReplay, (ih reply hNext ?_).mono ?_⟩
      · intro write hMem
        rcases List.mem_append.mp hMem with hOld | hNew
        · exact hMono _ _ _ hHeld (hWrites write hOld)
        · exact hWritten write hNew
      · rintro result writes' held' state' ⟨hPost, hMore, hPermitted⟩
        exact ⟨hPost, fun _ hMem => hMore (hHeld hMem), hPermitted⟩

theorem bind {next : Result → Program Statement Failure Result'}
    {Q' : Result' → List Write → List Resource → State → Prop}
    (h : protocol.Replays permits index program writes held state Q)
    (hNext : ∀ result writes held state, Q result writes held state →
      protocol.Replays permits index (next result) writes held state Q') :
    protocol.Replays permits index (program >>= next) writes held state Q' := by
  induction program generalizing writes held state with
  | pure result => exact hNext result writes held state (h state .refl)
  | throw failure => exact trivial
  | issue statement rest ih =>
      intro now hNow reply written hEffect
      obtain ⟨hWritten, hReplay, hRest⟩ := h now hNow reply written hEffect
      refine ⟨hWritten, ?_, ih reply hRest⟩
      intro later hLater out hRun
      obtain ⟨result, middle, hFirst, hSecond⟩ := Engine.run_bind_eq_ok.mp hRun
      exact Engine.run_bind_eq_ok.mpr ⟨result, middle, hReplay later hLater _ hFirst, hSecond⟩

end Replays

/-- A statement that would do the same later leads to the same results. -/
theorem runFrom_issue_of_effect {Reply : Type} {statement : Statement Reply} {reply : Reply}
    {written : List Write} {next : Reply → Program Statement Failure Result} {later : State}
    (h : protocol.effect index statement later writes = .ok (reply, written)) :
    protocol.runFrom index (.issue statement next) writes later =
      protocol.runFrom index (next reply) (writes ++ written) later := by
  rw [runFrom, runFrom, Engine.run_issue_of_ok h, Engine.applyAll_append]

/-- What a transaction under way has done so far can be replayed. -/
structure Replayable
    (protocol : Protocol Statement Failure Environment State Write Resource Outcome Index)
    (permits : Index → List Resource → Write → Prop) (index : Index)
    (session : Session Statement Failure Write Resource Outcome) (state : State) : Prop where
  started : ∃ earlier program, protocol.starts index earlier program ∧
    ∀ later, protocol.Rely permits index session.held state later → ∀ out,
      protocol.runFrom index session.program session.writes later = .ok out →
      protocol.runFrom index program [] later = .ok out
  rest : protocol.Replays permits index session.program session.writes session.held state
    (fun _ _ _ _ => True)
  permitted : ∀ write ∈ session.writes, permits index session.held write

variable [DecidableEq Index] {system : System Statement Failure State Write Resource Outcome Index}

theorem replayable_of_reaches
    (hMono : ∀ index held held' write, held ⊆ held' → permits index held write →
      permits index held' write)
    (hReplays : ∀ index program state, protocol.starts index state program →
      protocol.Replays permits index program [] [] state (fun _ _ _ _ => True))
    (hRun : protocol.Reaches (.start state) system) {index : Index}
    {session : Session Statement Failure Write Resource Outcome}
    (hRunning : system.phases index = .running session) :
    protocol.Replayable permits index session system.committed := by
  refine running_induction (I := protocol.Replayable permits) ?_ ?_ ?_ hRun hRunning
  · intro index program state hStarts
    exact ⟨⟨state, program, hStarts, fun _ _ _ => id⟩,
      hReplays index program state hStarts, by simp⟩
  · intro index Reply statement next writes written held reply state hReplayable hEffect
    obtain ⟨⟨earlier, program, hStarts, hFirst⟩, hRest, hPermitted⟩ := hReplayable
    obtain ⟨hWritten, hReplay, hNext⟩ := hRest state .refl reply written hEffect
    have hHeld : held ⊆ protocol.heldAfter statement state writes held :=
      fun resource hMem => mem_heldAfter_of_mem hMem
    refine ⟨⟨earlier, program, hStarts, ?_⟩, hNext, ?_⟩
    · intro later hLater out hOut
      exact hFirst later (hLater.antitone hHeld) out (hReplay later hLater out hOut)
    · intro write hMem
      rcases List.mem_append.mp hMem with hOld | hNew
      · exact hMono _ _ _ _ hHeld (hPermitted write hOld)
      · exact hWritten write hNew
  · intro index other session result writes held state hOwn hCommitting hOther hDisjoint
    have hRely : protocol.Rely permits index session.held state
        (protocol.engine.applyAll state writes) :=
      rely_applyAll hOther hDisjoint hCommitting.permitted
    obtain ⟨earlier, program, hStarts, hFirst⟩ := hOwn.started
    exact ⟨⟨earlier, program, hStarts, fun later hLater => hFirst later (hRely.trans hLater)⟩,
      hOwn.rest.rely hRely, hOwn.permitted⟩

/-- Whatever the interleaving, the committed state is the one that the
committed transactions leave when they run one at a time in commit order. -/
theorem serially_of_reaches
    (hMono : ∀ index held held' write, held ⊆ held' → permits index held write →
      permits index held' write)
    (hReplays : ∀ index program state, protocol.starts index state program →
      protocol.Replays permits index program [] [] state (fun _ _ _ _ => True))
    (hRun : protocol.Reaches (.start state) system) :
    protocol.Serially state system.log system.committed := by
  induction hRun with
  | refl => exact .nil
  | tail hBefore hStep ih =>
      cases hStep with
      | start index idle starts => exact ih
      | execute index running free effect => exact ih
      | @commit committing result writes held running =>
          obtain ⟨earlier, program, hStarts, hReplay⟩ :=
            (replayable_of_reaches hMono hReplays hBefore running).started
          exact .snoc ih hStarts (hReplay _ .refl _ rfl)
      | rollback index running => exact ih

end Protocol
end Transactions
