import Mathlib.Logic.Function.Basic
import Mathlib.Logic.Relation

/-! Processes that run side by side and act on a shared world through
commands. A command may take effect, fail, or take effect while its reply is
lost, and a process may stop between any two of its commands. Programs are
verified one by one: each may rely on how the world grows under the others and
has to issue only commands that are allowed in whatever world it meets. -/
namespace Processes

/-- A process is given the reply to each of its commands, or its failure. -/
inductive Process (Command : Type → Type) (Failure Result : Type) : Type 1 where
  | pure (result : Result)
  | throw (failure : Failure)
  | issue {Reply : Type} (command : Command Reply)
      (next : Except Failure Reply → Process Command Failure Result)

/-- What commands do when they take effect, what else happens to the world,
and which processes may be started. -/
structure Services (Command : Type → Type) (Failure World Index : Type) where
  effect : Index → {Reply : Type} → Command Reply → World → Reply → World → Prop
  outside : World → World → Prop
  spawns : Index → World → Process Command Failure Unit → Prop

structure Cluster (Command : Type → Type) (Failure World Index : Type) : Type 1 where
  world : World
  processes : Index → Option (Process Command Failure Unit)

variable {Command : Type → Type} {Failure World Index Result Result' : Type}

namespace Process

def bind (process : Process Command Failure Result)
    (next : Result → Process Command Failure Result') : Process Command Failure Result' :=
  match process with
  | .pure result => next result
  | .throw failure => .throw failure
  | .issue command rest => .issue command (fun reply => (rest reply).bind next)

instance : Monad (Process Command Failure) where
  pure := .pure
  bind := .bind

/-- A process of one command, whose failure is thrown. -/
def perform {Reply : Type} (command : Command Reply) : Process Command Failure Reply :=
  .issue command fun
    | .ok reply => .pure reply
    | .error failure => .throw failure

/-- Catch what a process throws. -/
def attempt : Process Command Failure Result → Process Command Failure (Except Failure Result)
  | .pure result => .pure (.ok result)
  | .throw failure => .pure (.error failure)
  | .issue command next => .issue command (fun reply => (next reply).attempt)

end Process

namespace Cluster

/-- No process has been started. -/
def start (world : World) : Cluster Command Failure World Index := ⟨world, fun _ => none⟩

variable [DecidableEq Index]

/-- The processes of a cluster over another view of its world. -/
def map {View : Type} (cluster : Cluster Command Failure World Index) (f : World → View) :
    Cluster Command Failure View Index := ⟨f cluster.world, cluster.processes⟩

def put (cluster : Cluster Command Failure World Index) (index : Index)
    (process : Option (Process Command Failure Unit)) : Cluster Command Failure World Index :=
  { cluster with processes := Function.update cluster.processes index process }

variable {cluster : Cluster Command Failure World Index} {index other : Index}
  {process : Option (Process Command Failure Unit)}

theorem processes_put_self : (cluster.put index process).processes index = process :=
  Function.update_self ..

theorem processes_put_of_ne (hNe : other ≠ index) :
    (cluster.put index process).processes other = cluster.processes other :=
  Function.update_of_ne hNe ..

end Cluster

namespace Services

variable (services : Services Command Failure World Index)

/-- What a process may see of a command. -/
inductive Performs (index : Index) {Reply : Type} (command : Command Reply) (world : World) :
    Except Failure Reply → World → Prop where
  | done {reply : Reply} {world' : World}
      (effect : services.effect index command world reply world') :
      Performs index command world (.ok reply) world'
  | lost {reply : Reply} {world' : World} (failure : Failure)
      (effect : services.effect index command world reply world') :
      Performs index command world (.error failure) world'
  | failed (failure : Failure) : Performs index command world (.error failure) world

variable [DecidableEq Index]

/-- A step, and the process that takes it. -/
inductive Step (cluster : Cluster Command Failure World Index) :
    Option Index → Cluster Command Failure World Index → Prop where
  | spawn (index : Index) {process : Process Command Failure Unit}
      (idle : cluster.processes index = none)
      (spawns : services.spawns index cluster.world process) :
      Step cluster (some index) (cluster.put index (some process))
  | perform (index : Index) {Reply : Type} {command : Command Reply}
      {next : Except Failure Reply → Process Command Failure Unit} {reply : Except Failure Reply}
      {world' : World} (running : cluster.processes index = some (.issue command next))
      (performs : services.Performs index command cluster.world reply world') :
      Step cluster (some index) { cluster.put index (some (next reply)) with world := world' }
  | stop (index : Index) : Step cluster (some index) (cluster.put index none)
  | outside {world' : World} (happens : services.outside cluster.world world') :
      Step cluster none { cluster with world := world' }

/-- A view of the world under which all that happens has its counterpart. -/
structure IsView {View : Type} (services : Services Command Failure World Index)
    (services' : Services Command Failure View Index) (f : World → View) : Prop where
  effect :
    ∀ {index : Index} {Reply : Type} {command : Command Reply} {world : World} {reply : Reply}
    {world' : World}, services.effect index command world reply world' →
      services'.effect index command (f world) reply (f world')
  outside : ∀ {world world'}, services.outside world world' → services'.outside (f world) (f world')
  spawns : ∀ {index world process}, services.spawns index world process →
    services'.spawns index (f world) process

/-- What any interleaving leads to. -/
def Reaches : Cluster Command Failure World Index → Cluster Command Failure World Index → Prop :=
  Relation.ReflTransGen fun cluster cluster' => ∃ actor, services.Step cluster actor cluster'

/-- What interleavings lead to in which every process that takes a step meets a
condition before it. -/
def ReachesWith (P : Cluster Command Failure World Index → Index → Prop) :
    Cluster Command Failure World Index → Cluster Command Failure World Index → Prop :=
  Relation.ReflTransGen fun cluster cluster' =>
    ∃ actor, services.Step cluster actor cluster' ∧ ∀ index ∈ actor, P cluster index

/-- One process goes on while the others rest. -/
inductive Runs (index : Index) :
    Process Command Failure Result → World → Process Command Failure Result → World → Prop where
  | nil {process : Process Command Failure Result} {world : World} :
      Runs index process world process world
  | perform {Reply : Type} {command : Command Reply}
      {next : Except Failure Reply → Process Command Failure Result} (reply : Except Failure Reply)
      {world world' last : World} {rest : Process Command Failure Result}
      (performs : services.Performs index command world reply world')
      (runs : Runs index (next reply) world' rest last) :
      Runs index (.issue command next) world rest last
  | outside {process rest : Process Command Failure Result} {world world' last : World}
      (happens : services.outside world world') (runs : Runs index process world' rest last) :
      Runs index process world rest last

/-- A process goes on alone to its result, and its commands succeed. -/
inductive Succeeds (index : Index) :
    Process Command Failure Result → World → Result → World → Prop where
  | pure {result : Result} {world : World} : Succeeds index (.pure result) world result world
  | issue {Reply : Type} {command : Command Reply}
      {next : Except Failure Reply → Process Command Failure Result} {reply : Reply}
      {result : Result} {world world' last : World}
      (effect : services.effect index command world reply world')
      (rest : Succeeds index (next (.ok reply)) world' result last) :
      Succeeds index (.issue command next) world result last

/-- A process is started and runs to its end, or something permitted happens. -/
inductive Turn (permitted : World → World → Prop) (index : Index) : World → World → Prop where
  | complete {process : Process Command Failure Unit} {world world' : World}
      (spawns : services.spawns index world process)
      (succeeds : services.Succeeds index process world () world') :
      Turn permitted index world world'
  | outside {world world' : World} (happens : services.outside world world')
      (allowed : permitted world world') : Turn permitted index world world'

/-- What one process after another achieves when nothing fails. -/
def Repairs (permitted : World → World → Prop) (index : Index) : World → World → Prop :=
  Relation.ReflTransGen (services.Turn permitted index)

variable {services} {first cluster : Cluster Command Failure World Index} {index : Index}

section Views

variable {View : Type} {services' : Services Command Failure View Index} {f : World → View}
  {actor : Option Index} {cluster' : Cluster Command Failure World Index}

theorem IsView.step (h : services.IsView services' f)
    (hStep : services.Step cluster actor cluster') :
    services'.Step (cluster.map f) actor (cluster'.map f) := by
  cases hStep with
  | spawn index idle spawns => exact .spawn index idle (h.spawns spawns)
  | perform index running performs =>
      refine @Step.perform _ _ _ _ services' _ (cluster.map f) index _ _ _ _ _ running ?_
      cases performs with
      | done effect => exact .done (h.effect effect)
      | lost failure effect => exact .lost failure (h.effect effect)
      | failed failure => exact .failed failure
  | stop index => exact @Step.stop _ _ _ _ services' _ (cluster.map f) index
  | outside happens => exact @Step.outside _ _ _ _ services' _ (cluster.map f) _ (h.outside happens)

theorem IsView.reaches (h : services.IsView services' f) (hRun : services.Reaches first cluster) :
    services'.Reaches (first.map f) (cluster.map f) := by
  induction hRun with
  | refl => exact .refl
  | tail _ hStep ih => exact ih.tail ⟨hStep.choose, h.step hStep.choose_spec⟩

end Views

section Succeeds

omit [DecidableEq Index]

variable {process : Process Command Failure Result} {result : Result} {result' : Result'}
  {world world' world'' : World}

theorem Succeeds.perform {Reply : Type} {command : Command Reply} {reply : Reply}
    (effect : services.effect index command world reply world') :
    services.Succeeds index (.perform command) world reply world' :=
  .issue effect .pure

theorem Succeeds.bind {next : Result → Process Command Failure Result'}
    (h : services.Succeeds index process world result world')
    (hNext : services.Succeeds index (next result) world' result' world'') :
    services.Succeeds index (process >>= next) world result' world'' := by
  induction h with
  | pure => exact hNext
  | issue effect rest ih => exact .issue effect (ih hNext)

/-- Nothing is caught. -/
theorem Succeeds.attempt (h : services.Succeeds index process world result world') :
    services.Succeeds index process.attempt world (.ok result) world' := by
  induction h with
  | pure => exact .pure
  | issue effect rest ih => exact .issue effect ih

theorem Succeeds.runs (h : services.Succeeds index process world result world') :
    services.Runs index process world (.pure result) world' := by
  induction h with
  | pure => exact .nil
  | issue effect rest ih => exact .perform _ (.done effect) ih

end Succeeds

omit [DecidableEq Index] in
/-- A process goes on as its first part does. -/
theorem Runs.bind {process rest : Process Command Failure Result} {world last : World}
    {next : Result → Process Command Failure Result'}
    (h : services.Runs index process world rest last) :
    services.Runs index (process >>= next) world (rest >>= next) last := by
  induction h with
  | nil => exact .nil
  | perform reply performs runs ih => exact .perform reply performs ih
  | outside happens runs ih => exact .outside happens ih

theorem ReachesWith.reaches {P : Cluster Command Failure World Index → Index → Prop}
    (h : services.ReachesWith P first cluster) : services.Reaches first cluster := by
  induction h with
  | refl => exact .refl
  | tail _ hStep ih => exact ih.tail ⟨hStep.choose, hStep.choose_spec.1⟩

/-- A condition that follows in reachable states may replace another. -/
theorem ReachesWith.imp {P Q : Cluster Command Failure World Index → Index → Prop}
    (h : services.ReachesWith P first cluster)
    (hImp : ∀ cluster index, services.Reaches first cluster → P cluster index → Q cluster index) :
    services.ReachesWith Q first cluster := by
  induction h with
  | refl => exact .refl
  | @tail middle last hBefore hStep ih =>
      obtain ⟨actor, hActor, hMeets⟩ := hStep
      exact ih.tail ⟨actor, hActor, fun index hIndex =>
        hImp middle index (ReachesWith.reaches hBefore) (hMeets index hIndex)⟩

/-- What every command and everything else keeps true of the world holds
after any interleaving, whatever the processes are. -/
theorem Reaches.keeps {P : World → Prop} (h : services.Reaches first cluster)
    (hEffect :
      ∀ (index : Index) {Reply : Type} (command : Command Reply) (world : World) (reply : Reply)
      (world' : World), services.effect index command world reply world' → P world → P world')
    (hOutside : ∀ world world', services.outside world world' → P world → P world')
    (hStart : P first.world) : P cluster.world := by
  induction h with
  | refl => exact hStart
  | tail _ hStep ih =>
      obtain ⟨actor, hStep⟩ := hStep
      cases hStep with
      | spawn index idle spawns => exact ih
      | perform index running performs =>
          cases performs with
          | done effect => exact hEffect _ _ _ _ _ effect ih
          | lost failure effect => exact hEffect _ _ _ _ _ effect ih
          | failed failure => exact ih
      | stop index => exact ih
      | outside happens => exact hOutside _ _ happens ih

theorem Reaches.outside (h : services.Reaches first cluster) {world : World}
    (happens : services.outside cluster.world world) :
    services.Reaches first { cluster with world := world } :=
  h.tail ⟨none, .outside happens⟩

theorem Reaches.runs {process rest : Process Command Failure Unit} {last : World}
    (h : services.Reaches first cluster) (hProcess : cluster.processes index = some process)
    (hRuns : services.Runs index process cluster.world rest last) :
    services.Reaches first { cluster.put index (some rest) with world := last } := by
  obtain ⟨world, processes⟩ := cluster
  dsimp only at hRuns
  induction hRuns generalizing processes with
  | nil => rwa [Cluster.put, ← hProcess, Function.update_eq_self]
  | perform reply performs runs ih =>
      have hRest := ih _ (h.tail ⟨some index, .perform index hProcess performs⟩)
        Cluster.processes_put_self
      rwa [Cluster.put, Cluster.put, Function.update_idem] at hRest
  | outside happens runs ih => exact ih processes (h.outside happens) hProcess

/-- A new process goes some way alone. -/
theorem Reaches.spawn {process rest : Process Command Failure Unit} {last : World}
    (h : services.Reaches first cluster) (hIdle : cluster.processes index = none)
    (hSpawns : services.spawns index cluster.world process)
    (hRuns : services.Runs index process cluster.world rest last) :
    services.Reaches first { cluster.put index (some rest) with world := last } := by
  have hSpawn : services.Reaches first (cluster.put index (some process)) :=
    h.tail ⟨some index, .spawn index hIdle hSpawns⟩
  have hSpawned := hSpawn.runs Cluster.processes_put_self hRuns
  rwa [Cluster.put, Cluster.put, Function.update_idem] at hSpawned

/-- Repairs are possible while all other processes hang. -/
theorem Repairs.reaches {permitted : World → World → Prop} {world : World}
    (h : services.Repairs permitted index cluster.world world) :
    services.Reaches cluster { cluster.put index none with world := world } := by
  induction h with
  | refl => exact .single ⟨some index, .stop index⟩
  | tail _ hTurn ih =>
      cases hTurn with
      | complete spawns succeeds =>
          have hDone := ih.spawn Cluster.processes_put_self spawns succeeds.runs
          have hStopped := hDone.tail ⟨some index, .stop index⟩
          rwa [Cluster.put, Cluster.put, Cluster.put, Function.update_idem, Function.update_idem]
            at hStopped
      | outside happens allowed => exact ih.outside happens

end Services

/-- An invariant of the world, an order in which the world grows, and the
commands that keep both. -/
structure Discipline (services : Services Command Failure World Index) where
  Sound : World → Prop
  Grows : World → World → Prop
  Allows : Index → {Reply : Type} → Command Reply → World → Prop
  refl : ∀ world, Grows world world
  trans : ∀ {first second third}, Grows first second → Grows second third → Grows first third
  effect : ∀ {index : Index} {Reply : Type} {command : Command Reply} {world : World}
    {reply : Reply} {world' : World}, Sound world → Allows index command world →
    services.effect index command world reply world' → Sound world' ∧ Grows world world'
  outside : ∀ {world world' : World}, Sound world → services.outside world world' →
    Sound world' ∧ Grows world world'

namespace Discipline

variable {services : Services Command Failure World Index} (discipline : Discipline services)

/-- From here on the process issues allowed commands only, and what it returns
satisfies `Q`, however the world grows in between. -/
def Safe (index : Index) (process : Process Command Failure Result) (world : World)
    (Q : Result → World → Prop) : Prop :=
  match process with
  | .pure result => ∀ now, discipline.Sound now → discipline.Grows world now → Q result now
  | .throw _ => True
  | .issue command next => ∀ now, discipline.Sound now → discipline.Grows world now →
      discipline.Allows index command now ∧
      ∀ reply later, services.Performs index command now reply later →
        Safe index (next reply) later Q

variable {discipline} {index : Index} {world world' : World} {Q : Result → World → Prop}
  {Q' : Result' → World → Prop} {process : Process Command Failure Result}

/-- Whether or not its reply arrives, an allowed command keeps the discipline. -/
theorem performs {Reply : Type} {command : Command Reply} {reply : Except Failure Reply}
    (hSound : discipline.Sound world) (hAllows : discipline.Allows index command world)
    (h : services.Performs index command world reply world') :
    discipline.Sound world' ∧ discipline.Grows world world' := by
  cases h with
  | done hEffect => exact discipline.effect hSound hAllows hEffect
  | lost failure hEffect => exact discipline.effect hSound hAllows hEffect
  | failed failure => exact ⟨hSound, discipline.refl world⟩

namespace Safe

theorem grow (h : discipline.Safe index process world Q) (hGrows : discipline.Grows world world') :
    discipline.Safe index process world' Q := by
  cases process with
  | pure result => exact fun now hNow hLater => h now hNow (discipline.trans hGrows hLater)
  | throw failure => exact trivial
  | issue command next => exact fun now hNow hLater => h now hNow (discipline.trans hGrows hLater)

/-- It is enough to verify a process in the worlds that it may meet. -/
theorem of_later (h : ∀ now, discipline.Sound now → discipline.Grows world now →
    discipline.Safe index process now Q) : discipline.Safe index process world Q := by
  cases process with
  | pure result => exact fun now hNow hGrows => h now hNow hGrows now hNow (discipline.refl now)
  | throw failure => exact trivial
  | issue command next =>
      exact fun now hNow hGrows => h now hNow hGrows now hNow (discipline.refl now)

theorem bind {next : Result → Process Command Failure Result'}
    (h : discipline.Safe index process world Q)
    (hNext : ∀ result now, discipline.Sound now → discipline.Grows world now → Q result now →
      discipline.Safe index (next result) now Q') :
    discipline.Safe index (process >>= next) world Q' := by
  induction process generalizing world with
  | pure result =>
      exact of_later fun now hNow hGrows => hNext result now hNow hGrows (h now hNow hGrows)
  | throw failure => exact trivial
  | issue command rest ih =>
      intro now hNow hGrows
      obtain ⟨hAllows, hRest⟩ := h now hNow hGrows
      refine ⟨hAllows, fun reply later hPerforms => ih reply (hRest reply later hPerforms) ?_⟩
      intro result end' hEnd hLater
      have hStep := performs hNow hAllows hPerforms
      exact hNext result end' hEnd (discipline.trans hGrows (discipline.trans hStep.2 hLater))

/-- Nothing is known of the world that a caught failure leaves. -/
theorem attempt (h : discipline.Safe index process world Q) :
    discipline.Safe index process.attempt world
      (fun result now => ∀ value, result = .ok value → Q value now) := by
  induction process generalizing world with
  | pure result =>
      intro now hNow hGrows value hValue
      cases hValue
      exact h now hNow hGrows
  | throw failure =>
      intro now _ _ value hValue
      cases hValue
  | issue command next ih =>
      intro now hNow hGrows
      obtain ⟨hAllows, hNext⟩ := h now hNow hGrows
      exact ⟨hAllows, fun reply later hPerforms => ih reply (hNext reply later hPerforms)⟩

/-- A command needs to be allowed; what its reply says has to last. -/
theorem perform {command : Command Result}
    (hAllows : ∀ now, discipline.Sound now → discipline.Grows world now →
      discipline.Allows index command now)
    (hReply : ∀ now reply later last, discipline.Sound now → discipline.Grows world now →
      services.effect index command now reply later → discipline.Sound last →
      discipline.Grows later last → Q reply last) :
    discipline.Safe index (.perform command) world Q := by
  intro now hNow hGrows
  refine ⟨hAllows now hNow hGrows, fun reply later hPerforms => ?_⟩
  cases hPerforms with
  | done hEffect =>
      exact fun last hLast hLater => hReply now _ later last hNow hGrows hEffect hLast hLater
  | lost failure hEffect => exact trivial
  | failed failure => exact trivial

end Safe

/-- All processes of a sound world are safe. -/
structure Holds (discipline : Discipline services) (cluster : Cluster Command Failure World Index) :
    Prop where
  sound : discipline.Sound cluster.world
  safe : ∀ index process, cluster.processes index = some process →
    discipline.Safe index process cluster.world (fun _ _ => True)

variable {cluster cluster' : Cluster Command Failure World Index} {actor : Option Index}

theorem holds_start (hSound : discipline.Sound world) : discipline.Holds (Cluster.start world) :=
  ⟨hSound, fun _ _ hNone => by cases hNone⟩

/-- A process under way may only perform what is allowed. -/
theorem Holds.allows (h : discipline.Holds cluster) {Reply : Type} {command : Command Reply}
    {next : Except Failure Reply → Process Command Failure Unit}
    (hRunning : cluster.processes index = some (.issue command next)) :
    discipline.Allows index command cluster.world :=
  (h.safe index _ hRunning _ h.sound (discipline.refl _)).1

variable [DecidableEq Index]

/-- Go on in a grown world, with one process replaced. -/
theorem Holds.put (h : discipline.Holds cluster) (hSound : discipline.Sound world')
    (hGrows : discipline.Grows cluster.world world')
    {process : Option (Process Command Failure Unit)}
    (hProcess : ∀ running ∈ process, discipline.Safe index running world' (fun _ _ => True)) :
    discipline.Holds { cluster.put index process with world := world' } := by
  refine ⟨hSound, fun other running hRunning => ?_⟩
  by_cases hOther : other = index
  · subst hOther
    exact hProcess running (Cluster.processes_put_self.symm.trans hRunning)
  · exact (h.safe other running ((Cluster.processes_put_of_ne hOther).symm.trans hRunning)).grow
      hGrows

theorem Holds.step (h : discipline.Holds cluster)
    (hSpawns : ∀ index world process, discipline.Sound world →
      services.spawns index world process → discipline.Safe index process world (fun _ _ => True))
    (hStep : services.Step cluster actor cluster') :
    discipline.Holds cluster' ∧ discipline.Grows cluster.world cluster'.world := by
  cases hStep with
  | spawn index idle spawns =>
      refine ⟨h.put h.sound (discipline.refl _) fun running hRunning => ?_, discipline.refl _⟩
      cases hRunning
      exact hSpawns index _ _ h.sound spawns
  | perform index running performs =>
      obtain ⟨hAllows, hNext⟩ := h.safe index _ running _ h.sound (discipline.refl _)
      obtain ⟨hSound, hGrows⟩ := discipline.performs h.sound hAllows performs
      refine ⟨h.put hSound hGrows fun running hRunning => ?_, hGrows⟩
      cases hRunning
      exact hNext _ _ performs
  | stop index =>
      refine ⟨h.put h.sound (discipline.refl _) fun running hRunning => ?_, discipline.refl _⟩
      cases hRunning
  | outside happens =>
      obtain ⟨hSound, hGrows⟩ := discipline.outside h.sound happens
      exact ⟨⟨hSound, fun index other hOther => (h.safe index other hOther).grow hGrows⟩,
        hGrows⟩

/-- When every process that may be started is safe, every interleaving keeps
the discipline. -/
theorem Holds.of_reaches (h : discipline.Holds cluster)
    (hSpawns : ∀ index world process, discipline.Sound world →
      services.spawns index world process → discipline.Safe index process world (fun _ _ => True))
    (hRun : services.Reaches cluster cluster') : discipline.Holds cluster' := by
  induction hRun with
  | refl => exact h
  | tail _ hStep ih => exact (ih.step hSpawns hStep.choose_spec).1

end Discipline
end Processes
