import ExchangeMatching.Library.Program
import Mathlib.Logic.Relation

/-! One program in a world that others change as well. Between any two of its
statements the rest of the world may take any number of steps, and a statement
that has no effect yet waits for them. -/
namespace Transactions

/-- What statements do in a world, and what else happens to it. -/
structure Surroundings (Statement : Type → Type) (Failure World : Type) where
  effect : {Reply : Type} → Statement Reply → World → Except Failure Reply → World → Prop
  outside : World → World → Prop

variable {Statement : Type → Type} {Failure World Result : Type}

namespace Surroundings

variable (surroundings : Surroundings Statement Failure World)

/-- How far a program may have come. -/
inductive Runs : Program Statement Failure Result → World →
    Program Statement Failure Result → World → Prop where
  | nil {program : Program Statement Failure Result}
      {world : World} : Runs program world program world
  | reply {Reply : Type} {statement : Statement Reply}
      {next : Reply → Program Statement Failure Result} {reply : Reply} {world world' last : World}
      {rest : Program Statement Failure Result}
      (effect : surroundings.effect statement world (.ok reply) world')
      (runs : Runs (next reply) world' rest last) : Runs (.issue statement next) world rest last
  | fail {Reply : Type} {statement : Statement Reply}
      {next : Reply → Program Statement Failure Result} {failure : Failure}
      {world world' last : World} {rest : Program Statement Failure Result}
      (effect : surroundings.effect statement world (.error failure) world')
      (runs : Runs (.throw failure) world' rest last) : Runs (.issue statement next) world rest last
  | outside {program rest : Program Statement Failure Result} {world world' last : World}
      (happens : surroundings.outside world world') (runs : Runs program world' rest last) :
      Runs program world rest last

/-- What others may make of a world. -/
abbrev Later : World → World → Prop := Relation.ReflTransGen surroundings.outside

/-- From here on `I` holds in every world, `Q` of what the program returns and
`E` of what it throws. -/
def Safe (I : World → Prop) (Q : Result → World → Prop) (E : Failure → Prop) :
    Program Statement Failure Result → World → Prop
  | .pure result, world => ∀ now, surroundings.Later world now → I now ∧ Q result now
  | .throw failure, world => ∀ now, surroundings.Later world now → I now ∧ E failure
  | .issue statement next, world => ∀ now, surroundings.Later world now → I now ∧
      (∀ reply later, surroundings.effect statement now (.ok reply) later →
        Safe I Q E (next reply) later) ∧
      ∀ failure later, surroundings.effect statement now (.error failure) later →
        ∀ last, surroundings.Later later last → I last ∧ E failure

variable {surroundings} {I : World → Prop} {Q : Result → World → Prop} {E : Failure → Prop}
  {program rest : Program Statement Failure Result} {world last : World}

theorem Safe.now (h : surroundings.Safe I Q E program world) : I world := by
  cases program with
  | pure result => exact (h world .refl).1
  | throw failure => exact (h world .refl).1
  | issue statement next => exact (h world .refl).1

theorem Safe.outside (h : surroundings.Safe I Q E program world) {world' : World}
    (hHappens : surroundings.outside world world') : surroundings.Safe I Q E program world' := by
  cases program with
  | pure result => exact fun now hLater => h now (hLater.head hHappens)
  | throw failure => exact fun now hLater => h now (hLater.head hHappens)
  | issue statement next => exact fun now hLater => h now (hLater.head hHappens)

/-- A safe program stays safe, however far it has come. -/
theorem Safe.runs (h : surroundings.Safe I Q E program world)
    (hRuns : surroundings.Runs program world rest last) : surroundings.Safe I Q E rest last := by
  induction hRuns with
  | nil => exact h
  | reply effect runs ih => exact ih ((h _ .refl).2.1 _ _ effect)
  | fail effect runs ih => exact ih ((h _ .refl).2.2 _ _ effect)
  | outside happens runs ih => exact ih (h.outside happens)

theorem Runs.of_later {world' : World} (hLater : surroundings.Later world world')
    (hRuns : surroundings.Runs program world' rest last) :
    surroundings.Runs program world rest last := by
  induction hLater using Relation.ReflTransGen.head_induction_on with
  | refl => exact hRuns
  | head hHappens _ ih => exact .outside hHappens ih

/-- The program has returned or thrown. -/
def Finished : Program Statement Failure Result → Prop
  | .issue _ _ => False
  | _ => True

/-- If no statement has to wait forever then a program can always finish. -/
theorem exists_finished (hWaits : ∀ {Reply : Type} (statement : Statement Reply) (world : World),
      ∃ now reply world', surroundings.Later world now ∧
        surroundings.effect statement now reply world')
    (program : Program Statement Failure Result) (world : World) :
    ∃ rest last, surroundings.Runs program world rest last ∧ Finished rest := by
  induction program generalizing world with
  | pure result => exact ⟨_, world, .nil, trivial⟩
  | throw failure => exact ⟨_, world, .nil, trivial⟩
  | issue statement next ih =>
      obtain ⟨now, reply, world', hLater, hEffect⟩ := hWaits statement world
      cases reply with
      | ok reply =>
          obtain ⟨rest, last, hRuns, hFinished⟩ := ih reply world'
          exact ⟨rest, last, .of_later hLater (.reply hEffect hRuns), hFinished⟩
      | error failure => exact ⟨_, world', .of_later hLater (.fail hEffect .nil), trivial⟩

end Surroundings
end Transactions
