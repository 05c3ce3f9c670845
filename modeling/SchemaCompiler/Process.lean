/-!
# Processes

Computations that run at once and share a state. A process takes single steps: each one reads the
state and changes it before another process takes a step. Turns say which process takes the next
step, and every order in which the steps of processes can follow each other is one of some turns.
-/

namespace SchemaCompiler

/-- A computation on a shared state, between whose steps other ones may take steps. -/
inductive Process (σ α : Type) where
  | done (result : α)
  /-- A step that changes the state, and what follows when the state before it was read. -/
  | step (update : σ → σ) (next : σ → Process σ α)

namespace Process

variable {σ α β : Type}

/-- A process that goes on with the result of another one. -/
def bind : Process σ α → (α → Process σ β) → Process σ β
  | done result, f => f result
  | step update next, f => step update fun state => (next state).bind f

instance : Monad (Process σ) where
  pure := done
  bind := bind

/-- A single step that changes the state and has a result. -/
def atomic (f : σ → σ × α) : Process σ α :=
  step (fun state => (f state).1) fun state => done (f state).2

/-- A single step that reads the state. -/
def read (f : σ → α) : Process σ α := atomic fun state => (state, f state)

/-- The state after a process that runs alone, and its result. -/
def run : Process σ α → σ → σ × α
  | done result, state => (state, result)
  | step update next, state => (next state).run (update state)

/-- The state after the next step of a process, if it has one, and the rest of the process. -/
def advance : Process σ α → σ → σ × Process σ α
  | done result, state => (state, done result)
  | step update next, state => (update state, next state)

/-- The state after some turns, and the rest of each process. The process of each turn takes a step;
where there is no such process, or no step is left, nothing happens. -/
def interleave : List Nat → σ → List (Process σ α) → σ × List (Process σ α)
  | [], state, processes => (state, processes)
  | turn :: turns, state, processes =>
    match processes[turn]? with
    | none => interleave turns state processes
    | some process =>
      let (state, process) := process.advance state
      interleave turns state (processes.set turn process)

/-- The state after processes that run one after another, and their results. -/
def runEach : σ → List (Process σ α) → σ × List α
  | state, [] => (state, [])
  | state, process :: processes =>
    let (state, result) := process.run state
    let (state, results) := runEach state processes
    (state, result :: results)

/-- The state after processes that run at once, and their results. They take some turns, and what is
left of them then runs one after another. -/
def runAll (turns : List Nat) (state : σ) (processes : List (Process σ α)) : σ × List α :=
  let (state, processes) := interleave turns state processes
  runEach state processes

end Process

end SchemaCompiler
