import Mathlib.Data.List.Forall2
import Mathlib.Order.Defs.Unbundled
import SchemaCompiler.Process

/-!
# Processes among others

What a process comes to while others take steps in between.  The steps of all of them are bounded
by a relation on states: `Process.Keeps` says that a process keeps to the relation, and that its
result is as stated if the others keep to it too.  There is a rule for each way to put a process
together.  Processes that are run at once, in whatever order their steps are taken, come to what
each of them keeps (`Process.Keeps.runAll`).
-/

namespace SchemaCompiler

namespace Process

variable {σ α β ε ι : Type}

/-! ### Processes that run alone -/

/-- A sequence runs its parts one after the other. -/
lemma run_bind (p : Process σ α) (f : α → Process σ β) (state : σ) :
    (p >>= f).run state = (f (p.run state).2).run (p.run state).1 := by
  induction p generalizing state with
  | done result => rfl
  | step update next ih => exact ih state (update state)

/-- A sequence of computations that can fail goes on where the first one succeeds. -/
lemma run_bindExcept (x : ExceptT ε (Process σ) α) (f : α → ExceptT ε (Process σ) β) (state : σ) :
    (x >>= f).run.run state =
      match x.run.run state with
      | (after, .ok a) => (f a).run.run after
      | (after, .error e) => (after, .error e) := by
  rw [show (x >>= f).run = x.run >>= ExceptT.bindCont f from rfl, run_bind]
  generalize x.run.run state = ended
  obtain ⟨after, e | a⟩ := ended <;> rfl

/-- A process that cannot fail is followed by one that can. -/
lemma run_liftExcept (p : Process σ α) (f : α → ExceptT ε (Process σ) β) :
    ((p : ExceptT ε (Process σ) α) >>= f).run = p >>= fun a => (f a).run := by
  induction p with
  | done result => rfl
  | step update next ih => exact congrArg (step update) (funext ih)

/-! ### Processes among others -/

/-- Whatever steps the relation allows are taken by others in between, the relation allows the steps
of the process too, and what is stated of its result and the state holds from its end on. -/
def Keeps (allowed : σ → σ → Prop) (post : σ → α → Prop) : Process σ α → σ → Prop
  | done result, state => ∀ later, allowed state later → post later result
  | step update next, state => ∀ now, allowed state now →
      allowed now (update now) ∧ (next now).Keeps allowed post (update now)

section Rules

variable {allowed : σ → σ → Prop} {post : σ → α → Prop} {post' : σ → β → Prop}
  {p : Process σ α} {state later : σ}

/-- A single step comes to what holds after it. -/
lemma keeps_atomic {f : σ → σ × α} (h : ∀ now, allowed state now → allowed now (f now).1 ∧
    ∀ later, allowed (f now).1 later → post later (f now).2) :
    (atomic f).Keeps allowed post state := h

/-- What is stated of the result can be weakened. -/
lemma Keeps.mono {weaker : σ → α → Prop} (h : p.Keeps allowed post state)
    (hweaker : ∀ later result, post later result → weaker later result) :
    p.Keeps allowed weaker state := by
  induction p generalizing state with
  | done result => exact fun later hlater => hweaker later result (h later hlater)
  | step update next ih =>
    intro now hnow
    exact ⟨(h now hnow).1, ih now (h now hnow).2⟩

/-- The next step of a process is allowed, and the rest of it keeps what it keeps. -/
lemma Keeps.advance [Std.Refl allowed] (h : p.Keeps allowed post state) :
    allowed state (p.advance state).1 ∧
      (p.advance state).2.Keeps allowed post (p.advance state).1 := by
  cases p with
  | done result => exact ⟨refl state, h⟩
  | step update next => exact h state (refl state)

variable [IsTrans σ allowed]

/-- Steps of others before the first one of a process do not matter. -/
lemma Keeps.of_allowed (h : p.Keeps allowed post state) (hlater : allowed state later) :
    p.Keeps allowed post later := by
  cases p with
  | done result => exact fun now hnow => h now (IsTrans.trans _ _ _ hlater hnow)
  | step update next => exact fun now hnow => h now (IsTrans.trans _ _ _ hlater hnow)

variable [Std.Refl allowed]

/-- A process that runs alone takes steps that are allowed and comes to what it keeps. -/
lemma Keeps.run (h : p.Keeps allowed post state) :
    allowed state (p.run state).1 ∧
      ∀ later, allowed (p.run state).1 later → post later (p.run state).2 := by
  induction p generalizing state with
  | done result => exact ⟨refl state, h⟩
  | step update next ih =>
    obtain ⟨hupdate, hnext⟩ := h state (refl state)
    obtain ⟨hrun, hpost⟩ := ih state hnext
    exact ⟨IsTrans.trans _ _ _ hupdate hrun, hpost⟩

/-- A sequence keeps what its second part keeps once the first part has ended. -/
lemma Keeps.bind {f : α → Process σ β} (h : p.Keeps allowed post state)
    (hf : ∀ later result, allowed state later → (∀ now, allowed later now → post now result) →
      (f result).Keeps allowed post' later) : (p >>= f).Keeps allowed post' state := by
  induction p generalizing state with
  | done result => exact hf state result (refl state) h
  | step update next ih =>
    intro now hnow
    obtain ⟨hupdate, hnext⟩ := h now hnow
    refine ⟨hupdate, ih now hnext fun later result hlater => hf later result ?_⟩
    exact IsTrans.trans _ _ _ hnow (IsTrans.trans _ _ _ hupdate hlater)

/-- A sequence of computations that can fail fails as its first part does, or goes on. -/
lemma Keeps.bindExcept {x : ExceptT ε (Process σ) α} {f : α → ExceptT ε (Process σ) β}
    {first : σ → Except ε α → Prop} {second : σ → Except ε β → Prop}
    (h : x.run.Keeps allowed first state)
    (hok : ∀ later a, allowed state later → first later (.ok a) →
      (f a).run.Keeps allowed second later)
    (herror : ∀ later e, first later (.error e) → second later (.error e)) :
    (x >>= f).run.Keeps allowed second state := by
  refine Keeps.bind (f := ExceptT.bindCont f) h fun later result hlater hfirst => ?_
  cases result with
  | ok a => exact hok later a hlater (hfirst later (refl later))
  | error e => exact fun now hnow => herror now e (hfirst now hnow)

end Rules

/-! ### Processes that run at once -/

section Pools

variable {allowed : σ → σ → Prop} [IsTrans σ allowed] [Std.Refl allowed]
  {posts : ι → σ → α → Prop} {indices : List ι} {processes : List (Process σ α)} {state : σ}

/-- If a process takes its turn, its step is allowed, and each process keeps what it keeps. -/
lemma Keeps.turn {turn : ℕ} {p : Process σ α}
    (h : List.Forall₂ (fun i p => p.Keeps allowed (posts i) state) indices processes)
    (hturn : processes[turn]? = some p) :
    allowed state (p.advance state).1 ∧
      List.Forall₂ (fun i p' => p'.Keeps allowed (posts i) (p.advance state).1) indices
        (processes.set turn (p.advance state).2) := by
  induction h generalizing turn with
  | nil => cases hturn
  | @cons i first indices rest hfirst hrest ih =>
    cases turn with
    | zero =>
      obtain rfl : first = p := Option.some.inj hturn
      obtain ⟨hallowed, hadvance⟩ := hfirst.advance
      exact ⟨hallowed, .cons hadvance (hrest.imp fun _ _ h => h.of_allowed hallowed)⟩
    | succ turn =>
      obtain ⟨hallowed, hset⟩ := ih hturn
      exact ⟨hallowed, .cons (hfirst.of_allowed hallowed) hset⟩

/-- Whatever turns processes take, the steps are allowed, and each process keeps what it keeps. -/
lemma Keeps.interleave (turns : List ℕ)
    (h : List.Forall₂ (fun i p => p.Keeps allowed (posts i) state) indices processes) :
    allowed state (Process.interleave turns state processes).1 ∧
      List.Forall₂ (fun i p =>
          p.Keeps allowed (posts i) (Process.interleave turns state processes).1)
        indices (Process.interleave turns state processes).2 := by
  induction turns generalizing state processes with
  | nil => exact ⟨refl state, h⟩
  | cons turn turns ih =>
    rw [Process.interleave]
    cases hturn : processes[turn]? with
    | none => exact ih h
    | some p =>
      obtain ⟨hstep, hset⟩ := Keeps.turn h hturn
      obtain ⟨hrest, hlater⟩ := ih hset
      exact ⟨IsTrans.trans _ _ _ hstep hrest, hlater⟩

/-- Processes that run one after another take steps that are allowed and come to what they keep. -/
lemma Keeps.runEach
    (h : List.Forall₂ (fun i p => p.Keeps allowed (posts i) state) indices processes) :
    allowed state (Process.runEach state processes).1 ∧
      List.Forall₂ (fun i result => posts i (Process.runEach state processes).1 result) indices
        (Process.runEach state processes).2 := by
  induction processes generalizing indices state with
  | nil =>
    cases h
    exact ⟨refl state, .nil⟩
  | cons p processes ih =>
    obtain ⟨i, indices, hfirst, hrest, rfl⟩ := List.forall₂_cons_right_iff.mp h
    obtain ⟨hrun, hpost⟩ := hfirst.run
    obtain ⟨hruns, hposts⟩ := ih (hrest.imp fun _ _ h => h.of_allowed hrun)
    exact ⟨IsTrans.trans _ _ _ hrun hruns, .cons (hpost _ hruns) hposts⟩

/-- Processes that run at once take steps that are allowed, in whatever order, and in the end each
has come to what it keeps. -/
theorem Keeps.runAll (turns : List ℕ)
    (h : List.Forall₂ (fun i p => p.Keeps allowed (posts i) state) indices processes) :
    allowed state (Process.runAll turns state processes).1 ∧
      List.Forall₂ (fun i result => posts i (Process.runAll turns state processes).1 result) indices
        (Process.runAll turns state processes).2 := by
  obtain ⟨hturns, hkeeps⟩ := Keeps.interleave turns h
  obtain ⟨hruns, hposts⟩ := Keeps.runEach hkeeps
  exact ⟨IsTrans.trans _ _ _ hturns hruns, hposts⟩

end Pools

end Process

end SchemaCompiler
