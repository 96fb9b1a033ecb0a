import BehaviorTree.Config
import BehaviorTree.Tree

/-!
# Brains: one instance per agent

A `Brain` shares a template with other brains and owns at most one instance of it.  Binding the
brain makes and starts a fresh instance, in place of the one it had; ticking the brain polls the
instance on the ticks on which the agent thinks, until the instance has finished.
-/

namespace BehaviorTree

/-- An agent's hold on a shared template. -/
structure Brain (L : Type) where
  template : Tree L
  /-- On which ticks the agent thinks. -/
  cadence : Cadence
  /-- The instance, while one is bound. -/
  bound : Option (Tree L)

/-- What can go wrong on a tick. -/
inductive TickError
  | cadence (e : CadenceError)
  | misuse (e : Misuse)
  deriving DecidableEq

def TickError.message : TickError → String
  | cadence e => e.message
  | misuse e => e.message

structure Ticked (L δ : Type) where
  /-- The cached result of the instance, if one is bound. -/
  status : Option Status
  brain : Brain L
  driver : δ
  trace : Trace

namespace Brain

variable {L δ : Type}

def new (template : Tree L) (cadence : Cadence) : Brain L := ⟨template, cadence, none⟩

/-- Binds a fresh instance of the template, started and with an empty blackboard. -/
def bind (b : Brain L) : Brain L :=
  { b with bound := some { b.template.instantiate with board := some .empty } }

def unbind (b : Brain L) : Brain L := { b with bound := none }

def state (b : Brain L) : Option Status := b.bound.map Tree.state

/-- Whether the bound instance has finished. -/
def isFinished (b : Brain L) : Bool :=
  match b.state with
  | some s => s.isTerminal
  | none => false

def edit (b : Brain L) (f : Tree L → Tree L) : Brain L := { b with bound := b.bound.map f }

variable [Behavior L δ]

/-- One tick of the driver: the instance is polled if the agent thinks on the tick and the instance
has not finished.  The cadence is evaluated whether or not an instance is bound. -/
def tick (b : Brain L) (tick : UInt64) (driver : δ) : Except TickError (Ticked L δ) :=
  match b.cadence.thinksOn tick with
  | .error e => .error (.cadence e)
  | .ok thinks =>
    match b.bound with
    | none => .ok ⟨none, b, driver, []⟩
    | some t =>
      if thinks && t.state.isRunning then
        match t.update driver with
        | .error e => .error (.misuse e)
        | .ok u => .ok ⟨some u.status, { b with bound := some u.tree }, u.driver, u.trace⟩
      else .ok ⟨some t.state, b, driver, []⟩

end Brain

/-- The outcome of a tick of several brains. -/
structure TickedAll (L δ : Type) where
  brains : List (Brain L)
  driver : δ
  trace : Trace
  /-- What stopped the tick, if it did not reach every brain. -/
  error : Option TickError

/-- One tick of the driver for several brains in turn, which share its context.  An error stops the
tick: brains before the failing one have had theirs, and it and those after it have not. -/
def tickBrains {L δ : Type} [Behavior L δ] (tick : UInt64) :
    List (Brain L) → δ → TickedAll L δ
  | [], driver => ⟨[], driver, [], none⟩
  | b :: bs, driver =>
    match b.tick tick driver with
    | .error e => ⟨b :: bs, driver, [], some e⟩
    | .ok t =>
      let rest := tickBrains tick bs t.driver
      { rest with brains := t.brain :: rest.brains, trace := t.trace ++ rest.trace }

end BehaviorTree
