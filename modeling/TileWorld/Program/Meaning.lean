import TileWorld.Program

/-!
# What programs mean

A state gives every variable a value. A formula may use the formulas declared before it. A
command can fire where its guard holds; then one of its possible updates happens, with all
right-hand sides read in the old state. `Program.Run` is a sequence of such steps.

`eval_allOf` and `eval_anyOf` say that lists of conditions mean what they are called.
-/

namespace TileWorld

structure State where
  counter : Counter → Int
  flag : Flag → Bool

abbrev Facts := FormulaName → Bool

def Term.eval (s : State) : Term → Int
  | .constant n => n
  | .offset v d => s.counter v + d

namespace Expr

def eval (s : State) (facts : Facts) : Expr → Bool
  | .const b => b
  | .flag f => s.flag f
  | .formula f => facts f
  | .equal l r => l.eval s = r.eval s
  | .positive v => 0 < s.counter v
  | .not e => !e.eval s facts
  | .and _ l r => l.eval s facts && r.eval s facts
  | .or l r => l.eval s facts || r.eval s facts
  | .group e => e.eval s facts

theorem eval_allOf (s : State) (facts : Facts) (es : List Expr) :
    (allOf es).eval s facts = es.all (·.eval s facts) := by
  induction es with
  | nil => rfl
  | cons e es ih =>
    cases es with
    | nil => simp [allOf]
    | cons e' es => simpa [allOf, eval] using congrArg (e.eval s facts && ·) ih

theorem eval_anyOf (s : State) (facts : Facts) (es : List Expr) :
    (anyOf es).eval s facts = es.any (·.eval s facts) := by
  induction es with
  | nil => rfl
  | cons e es ih =>
    cases es with
    | nil => simp [anyOf]
    | cons e' es => simpa [anyOf, eval] using congrArg (e.eval s facts || ·) ih

end Expr

namespace State

def setCounter (s : State) (v : Counter) (n : Int) : State :=
  { s with counter := fun w => if w = v then n else s.counter w }

def setFlag (s : State) (f : Flag) (b : Bool) : State :=
  { s with flag := fun g => if g = f then b else s.flag g }

end State

/-- Carries out an assignment in `s`, with its right-hand side read in `old`. -/
def Assignment.apply (old : State) (s : State) : Assignment → State
  | .shift v d => s.setCounter v (old.counter v + d)
  | .put v n => s.setCounter v n
  | .turnRight a => s.setCounter (.view a) ((old.counter (.view a) + 1) % 4)
  | .turnLeft a => s.setCounter (.view a) (old.counter (.view a) - 1)
  | .raise f => s.setFlag f true

def Update.apply (u : Update) (s : State) : State := u.foldl (Assignment.apply s) s

def Outcomes.possible : Outcomes → List Update
  | .certain u => [u]
  | .ninths branches => (branches.filter (·.1 ≠ 0)).map (·.2)
  | .chance _ hit miss => [hit, miss]

namespace Program

def formulas (p : Program) : List (FormulaName × Expr) :=
  p.filterMap fun | .formula f body => some (f, body) | _ => none

/-- What holds of the formulas after one more of them. -/
def define (s : State) (facts : Facts) (formula : FormulaName × Expr) : Facts :=
  fun g => if g = formula.1 then formula.2.eval s facts else facts g

def facts (p : Program) (s : State) : Facts := p.formulas.foldl (define s) fun _ => false

def modules (p : Program) : List Module :=
  p.filterMap fun | .behavior m => some m | _ => none

def commands (p : Program) : List Command := p.modules.flatMap (·.commands)

def constraints (p : Program) : List Expr :=
  p.filterMap fun | .initial e => some e | _ => none

def Initial (p : Program) (s : State) : Prop := ∀ e ∈ p.constraints, e.eval s (p.facts s) = true

def Enabled (p : Program) (s : State) (c : Command) : Prop := c.guard.eval s (p.facts s) = true

inductive Step (p : Program) (s : State) : Action → State → Prop
  | fire (c : Command) (u : Update) (listed : c ∈ p.commands) (enabled : p.Enabled s c)
      (possible : u ∈ c.outcomes.possible) : Step p s c.action (u.apply s)

/-- Steps one after the other, each with its action and the state it leads to. -/
inductive Run (p : Program) : State → List (Action × State) → Prop
  | stop (s : State) : Run p s []
  | next {s t : State} {a : Action} {rest : List (Action × State)} (step : p.Step s a t)
      (run : Run p t rest) : Run p s ((a, t) :: rest)

end Program

end TileWorld
