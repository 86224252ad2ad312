import TileWorld.Program.Name
import TileWorld.Position

/-!
# Expressions

The conditions of guards, formulas and labels. A conjunction is written with or without
blanks around its sign, and parentheses stand where the expression says so, not where
precedence needs them.
-/

namespace TileWorld

inductive Term
  | constant (n : Int)
  /-- A variable plus a constant. -/
  | offset (v : Counter) (d : Int)
  deriving DecidableEq, Repr

namespace Term

def ofCounter (v : Counter) : Term := .offset v 0

def render : Term → String
  | .constant n => n.repr
  | .offset v d =>
    if d = 0 then v.name
    else if 0 < d then v.name ++ "+" ++ d.repr
    else v.name ++ d.repr

end Term

inductive Spacing
  | wide
  | tight
  deriving DecidableEq, Repr

inductive Expr
  | const (b : Bool)
  | flag (f : Flag)
  | formula (f : FormulaName)
  | equal (l r : Term)
  | positive (v : Counter)
  | not (e : Expr)
  | and (s : Spacing) (l r : Expr)
  | or (l r : Expr)
  | group (e : Expr)
  deriving DecidableEq, Repr

namespace Expr

def render : Expr → String
  | .const true => "true"
  | .const false => "false"
  | .flag f => f.name
  | .formula f => f.name
  | .equal l r => l.render ++ "=" ++ r.render
  | .positive v => v.name ++ ">0"
  | .not e => "!" ++ e.render
  | .and .wide l r => l.render ++ " & " ++ r.render
  | .and .tight l r => l.render ++ "&" ++ r.render
  | .or l r => l.render ++ " | " ++ r.render
  | .group e => "(" ++ e.render ++ ")"

/-- All of the conditions. -/
def allOf : List Expr → Expr
  | [] => .const true
  | [e] => e
  | e :: es => .and .wide e (allOf es)

/-- Any of the conditions; none can be met if there is none. -/
def anyOf : List Expr → Expr
  | [] => .const false
  | [e] => e
  | e :: es => .or e (anyOf es)

def fact (a : Role) (p : Predicate) : Expr := .formula ⟨a, p⟩

def isValue (v : Counter) (n : Int) : Expr := .equal (.ofCounter v) (.constant n)

def isAt (a : Role) (column row : Int) : Expr :=
  .and .tight (isValue (.column a) column) (isValue (.row a) row)

def isAtPosition (a : Role) (p : Position) : Expr := .group (isAt a p.column p.row)

def isAtAny (a : Role) (ps : List Position) : Expr := anyOf (ps.map (isAtPosition a))

def faces (a : Role) (d : Direction) : Expr := isValue (.view a) d.view

end Expr

end TileWorld
