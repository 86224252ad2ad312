import TileWorld.Arena
import TileWorld.Program

/-!
# Formulas and labels of an agent

What the field means for one agent, as formulas over its position: where it cannot move,
where it slips, where its way ends, where it cannot turn, and when it can pick up a key.
-/

namespace TileWorld

open TileWorld.Expr (fact allOf anyOf)

def labelled (f : FormulaName) (body : Expr) : Program :=
  [.formula f body, .label (.formula f) (.formula f)]

namespace Role

def standsOn (a : Role) (cells : List Cell) : Expr := .isAtAny a (cells.map (·.position))

def clause (a : Role) (p : Position) : String :=
  "(x" ++ a ++ "=" ++ p.column.repr ++ "&y" ++ a ++ "=" ++ p.row.repr ++ ")"

def withClause (text clause : String) : String :=
  if text.isEmpty then clause else text ++ " | " ++ clause

/-- The text of `standsOn`, collected clause by clause. -/
def disjunction (a : Role) (cells : List Cell) : String :=
  let text := (cells.map fun c => a.clause c.position).foldl withClause ""
  if text.isEmpty then "false" else text

def someDirection (a : Role) (p : Direction → Predicate) : Expr :=
  anyOf (Direction.all.map fun d => fact a (p d))

def regionFormula (a : Role) (region : Color × List Cell) : Program :=
  labelled ⟨a, .on region.1⟩ (standsOn a region.2)

/-- No tile is windy. -/
def windFormulas (a : Role) : Program :=
  (Direction.all.map fun d => .formula ⟨a, .onWindyToward d⟩ (.const false)) ++
    [.formula ⟨a, .onWindy⟩ (someDirection a .onWindyToward)]

def reaches (a : Role) (withView : Bool) (key : Position) (d : Direction) : Expr :=
  let step := (⟨0, 0⟩ : Position).toward d
  let adjacent := Expr.and .tight (.equal (.offset (.column a) step.column) (.constant key.column))
    (.equal (.offset (.row a) step.row) (.constant key.row))
  .group (if withView then .and .tight adjacent (.faces a d) else adjacent)

/-- The agent stands next to a key of the color, faces it if it has a view, and holds none
yet. -/
def keyFormula (a : Role) (withView : Bool) (keys : Color × List Cell) : Program :=
  let near := keys.2.flatMap fun key => Direction.all.map (reaches a withView key.position)
  [.label (.holdsKey a keys.1) (.flag (.hasKey a keys.1)),
    .formula ⟨a, .canPickUpKey keys.1⟩
      (.and .wide (.group (anyOf near)) (.not (.flag (.hasKey a keys.1))))]

def meets (a b : Role) : Expr :=
  .and .tight (.group (.equal (.ofCounter (.column a)) (.ofCounter (.column b))))
    (.group (.equal (.ofCounter (.row a)) (.ofCounter (.row b))))

/-- Off one-way tiles the agent is free to turn or faces along its corridor; on one it faces the
way that the tile asks for. -/
def startFacing (a : Role) : Expr :=
  let offOneWay := Expr.not (.group (someDirection a .onOneWay))
  let facesEither := fun d e => Expr.group (.or (.faces a d) (.faces a e))
  let along := Expr.or
    (.group (.and .wide (fact a (.inCorridor .eastWest)) (facesEither .east .west)))
    (.group (.and .wide (fact a (.inCorridor .northSouth)) (facesEither .south .north)))
  let onTile := fun tile d => Expr.group (.and .wide (fact a (.onOneWay tile)) (.faces a d))
  anyOf
    [.group (.and .wide offOneWay (.not (fact a .cannotTurn))),
      .group (.and .wide offOneWay (.group along)),
      onTile .north .south,
      onTile .south .north,
      onTile .east .west,
      onTile .west .east]

end Role

def crashLabel (names : List Role) : Program :=
  [.label .crash (anyOf ((names.filter (· ≠ Role.lead)).map (Role.meets Role.lead))), .gap]

namespace Arena

open Role (standsOn someDirection)

def moveFormulas (f : Arena) (a : Role) : Program :=
  Direction.all.map fun d => .formula ⟨a, .cannotMove d⟩ (standsOn a (f.restricted d))

def slipperyFormulas (f : Arena) (a : Role) : Program :=
  .formula ⟨a, .onSlippery⟩ (standsOn a (Direction.all.flatMap f.slippery)) ::
    if f.settings.oneWays then
      Direction.all.map fun d => .formula ⟨a, .onSlipperyToward d⟩ (standsOn a (f.slippery d))
    else []

def lavaFormulas (f : Arena) (a : Role) : Program :=
  labelled ⟨a, .inLava⟩ (standsOn a f.lava) ++
    labelled ⟨a, .inLavaNotDone⟩ (.and .wide (fact a .inLava) (.not (.flag (.done a))))

def wallFormula (f : Arena) (a : Role) : Block := .formula ⟨a, .onWall⟩ (standsOn a f.walls)

/-- Only where there are corridors does the label count slippery ground as well. -/
def turnFormulas (f : Arena) (a : Role) : Program :=
  let inCorridor := [fact a (.inCorridor .northSouth), fact a (.inCorridor .eastWest)]
  let anyCorridor := !(f.corridor .northSouth).isEmpty || !(f.corridor .eastWest).isEmpty
  let label :=
    if f.settings.oneWays && anyCorridor then inCorridor ++ [fact a .onSlippery] else inCorridor
  labelled ⟨a, .inCorridor .northSouth⟩ (standsOn a (f.corridor .northSouth)) ++
    labelled ⟨a, .inCorridor .eastWest⟩ (standsOn a (f.corridor .eastWest)) ++
    [.formula ⟨a, .cannotTurn⟩ (anyOf inCorridor), .label (.formula ⟨a, .cannotTurn⟩) (anyOf label)]

def oneWayFormulas (f : Arena) (a : Role) : Program :=
  let tiles := fun d => if f.settings.oneWays then f.oneWay d else []
  (Direction.all.flatMap fun d => labelled ⟨a, .onOneWay d⟩ (standsOn a (tiles d))) ++
    [.label (.onOneWay a) (someDirection a .onOneWay)]

/-- Nothing holds an agent in place, and nothing is forbidden on slippery ground; the formulas
are there for whoever edits the program. -/
def fixedFormulas (f : Arena) (a : Role) : Program :=
  let forbidden := [.turnRight, .turnLeft, .moveForward].map fun m => Expr.not (fact a (.allowed m))
  let fixed := fact a .isFixed :: forbidden ++ [fact a .inGoal, fact a .inLava] ++
    if f.settings.oneWays then [fact a .cannotTurn] else []
  .formula ⟨a, .isFixed⟩ (.const false) ::
    ([.turnLeft, .turnRight, .moveForward].map fun m => .formula ⟨a, .allowed m⟩ (.const true)) ++
    [.label (.fixedStates a) (anyOf fixed)]

def terrainFormulas (f : Arena) (a : Role) : Program :=
  f.moveFormulas a ++ f.slipperyFormulas a ++ a.windFormulas ++ f.lavaFormulas a ++
    [f.wallFormula a] ++ f.turnFormulas a ++ f.oneWayFormulas a ++ f.fixedFormulas a ++ [.gap]

def goalFormulas (f : Arena) (a : Role) : Program :=
  labelled ⟨a, .inGoal⟩ (standsOn a f.goals) ++
    labelled ⟨a, .inGoalNotDone⟩ (.and .wide (fact a .inGoal) (.not (.flag (.done a))))

def keyFormulas (f : Arena) (a : Role) (withView : Bool) : Program :=
  f.keyGroups.flatMap (a.keyFormula withView) ++ if f.keyGroups.isEmpty then [] else [.gap]

def startOf (f : Arena) (a : Role) : Expr :=
  let base := [fact a .inGoal, fact a .inLava, .flag (.done a), fact a .onWall].map .not
  let keys := f.keyGroups.map fun k => Expr.not (.flag (.hasKey a k.1))
  let regions := f.regions.map fun r => Expr.not (.flag (.pickedUp a r.1))
  let bound := f.settings.oneWays && a == Role.lead && f.settings.orients a
  let facing := if bound then [Expr.group a.startFacing] else []
  .group (allOf (base ++ keys ++ regions ++ facing))

def initialBlocks (f : Arena) : Program :=
  let starts := f.agents.map fun agent => f.startOf agent.1
  let turn := if f.settings.dialect.hasTurns then [Expr.isValue .turn 0] else []
  [.label .decidedStates (.const false), .initial (allOf (starts ++ turn))]

end Arena

end TileWorld
