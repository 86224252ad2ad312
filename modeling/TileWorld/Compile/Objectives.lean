import TileWorld.Arena
import TileWorld.Program

/-!
# Reward structures of an agent

Standing in the goal and standing in lava count until the agent is done.
The table of state rewards and the background regions bring structures of their own.
-/

namespace TileWorld.Arena

open TileWorld.Expr (fact allOf)

def goalReward : Int := 100

def lavaPenalty : Int := -100

def stepCost : Int := -1

def pickUpReward : Int := 100

def stateReward (condition : Expr) (amount : Int) : RewardItem := ⟨none, condition, .whole amount⟩

def goalItems (f : Arena) (a : Role) : List RewardItem :=
  if f.goals.isEmpty then [] else [stateReward (fact a .inGoalNotDone) goalReward]

def lavaItems (f : Arena) (a : Role) : List RewardItem :=
  if f.lava.isEmpty then [] else [stateReward (fact a .inLavaNotDone) lavaPenalty]

def stepItem (a : Role) : RewardItem := stateReward (.not (fact a .inGoal)) stepCost

def tableItems (f : Arena) (a : Role) : List RewardItem :=
  f.rewards.map fun e => ⟨none, .isAt a e.x e.y, .real e.value⟩

def pickUpItems (f : Arena) (a : Role) : List RewardItem :=
  f.regions.map fun r => ⟨some ⟨a, .pickUp r.1⟩, .const true, .whole pickUpReward⟩

/-- With regions to visit, the goal is worth something only after all of them. -/
def deliveryItems (f : Arena) (a : Role) : List RewardItem :=
  let all := allOf (f.regions.map fun r => .flag (.pickedUp a r.1))
  if f.goals.isEmpty then []
  else
    [stateReward (.and .wide (fact a .inGoalNotDone) all) goalReward,
      stateReward (.and .wide (fact a .inGoalNotDone) (.not (.group all))) lavaPenalty]

def rewardStructures (f : Arena) (a : Role) : List RewardStructure :=
  (if f.lava.isEmpty then [] else [⟨a, .safety, f.lavaItems a⟩]) ++
    [⟨a, .safetyAndGoal, f.goalItems a ++ f.lavaItems a⟩,
      ⟨a, .time, stepItem a :: (f.goalItems a ++ f.lavaItems a)⟩] ++
    (if f.rewards.isEmpty then []
    else
      [⟨a, .tableSafety, f.lavaItems a ++ f.tableItems a⟩,
        ⟨a, .tableSafetyAndGoal, f.goalItems a ++ f.lavaItems a ++ f.tableItems a⟩]) ++
    (if f.regions.isEmpty then []
    else [⟨a, .taxi, stepItem a :: (f.pickUpItems a ++ f.deliveryItems a)⟩])

def rewardBlocks (f : Arena) (a : Role) : Program :=
  (f.rewardStructures a).map .rewards ++ [.gap]

end TileWorld.Arena
