import TileWorld.Arena
import TileWorld.Program

/-!
# Actors

An actor is an agent as its module sees it: its name, its place in the order of turns,
whether it has an orientation, and how likely its moves succeed. While its commands are
written, its actions are registered.
-/

namespace TileWorld

structure Actor where
  name : Role
  place : Nat
  count : Nat
  withView : Bool
  probability : Option Float

namespace Actor

def ofSettings (s : Settings) (name : Role) (place count : Nat) : Actor :=
  { name, place, count, withView := s.orients name, probability := s.probability? name }

/-- Turns go round: after the last agent comes the first. Without turns there is no seat.
Places are 64-bit numbers. -/
def seat (actor : Actor) : Dialect → Except Fault (Option Seat)
  | .mdp => .ok none
  | .smg =>
    if actor.count = 0 || Nat.pow 2 64 ≤ actor.place + 1 then .error .noNextTurn
    else .ok (some ⟨actor.place, (actor.place + 1) % actor.count⟩)

end Actor

/-- The labels of an agent's actions, each where it was first registered. -/
abbrev Roster := List String

def Roster.register (r : Roster) (label : String) : Roster :=
  if r.contains label then r else r ++ [label]

/-- Writing the commands of an agent, with its roster on the side. What was registered stays
registered if the writing fails later on. -/
abbrev Writing := ExceptT Fault (StateM Roster)

/-- Registers an action of the agent. Its commands are written under the label that comes back. -/
def Actor.action (actor : Actor) (deed : Deed) : Writing Action := do
  modify (·.register (Action.name ⟨actor.name, deed⟩))
  return ⟨actor.name, deed⟩

end TileWorld
