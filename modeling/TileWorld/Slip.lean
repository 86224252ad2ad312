import TileWorld.Point

/-!
# Slipping

On a slippery tile chance moves the agent, in ninths. A tile carries whoever stands on it
away from the direction it is named for: that way is straight ahead, and the chance of any
other point depends only on the angle between the two. Chances towards closed cells fall to
going straight, or, while the agent turns, to staying where it is.
-/

namespace TileWorld.Slip

def pieces : Nat := 9

def moveShare : Nat → Nat
  | 1 => 2
  | 2 => 1
  | _ => 0

def turnShare : Nat → Nat
  | 0 | 1 => 1
  | _ => 0

/-- Where a tile of the given direction carries the agent. -/
def straight (d : Direction) : Point := .opposite d

/-- Chances beside straight ahead. None are left if one-ways count. -/
def drift (d : Direction) (isOpen : Point → Bool) (oneWays : Bool) (p : Point) : Nat :=
  if oneWays || !isOpen p then 0 else moveShare (p.angle (straight d))

def total (shares : Point → Nat) : Nat := (Point.all.map shares).foldr (· + ·) 0

/-- Ninths for each point when the agent moves; straight ahead takes what is left. -/
def moveWeight (d : Direction) (isOpen : Point → Bool) (oneWays : Bool) (p : Point) : Nat :=
  if p = straight d then pieces - total (drift d isOpen oneWays)
  else drift d isOpen oneWays p

def blockedAhead (d : Direction) (isOpen : Point → Bool) : Bool := !isOpen (straight d)

def turnWeight (d : Direction) (isOpen : Point → Bool) (p : Point) : Nat :=
  if isOpen p then turnShare (p.angle (straight d)) else 0

/-- Ninths for staying in place when the agent turns: what is left. -/
def stayWeight (d : Direction) (isOpen : Point → Bool) : Nat :=
  pieces - total (turnWeight d isOpen)

end TileWorld.Slip
