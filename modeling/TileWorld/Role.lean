/-!
# Roles

An agent is known by its role. The controlled agent plays the lead, under the name `Agent`;
an adversary plays under the name of its color.
-/

namespace TileWorld

abbrev Role := String

namespace Role

def lead : Role := "Agent"

/-- The name of something that belongs to an agent. The lead's things keep their plain name, any
other role puts its own name in front. -/
def qualify (a : Role) (name : String) : String := if a = lead then name else a ++ name

end Role

end TileWorld
