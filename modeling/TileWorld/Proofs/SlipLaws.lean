import Mathlib.Algebra.BigOperators.Group.List.Basic
import Mathlib.Algebra.GroupWithZero.Nat
import TileWorld.Proofs.Acceptance
import TileWorld.Proofs.Confinement

/-!
# Chances on slippery tiles

The commands of a slippery tile are distributions in ninths over the eight positions around it
and over staying on it. Nothing that has a chance leads onto a blocked cell
(`slips_distribute`).
-/

namespace TileWorld

-- ---------------------------------------------------------------------------
-- Slots
-- ---------------------------------------------------------------------------

def Position.slots (p : Position) : List Position :=
  [(0, -1), (1, -1), (1, 0), (1, 1), (0, 1), (-1, 1), (-1, 0), (-1, -1)].map fun offset =>
    p.shift offset.1 offset.2

theorem Position.slots_eq (p : Position) : p.slots = Point.all.map p.around := rfl

@[simp] theorem Position.shift_zero (p : Position) : p.shift 0 0 = p := by simp [Position.shift]

namespace Slip

def straightSlot : Direction → Nat
  | .north => 4
  | .east => 6
  | .south => 0
  | .west => 2

/-- Ninths for moving off a tile in the open, those straight ahead left out. -/
def moveTemplate : Direction → List Nat
  | .north => [0, 0, 1, 2, 0, 2, 1, 0]
  | .east => [1, 0, 0, 0, 1, 2, 0, 2]
  | .south => [0, 2, 1, 0, 0, 0, 1, 2]
  | .west => [1, 2, 0, 2, 1, 0, 0, 0]

def turnTemplate : Direction → List Nat
  | .north => [0, 0, 0, 1, 1, 1, 0, 0]
  | .east => [0, 0, 0, 0, 0, 1, 1, 1]
  | .south => [1, 1, 0, 0, 0, 0, 0, 1]
  | .west => [0, 1, 1, 1, 0, 0, 0, 0]

variable {d : Direction} {isOpen : Point → Bool} {oneWays : Bool} {q : Point}

theorem moveTemplate_eq (d : Direction) :
    moveTemplate d = Point.all.map fun q => moveShare (q.angle (straight d)) := by
  cases d <;> rfl

theorem turnTemplate_eq (d : Direction) :
    turnTemplate d = Point.all.map fun q => turnShare (q.angle (straight d)) := by
  cases d <;> rfl

theorem point_straightSlot (d : Direction) : Point.all[straightSlot d]? = some (straight d) := by
  cases d <;> rfl

theorem slot_of_straight {slot : Nat} (h : Point.all[slot]? = some (straight d)) :
    slot = straightSlot d := by
  have distinct : Point.all.Nodup := by decide
  obtain ⟨hi, hq⟩ := List.getElem?_eq_some_iff.mp h
  obtain ⟨hj, hq'⟩ := List.getElem?_eq_some_iff.mp (point_straightSlot d)
  exact (List.Nodup.getElem_inj_iff distinct).mp (hq.trans hq'.symm)

theorem drift_straight (d : Direction) (isOpen : Point → Bool) (oneWays : Bool) :
    drift d isOpen oneWays (straight d) = 0 := by
  have share : moveShare ((straight d).angle (straight d)) = 0 := by cases d <;> rfl
  simp [drift, share]

/-- What is not given to the sides goes straight ahead, and then nothing is left. -/
theorem total_moveWeight (d : Direction) (isOpen : Point → Bool) (oneWays : Bool) :
    total (moveWeight d isOpen oneWays) = pieces := by
  have few := (shares_le d isOpen oneWays).1
  have none := drift_straight d isOpen oneWays
  cases d <;>
    simp only [total, moveWeight, straight, Point.opposite, Point.all, List.map_cons, List.map_nil,
      List.foldr_cons, List.foldr_nil, reduceCtorEq, if_true, if_false] at few none ⊢ <;>
    omega

theorem total_turnWeight (d : Direction) (isOpen : Point → Bool) :
    total (turnWeight d isOpen) + stayWeight d isOpen = pieces := by
  have few := (shares_le d isOpen false).2
  unfold stayWeight
  omega

theorem straight_bounds (d : Direction) (isOpen : Point → Bool) (oneWays : Bool) :
    3 ≤ moveWeight d isOpen oneWays (straight d) ∧ moveWeight d isOpen oneWays (straight d) ≤ 9 := by
  have few := (shares_le d isOpen oneWays).1
  simp only [moveWeight, if_true, pieces] at few ⊢
  omega

theorem stay_bounds (d : Direction) (isOpen : Point → Bool) :
    6 ≤ stayWeight d isOpen ∧ stayWeight d isOpen ≤ 9 := by
  have few := (shares_le d isOpen false).2
  simp only [stayWeight, pieces] at few ⊢
  omega

end Slip

namespace Arena

def openShares (f : Arena) (p : Position) (template : List Nat) : List Nat :=
  List.zipWith (fun share q => if f.blockedAt q then 0 else share) template p.slots

theorem openShares_map (f : Arena) (p : Position) (share : Point → Nat) :
    f.openShares p (Point.all.map share) =
      Point.all.map fun q => if f.openAround p q then share q else 0 := by
  rw [openShares, Position.slots_eq, List.zipWith_map, List.zipWith_self]
  refine List.map_congr_left fun q _ => ?_
  cases h : f.blockedAt (p.around q) <;> simp [openAround, h]

/-- Where the slots lead to. Straight against a blocked cell is nowhere. -/
def slideTargets (f : Arena) (d : Direction) (p : Position) : List Position :=
  if f.blockedAt (p.around (Slip.straight d)) then p.slots.set (Slip.straightSlot d) p else p.slots

theorem slideTargets_eq (f : Arena) (d : Direction) (p : Position) :
    f.slideTargets d p = Point.all.map fun q =>
      if q = Slip.straight d ∧ Slip.blockedAhead d (f.openAround p) = true then p
      else p.around q := by
  cases h : f.blockedAt (p.around (Slip.straight d)) with
  | false => simp [slideTargets, Slip.blockedAhead, openAround, h, Position.slots_eq]
  | true =>
    simp only [slideTargets, Slip.blockedAhead, openAround, h, Position.slots_eq]
    cases d <;> rfl

/-- The branches of moving on a tile at `p`: ninths that add up, those beside straight ahead
from the template, and where each slot leads to. -/
structure Slides (f : Arena) (a : Role) (d : Direction) (p : Position)
    (branches : List (Nat × Update)) : Prop where
  count : branches.length = 8
  total : (branches.map (·.1)).sum = 9
  straight : ∃ n, (branches.map (·.1))[Slip.straightSlot d]? = some n ∧ 3 ≤ n ∧ n ≤ 9
  enforced : f.settings.oneWays = true →
    branches.map (·.1) = (List.replicate 8 0).set (Slip.straightSlot d) 9
  drift : f.settings.oneWays = false → ∀ slot, slot ≠ Slip.straightSlot d →
    (branches.map (·.1))[slot]? = (f.openShares p (Slip.moveTemplate d))[slot]?
  leads : ∀ s, s.position a = p →
    branches.map (fun b => (b.2.apply s).position a) = f.slideTargets d p
  lands : ∀ b ∈ branches, b.1 ≠ 0 → ∀ s, s.position a = p →
    (b.2.apply s).position a = p ∨ f.blockedAt ((b.2.apply s).position a) = false

/-- The branches of turning on a tile at `p`: the slots as in the template, then staying. -/
structure Spins (f : Arena) (a : Role) (d : Direction) (p : Position)
    (branches : List (Nat × Update)) : Prop where
  count : branches.length = 9
  total : (branches.map (·.1)).sum = 9
  stay : ∃ n, branches.map (·.1) = f.openShares p (Slip.turnTemplate d) ++ [n] ∧ 6 ≤ n ∧ n ≤ 9
  leads : ∀ s, s.position a = p →
    branches.map (fun b => (b.2.apply s).position a) = p.slots ++ [p]
  lands : ∀ b ∈ branches, b.1 ≠ 0 → ∀ s, s.position a = p →
    (b.2.apply s).position a = p ∨ f.blockedAt ((b.2.apply s).position a) = false

end Arena

-- ---------------------------------------------------------------------------
-- Branches
-- ---------------------------------------------------------------------------

theorem Slip.sum_map (shares : Point → Nat) : (Point.all.map shares).sum = Slip.total shares := by
  simp [Slip.total, Point.all]

section Branches

variable {f : Arena} {a : Role} {d : Direction} {p : Position} {more : Update} {s : State}

theorem position_shiftBy_append (hm : ∀ v ∈ [Counter.column a, .row a], .counter v ∉ more.symbols)
    (columns rows : Int) : (Update.apply (a.shiftBy columns rows ++ more) s).position a =
      (s.position a).shift columns rows := by
  rw [← position_shiftBy]
  exact position_eq (Update.apply_append _ _ s (hm _ (by simp)))
    (Update.apply_append _ _ s (hm _ (by simp)))

theorem position_slideBranch
    (hm : ∀ v ∈ [Counter.column a, .row a], .counter v ∉ more.symbols) (hs : s.position a = p)
    (isOpen : Point → Bool) (oneWays : Bool) (q : Point) :
    (Update.apply ((a.slideBranch d isOpen oneWays q).2 ++ more) s).position a =
      if q = Slip.straight d ∧ Slip.blockedAhead d isOpen = true then p else p.around q := by
  simp only [Role.slideBranch, Bool.and_eq_true, decide_eq_true_eq]
  split
  · rw [Role.stay, position_shiftBy_append hm, hs, Position.shift_zero]
  · rw [Role.carry, position_shiftBy_append hm, hs]
    rfl

theorem slides_branches (hm : ∀ v ∈ [Counter.column a, .row a], .counter v ∉ more.symbols) :
    f.Slides a d p ((Point.all.map (a.slideBranch d (f.openAround p) f.settings.oneWays)).map
      fun b => (b.1, b.2 ++ more)) := by
  constructor
  case count => rfl
  case total =>
    simp only [List.map_map]
    exact (Slip.sum_map _).trans (Slip.total_moveWeight d _ _)
  case straight =>
    refine ⟨_, ?_, Slip.straight_bounds d (f.openAround p) f.settings.oneWays⟩
    simp [Slip.point_straightSlot, Role.slideBranch]
  case enforced =>
    intro h
    simp only [List.map_map, Function.comp_def, Role.slideBranch, h]
    cases d <;> rfl
  case drift =>
    intro h slot hslot
    rw [Slip.moveTemplate_eq, Arena.openShares_map]
    simp only [List.map_map, List.getElem?_map, Function.comp_def, Role.slideBranch, h]
    -- Slot by slot: what is left over goes to the straight slot alone.
    refine Option.map_congr fun q hq => ?_
    have side : q ≠ Slip.straight d := by
      rintro rfl
      exact hslot (Slip.slot_of_straight hq)
    cases ho : f.openAround p q <;> simp [Slip.moveWeight, side, Slip.drift, ho]
  case leads =>
    intro s hs
    rw [Arena.slideTargets_eq, List.map_map, List.map_map]
    exact List.map_congr_left fun q _ => position_slideBranch hm hs _ _ q
  case lands =>
    intro b hb chance s hs
    simp only [List.map_map, List.mem_map, Function.comp_apply] at hb
    obtain ⟨q, -, rfl⟩ := hb
    simp only at chance ⊢
    rw [position_slideBranch hm hs]
    split
    · exact .inl rfl
    · rename_i moved
      have isOpen := Slip.open_of_moved chance moved
      exact .inr (by simpa [Arena.openAround] using isOpen)

theorem spins_branches {turn : Assignment}
    (hm : ∀ v ∈ [Counter.column a, .row a], .counter v ∉ Update.symbols (turn :: more)) :
    f.Spins a d p ((a.spinBranches d (f.openAround p) turn).map fun b => (b.1, b.2 ++ more)) := by
  have landing {s : State} (hs : s.position a = p) (columns rows : Int) :
      (Update.apply (a.shiftBy columns rows ++ [turn] ++ more) s).position a =
        p.shift columns rows := by
    rw [List.append_assoc, List.singleton_append, position_shiftBy_append hm, hs]
  constructor
  case count => rfl
  case total =>
    have sum := Slip.total_turnWeight d (f.openAround p)
    rw [← Slip.sum_map, Slip.pieces] at sum
    simpa [Role.spinBranches, Function.comp_def] using sum
  case stay =>
    refine ⟨_, ?_, Slip.stay_bounds d (f.openAround p)⟩
    rw [Slip.turnTemplate_eq, Arena.openShares_map]
    simp [Role.spinBranches, Function.comp_def, Slip.turnWeight]
  case leads =>
    intro s hs
    simp only [Role.spinBranches, List.map_append, List.map_map, List.map_cons, List.map_nil,
      Position.slots_eq]
    congr 1
    · exact List.map_congr_left fun q _ => landing hs _ _
    · rw [Role.stay, landing hs, Position.shift_zero]
  case lands =>
    intro b hb chance s hs
    simp only [Role.spinBranches, List.map_append, List.map_map, List.mem_append, List.mem_map,
      Function.comp_apply, List.map_cons, List.map_nil, List.mem_singleton] at hb
    obtain ⟨q, -, rfl⟩ | rfl := hb
    · refine .inr ?_
      simp only [Role.carry] at chance ⊢
      rw [landing hs]
      simpa [Arena.openAround, Position.around] using Slip.open_of_turnWeight chance
    · refine .inl ?_
      simp only
      rw [Role.stay, landing hs, Position.shift_zero]

end Branches

-- ---------------------------------------------------------------------------
-- Commands
-- ---------------------------------------------------------------------------

theorem Command.ninths_inTurn (seat : Option Seat) {c : Command} {branches : List (Nat × Update)}
    (h : c.outcomes = .ninths branches) :
    ∃ more : Update, (∀ v, .counter v ∈ more.symbols → v = .turn) ∧
      (c.inTurn seat).outcomes = .ninths (branches.map fun b => (b.1, b.2 ++ more)) := by
  cases seat with
  | none => exact ⟨[], by simp [Update.symbols], by simp [Command.inTurn, h]⟩
  | some seated =>
    refine ⟨[seated.handOver], ?_, by simp [Command.inTurn, h, Outcomes.map]⟩
    simp [Update.symbols, Seat.handOver, Assignment.symbols]

def Deed.slip? : Deed → Option Direction
  | .moveOnSlip d | .turnAtSlip d => some d
  | _ => none

namespace Arena

variable {f : Arena} {actor : Actor} {d : Direction} {p : Position}

theorem slides_command (seat : Option Seat) :
    ∃ branches, ((actor.name.slideCommand p d (f.openAround p) f.settings.oneWays).inTurn
      seat).outcomes = .ninths branches ∧ f.Slides actor.name d p branches := by
  obtain ⟨more, hm, h⟩ := Command.ninths_inTurn seat
    (c := actor.name.slideCommand p d (f.openAround p) f.settings.oneWays) rfl
  refine ⟨_, h, slides_branches fun v hv hs => ?_⟩
  simp [hm v hs] at hv

theorem spins_command {c : Command} (hc : c ∈ actor.name.spinCommands p d (f.openAround p))
    (seat : Option Seat) :
    c.action = ⟨actor.name, .turnAtSlip d⟩ ∧
      ∃ branches, (c.inTurn seat).outcomes = .ninths branches ∧
        f.Spins actor.name d p branches := by
  obtain ⟨⟨conditions, turn⟩, ht, rfl⟩ := List.mem_map.mp hc
  obtain ⟨more, hm, h⟩ := Command.ninths_inTurn seat
    (c := ⟨⟨actor.name, .turnAtSlip d⟩, actor.name.slipGuard p conditions,
      .ninths (actor.name.spinBranches d (f.openAround p) turn)⟩) rfl
  refine ⟨rfl, _, h, spins_branches fun v hv hs => ?_⟩
  rw [← List.singleton_append, Update.symbols, List.flatMap_append, List.mem_append] at hs
  rcases hs with hs | hs
  · have view := viewTurns_own ht hs
    simp only [List.mem_singleton, Symbol.counter.injEq] at view
    simp [view] at hv
  · simp [hm v hs] at hv

theorem slip?_dry {c : Command}
    (hc : c ∈ f.turning actor ++ f.pickUps actor.name ++ actor.moves ++ [actor.name.finish]) :
    c.action.deed.slip? = none := by
  simp only [List.mem_append, List.mem_singleton] at hc
  rcases hc with ((hc | hc) | hc) | rfl
  · rcases mem_turning hc with ⟨-, rfl⟩ | ⟨-, ⟨way, -, deed, hd, rfl⟩ | ⟨d, rfl⟩⟩
    · rfl
    · simp only [List.mem_cons, List.not_mem_nil, or_false] at hd
      rcases hd with rfl | rfl <;> rfl
    · rfl
  · rcases mem_pickUps hc with ⟨k, -, rfl⟩ | ⟨r, -, rfl⟩ <;> rfl
  · obtain ⟨d, rfl | ⟨p, rfl⟩⟩ := mem_moves hc <;> rfl
  · rfl

theorem slips_listed {m : Module} (hm : f.behavior actor = .ok m) {c : Cell}
    (hc : c ∈ f.slippery d) {commands : List Command} (h : f.slipsAt actor d c = .ok commands) :
    commands ⊆ m.commands := by
  obtain ⟨-, seat, hs, rfl⟩ := behavior_eq_ok.mp hm
  obtain ⟨-, seat', hs', rfl⟩ := slipsAt_eq_ok (t := (d, c)).mp h
  cases hs.symm.trans hs'
  rw [commands_moduleOf]
  refine List.map_subset _ fun command hcommand => List.mem_append_right _ (List.mem_cons_of_mem _ ?_)
  exact List.mem_flatMap.mpr ⟨(d, c), mem_slipTiles.mpr hc, hcommand⟩

theorem listed_slips {m : Module} (hm : f.behavior actor = .ok m) {command : Command}
    (h : command ∈ m.commands) (hd : command.action.deed.slip? = some d) :
    ∃ c ∈ f.slippery d, ∃ commands, f.slipsAt actor d c = .ok commands ∧ command ∈ commands := by
  obtain ⟨roomy, seat, hs, rfl⟩ := behavior_eq_ok.mp hm
  rw [commands_moduleOf] at h
  obtain ⟨plain, hp, rfl⟩ := List.mem_map.mp h
  rw [Command.action_inTurn] at hd
  rcases repertoire_split.mp hp with hp | ⟨t, ht, hp⟩
  · rw [slip?_dry hp] at hd
    cases hd
  · have direction : t.1 = d := by
      rcases mem_slipCommands hp with rfl | ⟨-, way, -, rfl⟩ <;> exact Option.some.inj hd
    subst direction
    exact ⟨t.2, mem_slipTiles.mp ht, _, slipsAt_eq_ok.mpr ⟨roomy t ht, seat, hs, rfl⟩,
      List.mem_map_of_mem hp⟩

end Arena

/-- Take a slippery tile of either layer with room around it, and an agent that can hand on its
turn. Which cells around the tile are open is read off in the order of the slots. There is one
command for moving on the tile, and three for turning where the agent has a view and one-ways
do not count. All are distributions in ninths that lead onto no blocked cell. A module has these
commands for its tiles, and no others on slippery ground. -/
theorem slips_distribute (f : Arena) (actor : Actor) :
    (∀ d, ∀ c ∈ f.slippery d, c.position.hasRoom = true →
      ∀ seat, actor.seat f.settings.dialect = .ok seat →
        (∃ isOpen, f.surroundings c.position = .ok isOpen ∧
          Point.all.map isOpen = c.position.slots.map fun q => !f.blockedAt q) ∧
        ∃ slide spins, f.slipsAt actor d c = .ok (slide :: spins) ∧
          slide.action = ⟨actor.name, .moveOnSlip d⟩ ∧
          (∃ branches, slide.outcomes = .ninths branches ∧
            f.Slides actor.name d c.position branches) ∧
          spins.length = (if !f.settings.oneWays && actor.withView then 3 else 0) ∧
          ∀ spin ∈ spins, spin.action = ⟨actor.name, .turnAtSlip d⟩ ∧
            ∃ branches, spin.outcomes = .ninths branches ∧
              f.Spins actor.name d c.position branches) ∧
      ∀ m, f.behavior actor = .ok m →
        (∀ d, ∀ c ∈ f.slippery d, ∃ commands, f.slipsAt actor d c = .ok commands ∧
          commands ⊆ m.commands) ∧
        ∀ command ∈ m.commands, ∀ d, command.action.deed.slip? = some d →
          ∃ c ∈ f.slippery d, ∃ commands, f.slipsAt actor d c = .ok commands ∧
            command ∈ commands := by
  refine ⟨fun d c hc room seat hs => ⟨?_, ?_⟩, fun m hm => ⟨fun d c hc => ?_, ?_⟩⟩
  · refine ⟨_, Arena.surroundings_eq_ok.mpr ⟨room, rfl⟩, ?_⟩
    simp [Position.slots_eq, Arena.openAround, Function.comp_def]
  · let spins :=
      if !f.settings.oneWays && actor.withView then
        actor.name.spinCommands c.position d (f.openAround c.position) else []
    refine ⟨_, spins.map (·.inTurn seat),
      Arena.slipsAt_eq_ok (t := (d, c)).mpr ⟨room, seat, hs, rfl⟩, ?_, ?_, ?_, ?_⟩
    · exact Command.action_inTurn _ seat
    · exact Arena.slides_command seat
    · rw [List.length_map]
      simp only [spins]
      split <;> rfl
    · intro spin hspin
      obtain ⟨plain, hp, rfl⟩ := List.mem_map.mp hspin
      have turning : plain ∈ actor.name.spinCommands c.position d (f.openAround c.position) := by
        simp only [spins] at hp
        split at hp
        · exact hp
        · cases hp
      rw [Command.action_inTurn]
      exact Arena.spins_command turning seat
  · obtain ⟨roomy, seat, hs, -⟩ := Arena.behavior_eq_ok.mp hm
    have made := Arena.slipsAt_eq_ok (t := (d, c)).mpr
      ⟨roomy _ (Arena.mem_slipTiles.mpr hc), seat, hs, rfl⟩
    exact ⟨_, made, Arena.slips_listed hm hc made⟩
  · exact fun command hcommand d hd => Arena.listed_slips hm hcommand hd

theorem slips_distribute_room :
    ∃ f, Arena.build slipperyRoom [] { viewers := ["Agent"] } [] = .ok f ∧
      ∃ slide spins, f.slipsAt (.ofSettings f.settings "Agent" 0 1) .north
          ⟨⟨2, 3⟩, .slippery .north, .red⟩ = .ok (slide :: spins) ∧
        spins.length = 3 ∧ ∃ branches, slide.outcomes = .ninths branches ∧
          f.Slides "Agent" .north ⟨2, 3⟩ branches := by
  obtain ⟨f, hf, hs, hc⟩ : ∃ f, Arena.build slipperyRoom [] { viewers := ["Agent"] } [] = .ok f ∧
      f.settings = { viewers := ["Agent"] } ∧
      ⟨⟨2, 3⟩, .slippery .north, .red⟩ ∈ f.slippery .north := ⟨_, rfl, rfl, by decide⟩
  have seat : (Actor.ofSettings f.settings "Agent" 0 1).seat f.settings.dialect = .ok none := by
    rw [hs]
    rfl
  obtain ⟨-, slide, spins, made, -, branches, count, -⟩ :=
    (slips_distribute f (.ofSettings f.settings "Agent" 0 1)).1 .north _ hc (by decide) none seat
  rw [hs] at count
  exact ⟨f, hf, slide, spins, made, count, branches⟩

end TileWorld
