import TileWorld.Proofs.Termini

/-!
# Entering one-way tiles

Where one-ways count, no move of an agent's own leads onto a one-way tile in the direction of the
tile. Slips ask for closed cells only. So the tile can be entered in its direction from a slippery
tile that carries straight onto it, and in no other way (`oneWays_entered_by_slides`).
-/

namespace TileWorld

def Direction.back (d : Direction) : Direction := d.right.right

theorem Direction.back_back (d : Direction) : d.back.back = d := by
  cases d <;> rfl

namespace Position

theorem toward_ne (p : Position) (d : Direction) : p.toward d ≠ p := by
  obtain ⟨row, column⟩ := p
  cases d <;> simp [toward, shift]

theorem toward_inj {p : Position} {d e : Direction} : p.toward d = p.toward e ↔ d = e := by
  obtain ⟨row, column⟩ := p
  cases d <;> cases e <;> simp [toward, shift]

/-- A slippery tile carries against the direction it is named for. -/
theorem around_straight {p : Position} {o d : Direction} :
    p.around (Slip.straight o) = p.toward d ↔ o = d.back := by
  have carried : p.around (Slip.straight o) = p.toward o.back := by cases o <;> rfl
  rw [carried, toward_inj]
  constructor
  · rintro rfl
    exact o.back_back.symm
  · rintro rfl
    exact d.back_back

end Position

namespace Slip

variable {o : Direction} {isOpen : Point → Bool} {q : Point}

def ending (o : Direction) (isOpen : Point → Bool) (p : Position) (q : Point) : Position :=
  if q = straight o ∧ blockedAhead o isOpen = true then p else p.around q

theorem moveWeight_oneWays :
    moveWeight o isOpen true q = if q = straight o then pieces else 0 := by
  simp [moveWeight, drift, total, Point.all]

end Slip

theorem position_slide {a : Role} {s : State} {p : Position} {o : Direction} {isOpen : Point → Bool}
    {oneWays : Bool} {u : Update} (here : s.position a = p)
    (hu : u ∈ (a.slideCommand p o isOpen oneWays).outcomes.possible) :
    ∃ q, Slip.moveWeight o isOpen oneWays q ≠ 0 ∧
      (u.apply s).position a = Slip.ending o isOpen p q := by
  obtain ⟨q, chance, rfl⟩ := mem_possible_slide.mp hu
  refine ⟨q, chance, ?_⟩
  unfold Slip.ending
  split
  · exact still_stay.1.trans here
  · rw [Role.carry, position_shiftBy, here]
    rfl

namespace Arena

/-- The cell is a one-way tile of the direction, which counts, and the board shows it. -/
structure Gate (f : Arena) (d : Direction) (t : Cell) : Prop where
  strict : f.settings.oneWays = true
  shown : f.Shown
  listed : t ∈ f.cells
  tile : t.tile = .oneWay d

/-- A walkable or slippery tile is at the position. On others, doors and balls, no direction is
restricted. -/
def Footing (f : Arena) (p : Position) : Prop :=
  p ∈ f.walkable.map (·.position) ∨ ∃ o, p ∈ (f.slippery o).map (·.position)

namespace Gate

variable {f : Arena} {d o : Direction} {t c : Cell} {p q : Position}

theorem isOpen (h : f.Gate d t) : f.blockedAt t.position = false := by
  rw [Arena.blockedAt, (h.shown _ _).mpr ⟨h.listed, rfl⟩]
  simp only [h.tile]
  rfl

theorem restricted (h : f.Gate d t) (hc : c ∈ f.walkable) (ahead : c.position.toward d = t.position) :
    c ∈ f.restricted d := by
  have stopped : f.hasTile (.oneWay d) t.position = true :=
    h.shown.hasTile.mpr ⟨t, h.listed, rfl, h.tile⟩
  exact List.mem_filter.mpr ⟨hc, by simp [stops, ahead, stopped, h.strict]⟩

/-- A slip that enters the tile in its direction goes straight ahead. -/
theorem slip_enters (h : f.Gate d t) {isOpen : Point → Bool}
    (seen : f.surroundings p = .ok isOpen) (q : Point) :
    (Slip.moveWeight o isOpen f.settings.oneWays q ≠ 0 ∧
        Slip.ending o isOpen p q = p.toward d ∧ Slip.ending o isOpen p q = t.position) ↔
      q = Slip.straight o ∧ o = d.back ∧ p.toward d = t.position := by
  rw [h.strict, Slip.moveWeight_oneWays]
  constructor
  · rintro ⟨chance, step, land⟩
    have straight : q = Slip.straight o := by
      by_contra aside
      exact chance (if_neg aside)
    refine ⟨straight, ?_, step.symm.trans land⟩
    unfold Slip.ending at step
    split at step
    · exact absurd step.symm (p.toward_ne d)
    · rw [straight] at step
      exact Position.around_straight.mp step
  · rintro ⟨rfl, rfl, ahead⟩
    have carried : p.around (Slip.straight d.back) = p.toward d := Position.around_straight.mpr rfl
    have free : ¬ Slip.blockedAhead d.back isOpen = true := by
      obtain ⟨-, rfl⟩ := surroundings_eq_ok.mp seen
      simp [Slip.blockedAhead, openAround, carried, ahead, h.isOpen]
    have ending : Slip.ending d.back isOpen p (Slip.straight d.back) = p.toward d := by
      rw [Slip.ending, if_neg fun held => free held.2, carried]
    exact ⟨by simp [Slip.pieces], ending, ending.trans ahead⟩

theorem moves_enter (h : f.Gate d t) (footing : f.Footing p) (moved : f.Moves p q)
    (step : q = p.toward d) (land : q = t.position) : p ∈ (f.slippery d.back).map (·.position) := by
  cases moved with
  | plain e free goal lava dry =>
    obtain rfl := Position.toward_inj.mp step
    rcases footing with walkable | ⟨o, wet⟩
    · obtain ⟨c, hc, rfl⟩ := List.mem_map.mp walkable
      exact absurd (List.mem_map_of_mem (h.restricted hc land)) free
    · exact absurd wet (dry o)
  | slide slippery seen chance =>
    obtain ⟨-, rfl, -⟩ := (h.slip_enters seen _).mp ⟨chance, step, land⟩
    exact List.mem_map_of_mem slippery
  | spin slippery seen loose chance =>
    rw [h.strict] at loose
    cases loose
  | stay slippery seen loose chance => exact absurd step.symm (Position.toward_ne _ d)

end Gate

section Steps

variable {f : Arena} {d : Direction} {tile : Cell} {actor : Actor} {c : Command} {u : Update}
  {s t : State}

theorem plain_keeps_off (h : f.Gate d tile) (hn : f.names.Nodup) (ha : actor.name ∈ f.names)
    (footing : f.Footing (s.position actor.name))
    (ahead : (s.position actor.name).toward d = tile.position)
    (hc : c ∈ f.turning actor ++ f.pickUps actor.name ++ actor.moves ++ [actor.name.finish])
    (hg : c.guard.eval s (f.wholeProgram.facts s) = true) (hu : u ∈ c.outcomes.possible) :
    (u.apply s).position actor.name ≠ tile.position := by
  intro land
  have step : (u.apply s).position actor.name = (s.position actor.name).toward d :=
    land.trans ahead.symm
  have left : (u.apply s).position actor.name ≠ s.position actor.name := by
    rw [step]
    exact Position.toward_ne _ d
  simp only [List.mem_append, List.mem_singleton] at hc
  rcases hc with ((hc | hc) | hc) | rfl
  · exact left (turning_still hc hu)
  · exact left (pickUps_still hc hu)
  · rcases moves_carry hn ha hc hg hu with same | moved
    · exact left same
    · have wet := h.moves_enter footing moved step land
      -- A move of its own asks for dry ground.
      obtain ⟨e, rfl | ⟨p, rfl⟩⟩ := mem_moves hc
      · exact ((eval_freeToMove hn ha e).mp hg).2.1.dry _ wet
      · exact ((eval_freeToMove hn ha e).mp hg).2.1.dry _ wet
  · rw [List.mem_singleton.mp hu] at left
    exact left rfl

theorem repertoire_enters (h : f.Gate d tile) (hn : f.names.Nodup) (hr : f.Roomy)
    (ha : actor.name ∈ f.names) (footing : f.Footing (s.position actor.name))
    (ahead : (s.position actor.name).toward d = tile.position) (hc : c ∈ f.repertoire actor)
    (hg : c.guard.eval s (f.wholeProgram.facts s) = true) (hu : u ∈ c.outcomes.possible)
    (land : (u.apply s).position actor.name = tile.position) :
    c.action = ⟨actor.name, .moveOnSlip d.back⟩ ∧
      s.position actor.name ∈ (f.slippery d.back).map (·.position) := by
  rcases repertoire_split.mp hc with plain | ⟨⟨o, cell⟩, ht, slip⟩
  · exact absurd land (plain_keeps_off h hn ha footing ahead plain hg hu)
  · rcases mem_slipCommands slip with rfl | ⟨loose, way, -, rfl⟩
    · have here := (eval_slide hn ha _ _ _ _).mp hg
      have seen : f.surroundings cell.position = .ok (f.openAround cell.position) :=
        surroundings_eq_ok.mpr ⟨hr _ ht, rfl⟩
      obtain ⟨q, chance, ends⟩ := position_slide here hu
      rw [here] at ahead
      obtain ⟨-, rfl, -⟩ := (h.slip_enters seen q).mp
        ⟨chance, ends.symm.trans (land.trans ahead.symm), ends.symm.trans land⟩
      exact ⟨rfl, List.mem_map.mpr ⟨cell, mem_slipTiles.mp ht, here.symm⟩⟩
    · rw [h.strict] at loose
      cases loose

theorem step_enters (h : f.Gate d tile) (hn : f.names.Nodup) (hr : f.Roomy) {a : Role}
    (ha : a ∈ f.names) {act : Action} (step : f.wholeProgram.Step s act t)
    (footing : f.Footing (s.position a)) (ahead : (s.position a).toward d = tile.position)
    (land : t.position a = tile.position) :
    act = ⟨a, .moveOnSlip d.back⟩ ∧ s.position a ∈ (f.slippery d.back).map (·.position) := by
  obtain ⟨c, w, fires, rfl⟩ := step_fires step
  have moved : t.position a = (w.apply s).position a :=
    position_eq (fires.counters (.column a) (by simp)) (fires.counters (.row a) (by simp))
  rw [moved] at land
  obtain ⟨-, place, hc⟩ := fires.listed
  by_cases own : c.action.agent = a
  · subst own
    have named : (f.actorAt c.action.agent place).name ∈ f.names := ha
    exact repertoire_enters h hn hr named footing ahead hc fires.enabled fires.possible land
  · have foreign {v : Counter} (hv : (Symbol.counter v).agent? = some a) :
        (w.apply s).counter v = s.counter v := repertoire_foreign hc fires.possible own hv
    have same : (w.apply s).position a = s.position a := position_eq (foreign rfl) (foreign rfl)
    exact absurd (ahead.trans (land.symm.trans same)) (Position.toward_ne _ d)

end Steps

end Arena

/-- Where one-ways count, take a one-way tile on a field that covers a rectangle. All walkable
cells before it are restricted in its direction. A slip enters it in its direction exactly if it
goes straight ahead on a slippery tile named for the opposite direction, which then has all
ninths. No other step of the program gets there in this direction from a walkable or slippery
tile. -/
theorem oneWays_entered_by_slides {cells background : List Cell} {settings : Settings}
    {rewards : StateRewards} {rows columns : Nat} {f : Arena}
    (covers : Arena.Covers cells rows columns)
    (hb : Arena.build cells background settings rewards = .ok f) (strict : settings.oneWays = true)
    {d : Direction} {tile : Cell} (ht : tile ∈ cells) (oneWay : tile.tile = .oneWay d) :
    (∀ c ∈ f.walkable, c.position.toward d = tile.position → c ∈ f.restricted d) ∧
    (∀ o, ∀ c ∈ f.slippery o, ∀ isOpen, f.surroundings c.position = .ok isOpen →
      Slip.moveWeight o isOpen settings.oneWays (Slip.straight o) = Slip.pieces ∧
      ∀ q, (Slip.moveWeight o isOpen settings.oneWays q ≠ 0 ∧
          Slip.ending o isOpen c.position q = c.position.toward d ∧
          Slip.ending o isOpen c.position q = tile.position) ↔
        q = Slip.straight o ∧ o = d.back ∧ c.position.toward d = tile.position) ∧
    ∀ p, f.program = .ok p → ∀ a ∈ f.names, ∀ s act t, p.Step s act t →
      f.Footing (s.position a) → (s.position a).toward d = tile.position →
        t.position a = tile.position →
          act = ⟨a, .moveOnSlip d.back⟩ ∧
            s.position a ∈ (f.slippery d.back).map (·.position) := by
  obtain ⟨rfl, -⟩ := Arena.build_fields hb
  obtain ⟨rfl, -, shown⟩ := covers.build hb
  have gate : f.Gate d tile := ⟨strict, shown, ht, oneWay⟩
  refine ⟨fun c hc => gate.restricted hc, fun o c _ isOpen seen => ⟨?_, gate.slip_enters seen⟩,
    fun p hp a ha s act t step footing ahead land => ?_⟩
  · rw [strict, Slip.moveWeight_oneWays, if_pos rfl]
  · obtain ⟨roomy, rfl⟩ := (Arena.built_program hb).mp hp
    exact Arena.step_enters gate (Arena.staffed_build hb).nodup roomy ha step footing ahead land

def gateRoom (o : Direction) : List Cell :=
  (Position.rectangle 3 5).map fun p =>
    ⟨p, if p.OnBorder 3 5 then .wall else if p = ⟨2, 2⟩ then .agent
      else if p = ⟨2, 3⟩ then .slippery o else .oneWay .east, .red⟩

theorem oneWays_entered_east : ∃ f p,
    Arena.build (gateRoom .east) [] { oneWays := true } [] = .ok f ∧ f.program = .ok p ∧
      ∀ s act t, p.Step s act t → s.position "Agent" = ⟨2, 3⟩ → t.position "Agent" ≠ ⟨2, 4⟩ := by
  obtain ⟨f, hf, names, tiles⟩ : ∃ f,
      Arena.build (gateRoom .east) [] { oneWays := true } [] = .ok f ∧ f.names = ["Agent"] ∧
        f.slipTiles = [(.east, ⟨⟨2, 3⟩, .slippery .east, .red⟩)] := ⟨_, rfl, rfl, rfl⟩
  have roomy : f.Roomy := by
    rw [Arena.Roomy, tiles]
    decide
  have hp := (Arena.built_program hf).mpr ⟨roomy, rfl⟩
  have wet : ⟨⟨2, 3⟩, .slippery .east, .red⟩ ∈ f.slippery .east :=
    Arena.mem_slipTiles.mp (by rw [tiles]; exact List.mem_singleton_self _)
  have covers : Arena.Covers (gateRoom .east) 3 5 := .of_eq rfl
  have listed : ⟨⟨2, 4⟩, .oneWay .east, .red⟩ ∈ gateRoom .east := by decide
  obtain ⟨-, -, entered⟩ := oneWays_entered_by_slides covers hf rfl listed rfl
  refine ⟨f, _, hf, hp, fun s act t step here land => ?_⟩
  have footing : f.Footing (s.position "Agent") :=
    .inr ⟨.east, here ▸ List.mem_map_of_mem wet⟩
  obtain ⟨-, west⟩ := entered _ hp "Agent" (by simp [names]) s act t step footing
    (by rw [here]; rfl) land
  obtain ⟨cell, hc, -⟩ := List.mem_map.mp west
  have other : (Direction.east.back, cell) ∈ f.slipTiles := Arena.mem_slipTiles.mpr hc
  rw [tiles] at other
  cases List.mem_singleton.mp other

/-- One that carries east does, with all ninths. -/
theorem slide_enters_oneWay : ∃ f p isOpen,
    Arena.build (gateRoom .west) [] { oneWays := true } [] = .ok f ∧ f.program = .ok p ∧
      ⟨⟨2, 4⟩, .oneWay .east, .red⟩ ∈ gateRoom .west ∧
      ⟨⟨2, 3⟩, .slippery .west, .red⟩ ∈ f.slippery .west ∧
      f.surroundings ⟨2, 3⟩ = .ok isOpen ∧ Slip.moveWeight .west isOpen true .e = 9 ∧
      Slip.ending .west isOpen ⟨2, 3⟩ .e = ⟨2, 4⟩ ∧
      ∀ s, s.position "Agent" = ⟨2, 3⟩ →
        ∃ t, p.Step s ⟨"Agent", .moveOnSlip .west⟩ t ∧ t.position "Agent" = ⟨2, 4⟩ := by
  obtain ⟨f, hf, settings, names, tiles, clear⟩ : ∃ f,
      Arena.build (gateRoom .west) [] { oneWays := true } [] = .ok f ∧
        f.settings = { oneWays := true } ∧ f.names = ["Agent"] ∧
        f.slipTiles = [(.west, ⟨⟨2, 3⟩, .slippery .west, .red⟩)] ∧
        f.openAround ⟨2, 3⟩ .e = true := ⟨_, rfl, rfl, rfl, rfl, rfl⟩
  have roomy : f.Roomy := by
    rw [Arena.Roomy, tiles]
    decide
  have wet : ⟨⟨2, 3⟩, .slippery .west, .red⟩ ∈ f.slippery .west :=
    Arena.mem_slipTiles.mp (by rw [tiles]; exact List.mem_singleton_self _)
  have ending : Slip.ending .west (f.openAround ⟨2, 3⟩) ⟨2, 3⟩ .e = ⟨2, 4⟩ := by
    rw [Slip.ending, if_neg (by simp [Slip.blockedAhead, Slip.straight, Point.opposite, clear])]
    rfl
  refine ⟨f, _, f.openAround ⟨2, 3⟩, hf, (Arena.built_program hf).mpr ⟨roomy, rfl⟩, by decide, wet,
    Arena.surroundings_eq_ok.mpr ⟨rfl, rfl⟩, Slip.moveWeight_oneWays, ending, fun s here => ?_⟩
  have reach : Slip.Reaches .west (f.openAround ⟨2, 3⟩) f.settings.oneWays .e :=
    ⟨clear, by rw [settings]; decide⟩
  refine ⟨_, Arena.step_slide (by simp [names]) (by simp [names]) (by rw [settings]) wet here reach, ?_⟩
  rw [Role.carry, position_shiftBy, here]
  rfl

end TileWorld
