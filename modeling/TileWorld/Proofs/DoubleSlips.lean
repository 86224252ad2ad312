import TileWorld.Proofs.SlipPlaces

/-!
# Positions that are slippery twice

A slippery tile of the background is left out where the foreground is slippery in the same
direction. Where it is slippery in another one, both tiles are kept, so that every module has two
commands for sliding from one position. In all other cases a position is slippery once
(`slippery_once_unless_crossed`).
-/

namespace TileWorld

-- ---------------------------------------------------------------------------
-- Layers
-- ---------------------------------------------------------------------------

theorem Tile.slippery?_eq_some {t : Tile} {d : Direction} :
    t.slippery? = some d ↔ t = .slippery d := by
  cases t <;> simp [Tile.slippery?]

def slickAt (layer : List Cell) (q : Position) : Option Direction :=
  (layer.find? (·.position = q)).bind (·.tile.slippery?)

/-- Two layers are slippery at a position, in different directions. -/
def Crossed (front back : List Cell) (q : Position) : Prop :=
  ∃ c ∈ front, ∃ b ∈ back, c.position = q ∧ b.position = q ∧
    ∃ d e, c.tile = .slippery d ∧ b.tile = .slippery e ∧ d ≠ e

variable {layer front back : List Cell} {q : Position} {d : Direction}

theorem slickAt_eq_some (distinct : (layer.map (·.position)).Nodup) :
    slickAt layer q = some d ↔ ∃ c ∈ layer, c.position = q ∧ c.tile = .slippery d := by
  constructor
  · intro h
    obtain ⟨c, hc, ht⟩ := Option.bind_eq_some_iff.mp h
    exact ⟨c, List.mem_of_find?_eq_some hc, by simpa using List.find?_some hc,
      Tile.slippery?_eq_some.mp ht⟩
  · rintro ⟨c, hc, rfl, ht⟩
    cases found : layer.find? (·.position = c.position) with
    | none => exact absurd (List.find?_eq_none.mp found c hc) (by simp)
    | some other =>
      have same : other = c := List.inj_on_of_nodup_map distinct
        (List.mem_of_find?_eq_some found) hc (by simpa using List.find?_some found)
      rw [slickAt, found, same]
      exact Tile.slippery?_eq_some.mpr ht

theorem crossed_iff (hf : (front.map (·.position)).Nodup) (hb : (back.map (·.position)).Nodup) :
    Crossed front back q ↔
      ∃ d e, slickAt front q = some d ∧ slickAt back q = some e ∧ d ≠ e := by
  simp only [slickAt_eq_some hf, slickAt_eq_some hb]
  constructor
  · rintro ⟨c, hc, b, hb, here, there, d, e, hd, he, ne⟩
    exact ⟨d, e, ⟨c, hc, here, hd⟩, ⟨b, hb, there, he⟩, ne⟩
  · rintro ⟨d, e, ⟨c, hc, here, hd⟩, ⟨b, hb, there, he⟩, ne⟩
    exact ⟨c, hc, b, hb, here, there, d, e, hd, he, ne⟩

theorem countP_ways (x y : Option Direction) :
    (Direction.all.countP fun d => x = some d ∨ y = some d) ≤ 2 ∧
      ((Direction.all.countP fun d => x = some d ∨ y = some d) = 2 ↔
        ∃ d e, x = some d ∧ y = some e ∧ d ≠ e) := by
  rcases x with - | x <;> rcases y with - | y
  · simp
  · cases y <;> simp [Direction.all]
  · cases x <;> simp [Direction.all]
  · cases x <;> cases y <;> simp [Direction.all]

namespace Arena

variable {f : Arena} {a : Role} {place : Nat}

-- ---------------------------------------------------------------------------
-- Counting
-- ---------------------------------------------------------------------------

theorem slippery_positions : q ∈ (f.slippery d).map (·.position) ↔
    ∃ c ∈ f.cells ++ f.background, c.position = q ∧ c.tile = .slippery d := by
  rw [slippery, addNew_positions, ← List.mem_append, ← List.map_append, ofTile, ← List.filter_append,
    List.mem_map]
  simp only [List.mem_filter, decide_eq_true_eq, and_assoc]
  exact exists_congr fun c => and_congr_right fun _ => and_comm

theorem slipTiles_positions : q ∈ f.slipTiles.map (·.2.position) ↔
    ∃ c ∈ f.cells ++ f.background, c.position = q ∧ ∃ d, c.tile = .slippery d := by
  have listed : q ∈ f.slipTiles.map (·.2.position) ↔ ∃ d, q ∈ (f.slippery d).map (·.position) := by
    simp [slipTiles, Direction.mem_all]
  rw [listed]
  simp only [slippery_positions]
  constructor
  · rintro ⟨d, c, hc, here, ht⟩
    exact ⟨c, hc, here, d, ht⟩
  · rintro ⟨c, hc, here, d, ht⟩
    exact ⟨d, c, hc, here, ht⟩

/-- A position is listed once for each direction in which a layer is slippery there. -/
theorem count_slipTiles (hf : (f.cells.map (·.position)).Nodup)
    (hb : (f.background.map (·.position)).Nodup) (q : Position) :
    (f.slipTiles.map (·.2.position)).count q =
      Direction.all.countP fun d => slickAt f.cells q = some d ∨ slickAt f.background q = some d := by
  rw [slipTiles]
  induction Direction.all with
  | nil => rfl
  | cons d ds ih =>
    have here : q ∈ (f.slippery d).map (·.position) ↔
        slickAt f.cells q = some d ∨ slickAt f.background q = some d := by
      rw [slickAt_eq_some hf, slickAt_eq_some hb, slippery_positions]
      simp only [List.mem_append, or_and_right, exists_or]
    have once : (((f.slippery d).map (d, ·)).map (·.2.position)).count q =
        if slickAt f.cells q = some d ∨ slickAt f.background q = some d then 1 else 0 := by
      rw [List.map_map]
      exact (slippery_nodup hf d).count.trans (by simp only [here])
    rw [List.flatMap_cons, List.map_append, List.count_append, ih, once, List.countP_cons,
      Nat.add_comm]
    simp

end Arena

-- ---------------------------------------------------------------------------
-- Sliding
-- ---------------------------------------------------------------------------

def Deed.isSlide : Deed → Bool
  | .moveOnSlip _ => true
  | _ => false

def Module.slides (m : Module) : List (Option Position) := (m.slips.filter (·.1.isSlide)).map (·.2)

namespace Arena

variable {f : Arena} {a : Role} {place : Nat}

theorem slides_moduleAt :
    (f.moduleAt a place).slides = f.slipTiles.map (some ·.2.position) := by
  rw [Module.slides, slips_moduleAt]
  induction f.slipTiles with
  | nil => rfl
  | cons t tiles ih =>
    rw [List.flatMap_cons, List.filter_append, List.map_append, ih, List.map_cons]
    simp [slipMarks, Deed.isSlide]

theorem slides_program {cells background : List Cell} {settings : Settings} {rewards : StateRewards}
    (h : build cells background settings rewards = .ok f) {p : Program} (hp : f.program = .ok p)
    {m : Module} (hm : m ∈ p.modules) : m.slides = f.slipTiles.map (some ·.2.position) := by
  obtain ⟨-, rfl⟩ := (built_program h).mp hp
  obtain ⟨place, hm⟩ := List.mem_iff_getElem?.mp hm
  rw [module_at] at hm
  obtain ⟨a, -, rfl⟩ := Option.map_eq_some_iff.mp hm
  exact slides_moduleAt

end Arena

/-- A position is slippery twice exactly where the layers are slippery in different directions, and
once at all other positions where a layer is slippery. A module slides with one command for each
time that a position is slippery. -/
theorem slippery_once_unless_crossed {cells background : List Cell} {settings : Settings}
    {rewards : StateRewards} {rows columns : Nat} {f : Arena}
    (covers : Arena.Covers cells rows columns) (distinct : (background.map (·.position)).Nodup)
    (h : Arena.build cells background settings rewards = .ok f) :
    (∀ q, q ∈ f.slipTiles.map (·.2.position) ↔
      ∃ c ∈ cells ++ background, c.position = q ∧ ∃ d, c.tile = .slippery d) ∧
    (∀ q, (f.slipTiles.map (·.2.position)).count q ≤ 2 ∧
      ((f.slipTiles.map (·.2.position)).count q = 2 ↔ Crossed cells background q)) ∧
    ((f.slipTiles.map (·.2.position)).Nodup ↔ ∀ q, ¬ Crossed cells background q) ∧
    ∀ p, f.program = .ok p → ∀ m ∈ p.modules, m.slides = f.slipTiles.map (some ·.2.position) := by
  obtain ⟨-, rfl, rfl, -⟩ := Arena.build_fields h
  have twice (q : Position) : (f.slipTiles.map (·.2.position)).count q ≤ 2 ∧
      ((f.slipTiles.map (·.2.position)).count q = 2 ↔ Crossed f.cells f.background q) := by
    rw [Arena.count_slipTiles covers.nodup distinct, crossed_iff covers.nodup distinct]
    exact countP_ways _ _
  refine ⟨fun q => Arena.slipTiles_positions, twice, ?_, fun p hp m => Arena.slides_program h hp⟩
  rw [List.nodup_iff_count_le_one]
  refine forall_congr' fun q => ?_
  rw [← (twice q).2]
  have bound := (twice q).1
  omega

theorem slippery_once_room : ∃ f p,
    Arena.build slipperyRoom [⟨⟨2, 3⟩, .slippery .north, .red⟩] {} [] = .ok f ∧
      f.program = .ok p ∧ (f.slipTiles.map (·.2.position)).Nodup ∧
      ∀ m ∈ p.modules, m.slides = [some ⟨2, 3⟩] := by
  obtain ⟨f, hf, tiles⟩ : ∃ f,
      Arena.build slipperyRoom [⟨⟨2, 3⟩, .slippery .north, .red⟩] {} [] = .ok f ∧
        f.slipTiles = [(.north, ⟨⟨2, 3⟩, .slippery .north, .red⟩)] := ⟨_, rfl, rfl⟩
  have roomy : f.Roomy := by
    rw [Arena.Roomy, tiles]
    decide
  have hp := (Arena.built_program hf).mpr ⟨roomy, rfl⟩
  have covers : Arena.Covers slipperyRoom 4 5 := .of_eq rfl
  obtain ⟨-, -, once, slides⟩ := slippery_once_unless_crossed covers (by decide) hf
  refine ⟨f, _, hf, hp, once.mpr ?_, fun m hm => ?_⟩
  · rintro _ ⟨c, hc, b, hb, here, rfl, d, e, hd, he, ne⟩
    obtain rfl := List.mem_singleton.mp hb
    have north : ∀ c ∈ slipperyRoom, c.position = ⟨2, 3⟩ → c.tile = .slippery .north := by decide
    cases he
    exact ne (Tile.slippery.inj (hd.symm.trans (north c hc here)))
  · rw [slides _ hp m hm, tiles]
    rfl

/-- Here it is slippery in another direction. -/
theorem crossed_slides_twice : ∃ f p,
    Arena.build slipperyRoom [⟨⟨2, 3⟩, .slippery .east, .red⟩] {} [] = .ok f ∧
      f.program = .ok p ∧ f.slipTiles.map (·.2.position) = [⟨2, 3⟩, ⟨2, 3⟩] ∧
      ∀ m ∈ p.modules, m.slides = [some ⟨2, 3⟩, some ⟨2, 3⟩] := by
  obtain ⟨f, hf, tiles⟩ : ∃ f,
      Arena.build slipperyRoom [⟨⟨2, 3⟩, .slippery .east, .red⟩] {} [] = .ok f ∧
        f.slipTiles = [(.north, ⟨⟨2, 3⟩, .slippery .north, .red⟩),
          (.east, ⟨⟨2, 3⟩, .slippery .east, .red⟩)] := ⟨_, rfl, rfl⟩
  have roomy : f.Roomy := by
    rw [Arena.Roomy, tiles]
    decide
  have hp := (Arena.built_program hf).mpr ⟨roomy, rfl⟩
  refine ⟨f, _, hf, hp, by rw [tiles]; rfl, fun m hm => ?_⟩
  rw [Arena.slides_program hf hp hm, tiles]
  rfl

end TileWorld
