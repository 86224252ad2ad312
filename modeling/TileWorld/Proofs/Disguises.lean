import Mathlib.Data.List.Sort
import TileWorld.Proofs.Acceptance
import TileWorld.Proofs.Likeness

/-!
# Tiles in disguise

Foregrounds whose tiles are alike, and which show one lead and the same adversaries, cannot be told
apart by what becomes of them (`Interchangeable.build`). So it does not matter where among the
open tiles the agents are drawn, or whether those that do not take part are drawn at all
(`Disguise.interchangeable`).
-/

namespace TileWorld

open scoped List

/-- Foregrounds of like cells, each with one lead, and with adversaries of the same colors, each
color once. -/
structure Interchangeable (settings : Settings) (cells cells' : List Cell) : Prop where
  like : LikeCells cells cells'
  lead : OneAgent cells ∧ OneAgent cells'
  distinct : DistinctRivals settings cells ∧ DistinctRivals settings cells'
  colors : ∀ color, color ∈ (Arena.rivals settings cells).map (·.color) ↔
    color ∈ (Arena.rivals settings cells').map (·.color)

variable {settings : Settings} {cells cells' background : List Cell} {rewards : StateRewards}

-- ---------------------------------------------------------------------------
-- Building
-- ---------------------------------------------------------------------------

theorem names_of_rivals {agent agent' : Cell} {agents agents' : List (Role × Position)}
    (h : Arena.enlistAll settings agent (cells.filter (·.tile = .adversary)) = .ok agents)
    (h' : Arena.enlistAll settings agent' (cells'.filter (·.tile = .adversary)) = .ok agents')
    (colors : ∀ color, color ∈ (Arena.rivals settings cells).map (·.color) ↔
      color ∈ (Arena.rivals settings cells').map (·.color)) :
    agents.map (·.1) = agents'.map (·.1) := by
  have sorted := List.pairwise_map.mpr (Arena.enlistAll_ok h).1
  have sorted' := List.pairwise_map.mpr (Arena.enlistAll_ok h').1
  have rival (a : Role) (l : List Cell) : (∃ c ∈ l, c.color.title = a) ↔
      ∃ color ∈ l.map (·.color), color.title = a := by simp
  refine sorted.eq_of_mem_iff sorted' fun a => ?_
  rw [Arena.enlistAll_names h, Arena.enlistAll_names h', rival, rival]
  simp only [colors]

theorem Interchangeable.build (h : Interchangeable settings cells cells') :
    Matching Arena.Alike (Arena.build cells background settings rewards)
      (Arena.build cells' background settings rewards) := by
  obtain ⟨agent, ha⟩ := oneAgent_iff.mp h.lead.1
  obtain ⟨agent', ha'⟩ := oneAgent_iff.mp h.lead.2
  have lead : Matching (fun _ _ => True) (Arena.findAgent cells) (Arena.findAgent cells') := by
    rw [ha, ha']
    exact .ok trivial
  refine (Matching.of_eq _).bind fun _ _ _ => Matching.mapError ?_
  -- The leads may be different cells: all that a program has of an agent is its name.
  refine Arena.arrange_alike h.like rfl rfl lead fun c c' _ => ?_
  obtain ⟨agents, hs⟩ : ∃ agents,
      Arena.enlistAll settings c (cells.filter (·.tile = .adversary)) = .ok agents :=
    Arena.enlistAll_total h.distinct.1
  obtain ⟨agents', hs'⟩ : ∃ agents,
      Arena.enlistAll settings c' (cells'.filter (·.tile = .adversary)) = .ok agents :=
    Arena.enlistAll_total h.distinct.2
  rw [hs, hs']
  exact .ok ⟨names_of_rivals hs hs' h.colors, fun a _ => ⟨rfl, rfl⟩⟩

-- ---------------------------------------------------------------------------
-- Disguises
-- ---------------------------------------------------------------------------

def Cell.face (c : Cell) : Tile × Color := (c.tile, c.color)

def Cell.wearing (c d : Cell) : Cell := { c with tile := d.tile, color := d.color }

/-- Ways to redraw a foreground. -/
inductive Disguise (settings : Settings) : List Cell → List Cell → Prop
  /-- Exchanges what stands on two open cells, such as an agent and the floor it moves to. -/
  | exchange (before between after : List Cell) (c d : Cell) (hc : c.tile.isGround = true)
      (hd : d.tile.isGround = true) :
      Disguise settings (before ++ c :: (between ++ d :: after))
        (before ++ c.wearing d :: (between ++ d.wearing c :: after))
  /-- Draws floor of any color for an adversary that does not take part. -/
  | hide (before after : List Cell) (c : Cell) (color : Color) (rival : c.tile = .adversary)
      (out : settings.includes c.color.title = false) :
      Disguise settings (before ++ c :: after)
        (before ++ { c with tile := .floor, color } :: after)

theorem like_of_isGround {c d : Cell} (hc : c.tile.isGround = true) (hd : d.tile.isGround = true)
    (place : c.position = d.position) : c.Like d := by
  refine ⟨place, .inr (.inl ⟨hc, hd⟩), fun key => ?_⟩
  rw [key] at hc
  cases hc

theorem LikeCells.append_cons {c d : Cell} (like : c.Like d) (before : List Cell)
    {rest rest' : List Cell} (h : LikeCells rest rest') :
    LikeCells (before ++ c :: rest) (before ++ d :: rest') :=
  List.rel_append (LikeCells.refl before) (.cons like h)

theorem Disguise.like (h : Disguise settings cells cells') : LikeCells cells cells' := by
  cases h with
  | exchange before between after c d hc hd =>
    have first : c.Like (c.wearing d) := like_of_isGround hc hd rfl
    have second : d.Like (d.wearing c) := like_of_isGround hd hc rfl
    exact .append_cons first before (.append_cons second between (.refl after))
  | hide before after c color rival out =>
    have hidden : c.Like { c with tile := .floor, color } :=
      like_of_isGround (by rw [rival]; rfl) rfl rfl
    exact .append_cons hidden before (.refl after)

theorem countP_agent (cells : List Cell) :
    cells.countP (·.tile = .agent) = (cells.map Cell.face).countP (·.1 = .agent) := by
  rw [List.countP_map]
  rfl

theorem colors_rivals (settings : Settings) (cells : List Cell) :
    (Arena.rivals settings cells).map (·.color) = ((cells.map Cell.face).filter fun t =>
      t.1 = .adversary && settings.includes t.2.title).map (·.2) := by
  rw [List.filter_map, List.map_map]
  rfl

/-- The faces of the cells decide who takes part. -/
theorem interchangeable_of_perm (like : LikeCells cells cells') (lead : OneAgent cells)
    (distinct : DistinctRivals settings cells)
    (faces : (cells.map Cell.face).Perm (cells'.map Cell.face)) :
    Interchangeable settings cells cells' := by
  have colors : ((Arena.rivals settings cells).map (·.color)).Perm
      ((Arena.rivals settings cells').map (·.color)) := by
    rw [colors_rivals, colors_rivals]
    exact (faces.filter _).map _
  refine ⟨like, ⟨lead, ?_⟩, ⟨distinct, ?_⟩, fun color => colors.mem_iff⟩
  · rw [OneAgent, countP_agent, ← faces.countP_eq, ← countP_agent]
    exact lead
  · have nodup : ((Arena.rivals settings cells).map (·.color)).Nodup :=
      List.pairwise_map.mpr distinct
    exact List.pairwise_map.mp (colors.nodup_iff.mp nodup)

theorem Disguise.interchangeable (h : Disguise settings cells cells') (lead : OneAgent cells)
    (distinct : DistinctRivals settings cells) : Interchangeable settings cells cells' := by
  have like := h.like
  cases h with
  | exchange before between after c d hc hd =>
    refine interchangeable_of_perm like lead distinct ?_
    simp only [List.map_append, List.map_cons]
    refine .append_left _ ?_
    calc c.face :: (between.map Cell.face ++ d.face :: after.map Cell.face)
      _ ~ c.face :: d.face :: (between.map Cell.face ++ after.map Cell.face) :=
        List.perm_middle.cons _
      _ ~ d.face :: c.face :: (between.map Cell.face ++ after.map Cell.face) := .swap ..
      _ ~ d.face :: (between.map Cell.face ++ c.face :: after.map Cell.face) :=
        List.perm_middle.symm.cons _
  | hide before after c color rival out =>
    have same : Arena.rivals settings (before ++ { c with tile := .floor, color } :: after) =
        Arena.rivals settings (before ++ c :: after) := by
      simp [Arena.rivals, out]
    refine ⟨like, ⟨lead, ?_⟩, ⟨distinct, ?_⟩, fun _ => by rw [same]⟩
    · simpa [OneAgent, rival] using lead
    · rwa [DistinctRivals, same]

/-- Interchangeable foregrounds are refused for the same reason or have the same program, whatever
comes with them. This holds of a foreground and any disguise of it. -/
theorem disguises_unseen (settings : Settings) (background : List Cell) (rewards : StateRewards) :
    (∀ cells cells', Interchangeable settings cells cells' →
      Matching (fun f g => f.program = g.program)
        (Arena.build cells background settings rewards)
        (Arena.build cells' background settings rewards)) ∧
      ∀ cells cells', Disguise settings cells cells' → OneAgent cells →
        DistinctRivals settings cells →
          Matching (fun f g => f.program = g.program)
            (Arena.build cells background settings rewards)
            (Arena.build cells' background settings rewards) := by
  have unseen {cells cells' : List Cell} (h : Interchangeable settings cells cells') :
      Matching (fun f g => f.program = g.program)
        (Arena.build cells background settings rewards)
        (Arena.build cells' background settings rewards) :=
    h.build.imp fun f g alike => alike.program_eq
  exact ⟨fun _ _ => unseen, fun _ _ h lead distinct => unseen (h.interchangeable lead distinct)⟩

def hall (faces : List (Tile × Color)) : List Cell :=
  let wall := List.replicate 7 (.wall, .white)
  List.zipWith (fun p face => ⟨p, face.1, face.2⟩) (Position.rectangle 3 6) (wall ++ faces ++ wall)

theorem disguises_unseen_hall :
    let settings : Settings := { considered := ["Blue"] }
    let drawn := hall [(.agent, .red), (.box, .green), (.adversary, .red), (.adversary, .blue)]
    let moved := hall [(.box, .green), (.agent, .red), (.adversary, .red), (.adversary, .blue)]
    let hidden := hall [(.agent, .red), (.box, .red), (.floor, .red), (.adversary, .blue)]
    ∃ f g h p, Arena.build drawn [] settings [] = .ok f ∧ Arena.build moved [] settings [] = .ok g ∧
      Arena.build hidden [] settings [] = .ok h ∧ f.program = .ok p ∧ g.program = .ok p ∧
      h.program = .ok p := by
  intro settings drawn moved hidden
  obtain ⟨interchangeable, disguise⟩ := disguises_unseen settings [] []
  have lead : OneAgent drawn := by decide
  have distinct : DistinctRivals settings drawn := by decide
  have exchange : Disguise settings drawn moved :=
    .exchange (drawn.take 7) [] (drawn.drop 9) ⟨⟨2, 2⟩, .agent, .red⟩ ⟨⟨2, 3⟩, .box, .green⟩ rfl rfl
  have redrawn : Interchangeable settings drawn hidden := by
    refine ⟨by decide, ⟨lead, by decide⟩, ⟨distinct, by decide⟩, fun color => ?_⟩
    cases color <;> decide
  obtain ⟨f, hf, dry⟩ : ∃ f, Arena.build drawn [] settings [] = .ok f ∧ ∀ o, f.slippery o = [] :=
    ⟨_, rfl, fun o => by cases o <;> rfl⟩
  have hp : f.program = .ok f.wholeProgram :=
    (Arena.built_program hf).mpr ⟨Arena.roomy_of_dry dry, rfl⟩
  have unmoved := disguise drawn moved exchange lead distinct
  have unhidden := interchangeable drawn hidden redrawn
  rw [hf] at unmoved unhidden
  obtain ⟨g, hg, same⟩ := unmoved.exists_ok
  obtain ⟨h, hh, same'⟩ := unhidden.exists_ok
  exact ⟨f, g, h, _, hf, hg, hh, hp, same.symm.trans hp, same'.symm.trans hp⟩

end TileWorld
