import Mathlib.Data.List.Nodup
import TileWorld.Proofs.ProgramParts

/-!
# What a program declares

`mem_declares` lists the variables and formulas of a program. Their names, the labels and the
names of reward structures do not repeat (`declares_nodup`, `labels_nodup`,
`rewardNames_nodup`).
-/

namespace TileWorld

-- ---------------------------------------------------------------------------
-- What is declared
-- ---------------------------------------------------------------------------

namespace Arena

variable {f : Arena}

/-- The predicates that agents have formulas for. -/
def Knows (f : Arena) : Predicate → Prop
  | .on c => c ∈ f.regions.map (·.1)
  | .canPickUpKey c => c ∈ f.keyGroups.map (·.1)
  | .onSlipperyToward _ => f.settings.oneWays = true
  | _ => True

/-- What the program of an arena declares. -/
def Declares (f : Arena) : Symbol → Prop
  | .counter .turn => f.settings.dialect.hasTurns = true
  | .counter (.column a) | .counter (.row a) | .flag (.done a) => a ∈ f.names
  | .counter (.view a) => a ∈ f.names ∧ f.settings.orients a = true
  | .flag (.hasKey a c) => a ∈ f.names ∧ c ∈ f.keyGroups.map (·.1)
  | .flag (.pickedUp a c) => a ∈ f.names ∧ c ∈ f.regions.map (·.1)
  | .formula g => g.agent ∈ f.names ∧ f.Knows g.predicate

theorem knows_iff {p : Predicate} :
    f.Knows p ↔ p ∈ f.predicates ∨ ∃ r ∈ f.regions, p = .on r.1 := by
  cases p with
  | inCorridor x => cases x <;> simp [Knows, predicates, commonPredicates]
  | allowed m => cases m <;> simp [Knows, predicates, commonPredicates]
  | on c =>
    cases h : f.settings.oneWays <;>
      simp [Knows, predicates, commonPredicates, h, eq_comm]
  | canPickUpKey c =>
    cases h : f.settings.oneWays <;>
      simp [Knows, predicates, commonPredicates, h, eq_comm]
  | _ =>
    cases h : f.settings.oneWays <;>
      simp [Knows, predicates, commonPredicates, h, Direction.mem_all]

theorem mem_declares {s : Symbol} : s ∈ f.wholeProgram.declares ↔ f.Declares s := by
  rw [declares_wholeProgram]
  rcases s with v | fl | ⟨a, p⟩
  · cases v <;> simp [Declares, localSymbols]
  · cases fl <;> simp [Declares, localSymbols]
  · simp only [Declares, knows_iff]
    have none : ∀ b, Symbol.formula ⟨a, p⟩ ∉ f.localSymbols b := by simp [localSymbols]
    simp only [List.mem_append, List.mem_flatMap, List.mem_map, Symbol.formula.injEq,
      FormulaName.mk.injEq, none, and_false, exists_false, or_false]
    constructor
    · rintro ((h | ⟨r, hr, b, hb, rfl, rfl⟩) | ⟨b, hb, q, hq, rfl, rfl⟩)
      · split at h <;> simp at h
      · exact ⟨hb, .inr ⟨r, hr, rfl⟩⟩
      · exact ⟨hb, .inl hq⟩
    · rintro ⟨ha, hp | ⟨r, hr, rfl⟩⟩
      · exact .inr ⟨a, ha, p, hp, rfl, rfl⟩
      · exact .inl (.inr ⟨r, hr, a, ha, rfl, rfl⟩)

theorem Declares.agent {s : Symbol} (h : f.Declares s) : ∀ a ∈ s.agent?, a ∈ f.names := by
  intro a ha
  rcases s with v | fl | g
  · cases v <;> cases ha
    · exact h
    · exact h
    · exact h.1
  · cases fl <;> cases ha
    · exact h
    · exact h.1
    · exact h.1
  · cases ha
    exact h.1

theorem Staffed.inCast (hf : f.Staffed) {s : Symbol} (h : f.Declares s) : s.InCast :=
  fun a ha => hf.cast (h.agent a ha)

-- ---------------------------------------------------------------------------
-- Declared once
-- ---------------------------------------------------------------------------

theorem nodup_pairs {α β γ : Type} {l : List α} {m : List β} {g : α → β → γ} (hl : l.Nodup)
    (hm : m.Nodup) (hg : ∀ a ∈ l, ∀ a' ∈ l, ∀ b b', g a b = g a' b' → a = a' ∧ b = b') :
    (l.flatMap fun a => m.map (g a)).Nodup := by
  refine List.nodup_flatMap.mpr ⟨fun a ha => hm.map fun b b' h => (hg a ha a ha b b' h).2, ?_⟩
  refine hl.imp_of_mem ?_
  intro a a' ha ha' hne x hx hx'
  obtain ⟨b, -, rfl⟩ := List.mem_map.mp hx
  obtain ⟨b', -, h⟩ := List.mem_map.mp hx'
  exact hne (hg a' ha' a ha b' b h).1.symm

theorem byColor_nodup {β : Type} {colors : List Color} (hc : colors.Nodup) (cells : List Cell)
    {g : Color → β} (hg : ∀ c d, g c = g d → c = d) :
    ((byColor colors cells).map fun k => g k.1).Nodup := by
  have listed := (List.filter_sublist (p := fun k : Color × List Cell => !k.2.isEmpty)
    (l := colors.map fun c => (c, cells.filter (·.color = c)))).map fun k => g k.1
  refine listed.nodup ?_
  rw [List.map_map]
  exact hc.map hg

theorem keyGroups_nodup {β : Type} {g : Color → β} (hg : ∀ c d, g c = g d → c = d) :
    (f.keyGroups.map fun k => g k.1).Nodup :=
  byColor_nodup (by decide) _ hg

theorem regions_nodup {β : Type} {g : Color → β} (hg : ∀ c d, g c = g d → c = d) :
    (f.regions.map fun r => g r.1).Nodup :=
  byColor_nodup (by decide) _ hg

theorem predicates_nodup : f.predicates.Nodup := by
  have common : ∀ b, (commonPredicates b).Nodup := by decide
  refine List.nodup_append'.mpr ⟨common _, keyGroups_nodup fun c d h => by simpa using h, ?_⟩
  intro p hp hk
  obtain ⟨k, -, rfl⟩ := List.mem_map.mp hk
  revert hp
  cases f.settings.oneWays <;> simp [commonPredicates]

theorem marks_nodup : f.marks.Nodup := by
  have common : commonMarks.Nodup := by decide
  refine List.nodup_append'.mpr ⟨common, keyGroups_nodup fun c d h => by simpa using h, ?_⟩
  intro m hm hk
  obtain ⟨k, -, rfl⟩ := List.mem_map.mp hk
  simp [commonMarks] at hm

theorem localSymbols_nodup (a : Role) : (f.localSymbols a).Nodup := by
  have keys : (f.keyGroups.map fun k => Symbol.flag (.hasKey a k.1)).Nodup :=
    keyGroups_nodup (g := fun c => Symbol.flag (.hasKey a c)) fun c d h => by simpa using h
  have regions : (f.regions.map fun r => Symbol.flag (.pickedUp a r.1)).Nodup :=
    regions_nodup (g := fun c => Symbol.flag (.pickedUp a c)) fun c d h => by simpa using h
  cases h : f.settings.orients a <;>
    simp [localSymbols, h, List.nodup_append, keys, regions] <;> grind

theorem agent_localSymbols {a : Role} {s : Symbol} (h : s ∈ f.localSymbols a) :
    s.agent? = some a := by
  simp only [localSymbols, List.flatten_cons, List.flatten_nil, List.append_nil, List.mem_append,
    List.mem_cons, List.mem_map, List.not_mem_nil, or_false] at h
  rcases h with (rfl | rfl) | ⟨k, -, rfl⟩ | ⟨r, -, rfl⟩ | rfl | h
  · rfl
  · rfl
  · rfl
  · rfl
  · rfl
  · split at h
    · rw [List.mem_singleton.mp h]
      rfl
    · cases h

theorem declares_nodup (hn : f.names.Nodup) : f.wholeProgram.declares.Nodup := by
  have turn : (if f.settings.dialect.hasTurns then [Symbol.counter .turn] else []).Nodup := by
    split <;> simp
  have regions : (f.regions.flatMap fun r => f.names.map fun a =>
      Symbol.formula ⟨a, .on r.1⟩).Nodup := by
    have colors : (f.regions.map (·.1)).Nodup := regions_nodup fun _ _ => id
    have pairs := nodup_pairs (g := fun c a => Symbol.formula ⟨a, .on c⟩) colors hn
      fun c _ d _ a b h => by simpa [and_comm] using h
    simpa [List.flatMap_map] using pairs
  have formulas : (f.names.flatMap fun a => f.predicates.map fun p =>
      Symbol.formula ⟨a, p⟩).Nodup :=
    nodup_pairs hn predicates_nodup fun a _ b _ p q h => by simpa using h
  have locals : (f.names.flatMap f.localSymbols).Nodup := by
    refine List.nodup_flatMap.mpr ⟨fun a _ => localSymbols_nodup a, hn.imp ?_⟩
    intro a b hne s ha hb
    exact hne (Option.some.inj ((agent_localSymbols ha).symm.trans (agent_localSymbols hb)))
  have apart (c : Color) : Predicate.on c ∉ f.predicates := by
    cases h : f.settings.oneWays <;> simp [predicates, commonPredicates, h]
  have local_formula (a : Role) (g : FormulaName) : Symbol.formula g ∉ f.localSymbols a := by
    simp [localSymbols]
  have local_turn (a : Role) : Symbol.counter .turn ∉ f.localSymbols a := by
    simp [localSymbols]
  rw [declares_wholeProgram]
  refine List.nodup_append'.mpr ⟨List.nodup_append'.mpr ⟨List.nodup_append'.mpr
    ⟨turn, regions, ?_⟩, formulas, ?_⟩, locals, ?_⟩
  · intro s hs hr
    simp only [List.mem_flatMap, List.mem_map] at hr
    obtain ⟨r, -, a, -, rfl⟩ := hr
    split at hs <;> simp at hs
  · intro s hs hp
    simp only [List.mem_flatMap, List.mem_map] at hp
    obtain ⟨a, -, p, hp, rfl⟩ := hp
    rcases List.mem_append.mp hs with hs | hs
    · split at hs <;> simp at hs
    · simp only [List.mem_flatMap, List.mem_map, Symbol.formula.injEq, FormulaName.mk.injEq] at hs
      obtain ⟨r, -, _, -, -, rfl⟩ := hs
      exact apart _ hp
  · intro s hs hl
    obtain ⟨a, -, hl⟩ := List.mem_flatMap.mp hl
    simp only [List.mem_append, List.mem_flatMap, List.mem_map] at hs
    rcases hs with (hs | ⟨r, -, b, -, rfl⟩) | ⟨b, -, p, -, rfl⟩
    · split at hs
      · rw [List.mem_singleton.mp hs] at hl
        exact local_turn a hl
      · cases hs
    · exact local_formula a _ hl
    · exact local_formula a _ hl

theorem label_mark_inj {a b : Role} {m n : Mark} (h : Mark.label a m = Mark.label b n) :
    a = b ∧ m = n := by
  cases m <;> cases n <;> simp_all [Mark.label]

theorem labels_nodup (hn : f.names.Nodup) : f.wholeProgram.labels.Nodup := by
  have regions : (f.regions.flatMap fun r => f.names.map fun a =>
      Mark.label a (.formula (.on r.1))).Nodup := by
    have colors : (f.regions.map (·.1)).Nodup := regions_nodup fun _ _ => id
    have pairs := nodup_pairs (g := fun c a => Mark.label a (.formula (.on c))) colors hn
      fun c _ d _ a b h => by simpa [and_comm] using label_mark_inj h
    simpa [List.flatMap_map] using pairs
  have marks : (f.names.flatMap fun a => f.marks.map (Mark.label a)).Nodup :=
    nodup_pairs hn marks_nodup fun a _ b _ m n h => label_mark_inj h
  have apart (c : Color) : Mark.formula (.on c) ∉ f.marks := by
    simp [Arena.marks, commonMarks]
  have bare (a : Role) (m : Mark) : Mark.label a m ≠ .crash ∧ Mark.label a m ≠ .decidedStates := by
    cases m <;> simp [Mark.label]
  have crash : (if f.settings.dialect.hasTurns then [Label.crash] else []).Nodup := by
    split <;> simp
  rw [labels_wholeProgram]
  refine List.nodup_append'.mpr ⟨List.nodup_append'.mpr ⟨List.nodup_append'.mpr
    ⟨regions, marks, ?_⟩, crash, ?_⟩, List.nodup_singleton _, ?_⟩
  · intro l hr hm
    simp only [List.mem_flatMap, List.mem_map] at hr hm
    obtain ⟨r, -, a, -, rfl⟩ := hr
    obtain ⟨b, -, m, hm, h⟩ := hm
    obtain ⟨-, rfl⟩ := label_mark_inj h
    exact apart _ hm
  · intro l hl hc
    simp only [List.mem_append, List.mem_flatMap, List.mem_map] at hl
    have named : ∃ a m, Mark.label a m = l := by
      rcases hl with ⟨r, -, a, -, h⟩ | ⟨a, -, m, -, h⟩
      · exact ⟨a, _, h⟩
      · exact ⟨a, m, h⟩
    obtain ⟨a, m, rfl⟩ := named
    split at hc
    · exact (bare a m).1 (List.mem_singleton.mp hc)
    · cases hc
  · intro l hl hd
    rw [List.mem_singleton.mp hd] at hl
    simp only [List.mem_append, List.mem_flatMap, List.mem_map] at hl
    rcases hl with (⟨r, -, a, -, h⟩ | ⟨a, -, m, -, h⟩) | hc
    · exact (bare a _).2 h
    · exact (bare a m).2 h
    · split at hc <;> simp at hc

def objectives (f : Arena) : List Objective :=
  List.flatten [
    if f.lava.isEmpty then [] else [.safety],
    [.safetyAndGoal, .time],
    if f.rewards.isEmpty then [] else [.tableSafety, .tableSafetyAndGoal],
    if f.regions.isEmpty then [] else [.taxi]]

theorem objectives_nodup : f.objectives.Nodup := by
  unfold objectives
  cases f.lava.isEmpty <;> cases f.rewards.isEmpty <;> cases f.regions.isEmpty <;> decide

def objectiveItems (f : Arena) (a : Role) : Objective → List RewardItem
  | .safety => f.lavaItems a
  | .safetyAndGoal => f.goalItems a ++ f.lavaItems a
  | .time => stepItem a :: (f.goalItems a ++ f.lavaItems a)
  | .tableSafety => f.lavaItems a ++ f.tableItems a
  | .tableSafetyAndGoal => f.goalItems a ++ f.lavaItems a ++ f.tableItems a
  | .taxi => stepItem a :: (f.pickUpItems a ++ f.deliveryItems a)

theorem rewardStructures_eq (a : Role) :
    f.rewardStructures a = f.objectives.map fun o => ⟨a, o, f.objectiveItems a o⟩ := by
  unfold objectives rewardStructures
  cases f.lava.isEmpty <;> cases f.rewards.isEmpty <;> cases f.regions.isEmpty <;> rfl

theorem mem_rewardStructures {a : Role} {r : RewardStructure} : r ∈ f.rewardStructures a ↔
    r.objective ∈ f.objectives ∧ r.agent = a ∧ r.items = f.objectiveItems a r.objective := by
  rw [rewardStructures_eq, List.mem_map]
  constructor
  · rintro ⟨o, ho, rfl⟩
    exact ⟨ho, rfl, rfl⟩
  · rintro ⟨ho, rfl, items⟩
    exact ⟨r.objective, ho, by rw [← items]⟩

theorem names_rewardStructures (a : Role) :
    (f.rewardStructures a).map (·.name) = f.objectives.map fun o => a.qualify o.title := by
  rw [rewardStructures_eq, List.map_map]
  rfl

theorem rewardNames_nodup (hn : f.names.Nodup) (hc : f.names ⊆ Role.cast) :
    (f.wholeProgram.rewardStructures.map (·.name)).Nodup := by
  rw [rewardStructures_wholeProgram, List.map_flatMap, funext names_rewardStructures]
  exact nodup_pairs hn objectives_nodup fun a ha b hb o q h => rewardName_inj (hc ha) (hc hb) h

end Arena

end TileWorld
