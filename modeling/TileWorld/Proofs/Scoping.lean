import TileWorld.Proofs.Uses

/-!
# Scoping

The program of a text declares every name once and mentions only declared names
(`compile_wellScoped`), as far as the identifiers in its text go.
-/

namespace TileWorld

-- ---------------------------------------------------------------------------
-- Well-scoped programs
-- ---------------------------------------------------------------------------

def Block.declaredNames : Block → List String
  | .turnVariable _ => [Counter.turn.name]
  | .formula f _ => [f.name]
  | .behavior m => m.locals.map Declaration.name
  | _ => []

def Block.clauses : Block → List String
  | .formula _ e | .label _ e | .initial e => [e.render]
  | .behavior m => m.commands.flatMap fun c => c.guard.render :: c.outcomes.updates.map Update.render
  | .rewards r => r.items.map (·.condition.render)
  | _ => []

namespace Program

def declaredNames (p : Program) : List String := p.flatMap Block.declaredNames

def identifiers (p : Program) : List String :=
  (p.flatMap Block.clauses).flatMap fun text => Text.identifiers text.toList

/-- A program for the given agents in which every name is declared once and every identifier is
declared. An agent has a view where the settings say so, and a game has a turn. -/
structure WellScoped (p : Program) (settings : Settings) (agents : List Role) : Prop where
  declared : p.declaredNames.Nodup
  labels : (p.labels.map Label.name).Nodup
  modules : (p.modules.map (·.agent)).Nodup
  rewards : (p.rewardStructures.map (·.name)).Nodup
  closed : p.identifiers ⊆ p.declaredNames
  views : ∀ a, ((Counter.view a).name ∈ p.declaredNames ↔ a ∈ agents ∧ settings.orients a = true) ∧
    ((Counter.view a).name ∈ p.identifiers ↔ a ∈ agents ∧ settings.orients a = true)
  turn : (Counter.turn.name ∈ p.declaredNames ↔ settings.dialect = .smg) ∧
    (Counter.turn.name ∈ p.identifiers ↔ settings.dialect = .smg)
  actions : ∀ r ∈ p.rewardStructures, ∀ item ∈ r.items, ∀ act ∈ item.action,
    ∃ m ∈ p.modules, m.agent = r.agent ∧ act.name ∈ actionLabels m.commands

theorem declaredNames_eq (p : Program) : p.declaredNames = p.declares.map Symbol.name := by
  have block (b : Block) : b.declaredNames = b.declares.map Symbol.name := by
    cases b with
    | behavior m =>
      simp only [Block.declaredNames, Block.declares, List.map_map]
      exact List.map_congr_left fun d _ => d.name_symbol.symm
    | _ => rfl
  rw [declaredNames, declares, List.map_flatMap, funext block]

theorem identifiers_block {b : Block} (h : ∀ s ∈ b.uses, s.Spelled) :
    (b.clauses.flatMap fun text => Text.identifiers text.toList) = b.uses.map Symbol.name := by
  cases b with
  | formula g e => simpa [Block.clauses, Block.uses] using identifiers_expr h
  | label l e => simpa [Block.clauses, Block.uses] using identifiers_expr h
  | initial e => simpa [Block.clauses, Block.uses] using identifiers_expr h
  | behavior m =>
    simp only [Block.clauses, Block.uses, List.flatMap_assoc, List.map_flatMap]
    refine List.flatMap_congr fun c hc => identifiers_command fun s hs => h s ?_
    exact List.mem_flatMap.mpr ⟨c, hc, hs⟩
  | rewards r =>
    simp only [Block.clauses, Block.uses, List.flatMap_map, List.map_flatMap]
    refine List.flatMap_congr fun i hi => identifiers_expr fun s hs => h s ?_
    exact List.mem_flatMap.mpr ⟨i, hi, hs⟩
  | _ => rfl

theorem identifiers_eq {p : Program} (h : ∀ s ∈ p.uses, s.Spelled) :
    p.identifiers = p.uses.map Symbol.name := by
  rw [identifiers, uses, List.flatMap_assoc, List.map_flatMap]
  refine List.flatMap_congr fun b hb => identifiers_block fun s hs => h s ?_
  exact List.mem_flatMap.mpr ⟨b, hb, hs⟩

end Program

namespace Arena

variable {f : Arena}

theorem labels_inCast (hf : f.Staffed) : ∀ l ∈ f.wholeProgram.labels, l.InCast := by
  have mark {a : Role} (ha : a ∈ f.names) (m : Mark) : (Mark.label a m).InCast := by
    intro b hb
    cases m <;> cases hb <;> exact hf.cast ha
  intro l hl
  rw [labels_wholeProgram] at hl
  simp only [List.mem_append, List.mem_flatMap, List.mem_map, List.mem_singleton] at hl
  rcases hl with ((⟨r, -, a, ha, rfl⟩ | ⟨a, ha, m, -, rfl⟩) | hl) | rfl
  · exact mark ha _
  · exact mark ha m
  · split at hl
    · rw [List.mem_singleton.mp hl]
      intro b hb
      cases hb
    · cases hl
  · intro b hb
    cases hb

theorem view_used {a : Role} (ha : a ∈ f.names) (ho : f.settings.orients a = true) :
    Symbol.counter (.view a) ∈ f.wholeProgram.uses := by
  obtain ⟨place, hm⟩ := module_listed ha
  have move : (f.actorAt a place).sureMove .north ∈ f.repertoire (f.actorAt a place) := by
    simp [repertoire, Actor.moves, Direction.all]
  have seen : Symbol.counter (.view a) ∈ ((f.actorAt a place).sureMove .north).guard.symbols := by
    simp [Actor.sureMove, Actor.freeToMove, Expr.symbols_allOf, actorAt, Actor.ofSettings, ho]
  refine List.mem_flatMap.mpr ⟨_, hm, ?_⟩
  refine List.mem_flatMap.mpr ⟨_, mem_commands_moduleAt move, List.mem_append_left _ ?_⟩
  cases f.seatAt place with
  | none => exact seen
  | some seat => exact List.mem_cons_of_mem _ seen

theorem turn_used (h : f.settings.dialect.hasTurns = true) :
    Symbol.counter .turn ∈ f.wholeProgram.uses := by
  have initial : Symbol.counter .turn ∈ Program.uses f.initialBlocks := by
    simp [initialBlocks, Program.uses, Block.uses, Expr.symbols, Expr.symbols_allOf, h]
  rw [wholeProgram, preamble, Program.uses_append, Program.uses_append]
  exact List.mem_append_left _ (List.mem_append_right _ initial)

theorem rewarded_action {a : Role} {r : RewardStructure} (hr : r ∈ f.rewardStructures a)
    {item : RewardItem} (hi : item ∈ r.items) {act : Action} (hact : act ∈ item.action) :
    ∃ g ∈ f.regions, act = ⟨a, .pickUp g.1⟩ := by
  have goal : ∀ i ∈ f.goalItems a, i.action = none := by
    unfold goalItems
    split <;> simp [stateReward]
  have lava : ∀ i ∈ f.lavaItems a, i.action = none := by
    unfold lavaItems
    split <;> simp [stateReward]
  have delivery : ∀ i ∈ f.deliveryItems a, i.action = none := by
    simp only [deliveryItems]
    split <;> simp [stateReward]
  rcases (rewardStructures_items hr).2 item hi with hi | hi | rfl | hi | hi | hi
  · rw [goal item hi] at hact
    cases hact
  · rw [lava item hi] at hact
    cases hact
  · cases hact
  · obtain ⟨e, -, rfl⟩ := List.mem_map.mp hi
    cases hact
  · obtain ⟨g, hg, rfl⟩ := List.mem_map.mp hi
    cases hact
    exact ⟨g, hg, rfl⟩
  · rw [delivery item hi] at hact
    cases hact

theorem actions_listed : ∀ r ∈ f.wholeProgram.rewardStructures, ∀ item ∈ r.items,
    ∀ act ∈ item.action, ∃ m ∈ f.wholeProgram.modules, m.agent = r.agent ∧
      act.name ∈ actionLabels m.commands := by
  intro r hr item hi act hact
  rw [rewardStructures_wholeProgram] at hr
  obtain ⟨a, ha, hr⟩ := List.mem_flatMap.mp hr
  obtain ⟨g, hg, rfl⟩ := rewarded_action hr hi hact
  obtain ⟨place, hm⟩ := module_listed ha
  have picked : a.pickUp g.1 ∈ f.repertoire (f.actorAt a place) := by
    have listed : a.pickUp g.1 ∈ f.pickUps a := List.mem_append_right _ (List.mem_map_of_mem hg)
    simp only [repertoire, List.mem_append]
    exact .inl (.inl (.inr listed))
  refine ⟨f.moduleAt a place, List.mem_filterMap.mpr ⟨_, hm, rfl⟩,
    (rewardStructures_items hr).1.symm, ?_⟩
  refine List.mem_map.mpr ⟨_, mem_commands_moduleAt picked, ?_⟩
  rw [Command.action_inTurn]
  rfl

theorem wellScoped_wholeProgram (hf : f.Staffed) :
    f.wholeProgram.WellScoped f.settings f.names := by
  have uses := scopes_wholeProgram hf.lead
  have declared : f.wholeProgram.declaredNames = f.wholeProgram.declares.map Symbol.name :=
    Program.declaredNames_eq _
  have identifiers : f.wholeProgram.identifiers = f.wholeProgram.uses.map Symbol.name :=
    Program.identifiers_eq fun s hs => Symbol.spelled (hf.inCast (uses s hs))
  have counter_declared (v : Counter) :
      v.name ∈ f.wholeProgram.declaredNames ↔ f.Declares (.counter v) := by
    rw [declared, List.mem_map, ← mem_declares]
    constructor
    · rintro ⟨s, hs, h⟩
      exact Symbol.counter_name_inj (hf.inCast (mem_declares.mp hs)) h.symm ▸ hs
    · exact fun h => ⟨_, h, rfl⟩
  have counter_used (v : Counter) :
      v.name ∈ f.wholeProgram.identifiers ↔ Symbol.counter v ∈ f.wholeProgram.uses := by
    rw [identifiers, List.mem_map]
    constructor
    · rintro ⟨s, hs, h⟩
      exact Symbol.counter_name_inj (hf.inCast (uses s hs)) h.symm ▸ hs
    · exact fun h => ⟨_, h, rfl⟩
  have turns : f.settings.dialect.hasTurns = true ↔ f.settings.dialect = .smg := by
    cases f.settings.dialect <;> simp [Dialect.hasTurns]
  constructor
  case declared =>
    rw [declared]
    exact (declares_nodup hf.nodup).map_on fun s hs t ht h =>
      Symbol.name_inj (hf.inCast (mem_declares.mp hs)) (hf.inCast (mem_declares.mp ht)) h
  case labels =>
    exact (labels_nodup hf.nodup).map_on fun l hl k hk h =>
      Label.name_inj (labels_inCast hf l hl) (labels_inCast hf k hk) h
  case modules => exact modules_agents ▸ hf.nodup
  case rewards => exact rewardNames_nodup hf.nodup hf.cast
  case closed =>
    rw [identifiers, declared]
    exact List.map_subset _ fun s hs => mem_declares.mpr (uses s hs)
  case views =>
    intro a
    rw [counter_declared, counter_used]
    exact ⟨.rfl, uses _, fun h => view_used h.1 h.2⟩
  case turn =>
    rw [counter_declared, counter_used, ← turns]
    exact ⟨.rfl, uses _, turn_used⟩
  case actions => exact actions_listed

end Arena

theorem compile_wellScoped {text : String} {settings : Settings} {p : Program}
    (h : compile text settings = .ok p) :
    ∃ f, readArena text settings = .ok f ∧ p.WellScoped settings f.names := by
  obtain ⟨sheet, f, hr, hb, -, rfl⟩ := compile_eq_ok.mp h
  obtain ⟨rfl, -⟩ := Arena.build_fields hb
  exact ⟨f, readArena_eq_ok.mpr ⟨sheet, hr, hb⟩,
    Arena.wellScoped_wholeProgram (Arena.staffed_build hb)⟩

theorem compile_wellScoped_game :
    let text := "WRWRWRWRWR\nWRXGnRKRWR\nWRZB RGGWR\nWRWRWRWRWR\n-\n          \n     R    \n          \n          \n"
    let settings : Settings := { viewers := ["Agent"], dialect := .smg }
    ∃ p, compile text settings = .ok p ∧
      ∃ f, readArena text settings = .ok f ∧ p.WellScoped settings f.names :=
  ⟨_, compile_of_roomy rfl (by decide), compile_wellScoped (compile_of_roomy rfl (by decide))⟩

end TileWorld
