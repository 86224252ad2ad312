import TileWorld.Proofs.Guards

/-!
# Formulas that use formulas

A formula may use the formulas declared before it. In the program of an arena all of them keep to
that (`layered_wholeProgram`), so each holds exactly where its body does (`fact_eq`). Updates
raise flags and never lower them (`Update.flag_apply`).
-/

namespace TileWorld

theorem Expr.eval_congr {e : Expr} {s : State} {known known' : Facts}
    (h : ∀ g, .formula g ∈ e.symbols → known g = known' g) :
    e.eval s known = e.eval s known' := by
  induction e with
  | const b => rfl
  | flag f => rfl
  | formula g => exact h g List.mem_cons_self
  | equal l r => rfl
  | positive v => rfl
  | not e ih => exact congrArg (!·) (ih h)
  | group e ih => exact ih h
  | and sp l r ihl ihr | or l r ihl ihr =>
    have left := ihl fun g hg => h g (List.mem_append_left _ hg)
    have right := ihr fun g hg => h g (List.mem_append_right _ hg)
    rw [Expr.eval, Expr.eval, left, right]

namespace Program

/-- Every body uses only what was known at the start or declared before it. -/
def Layered (known : FormulaName → Prop) : List (FormulaName × Expr) → Prop
  | [] => True
  | (g, body) :: rest =>
    (∀ h, .formula h ∈ body.symbols → known h) ∧ Layered (fun h => known h ∨ h = g) rest

variable {known known' : FormulaName → Prop} {l m : List (FormulaName × Expr)} {s : State}

theorem Layered.mono (h : Layered known l) (hk : ∀ g, known g → known' g) : Layered known' l := by
  induction l generalizing known known' with
  | nil => trivial
  | cons formula l ih =>
    exact ⟨fun g hg => hk g (h.1 g hg), ih h.2 fun g hg => hg.imp_left (hk g)⟩

theorem layered_append (hl : Layered known l)
    (hm : Layered (fun h => known h ∨ h ∈ l.map (·.1)) m) : Layered known (l ++ m) := by
  induction l generalizing known with
  | nil => exact hm.mono fun g hg => hg.elim id fun hn => by cases hn
  | cons formula l ih =>
    refine ⟨hl.1, ih hl.2 (hm.mono fun g hg => ?_)⟩
    rcases hg with hg | hg
    · exact .inl (.inl hg)
    · rcases List.mem_cons.mp hg with rfl | hg
      · exact .inl (.inr rfl)
      · exact .inr hg

theorem layered_flatMap {α : Type} {xs : List α} {g : α → List (FormulaName × Expr)}
    (h : ∀ x ∈ xs, Layered known (g x)) : Layered known (xs.flatMap g) := by
  induction xs with
  | nil => trivial
  | cons x xs ih =>
    rw [List.forall_mem_cons] at h
    exact layered_append h.1 ((ih h.2).mono fun _ => .inl)

theorem layered_plain (h : ∀ formula ∈ l, ∀ g, .formula g ∉ formula.2.symbols) :
    Layered known l := by
  induction l generalizing known with
  | nil => trivial
  | cons formula l ih =>
    rw [List.forall_mem_cons] at h
    exact ⟨fun g hg => absurd hg (h.1 g), ih h.2⟩

/-- Formulas declared in layers hold where their bodies do. -/
theorem foldl_layered (layered : Layered known l) (distinct : (l.map (·.1)).Nodup)
    (apart : ∀ g, known g → g ∉ l.map (·.1)) {g : FormulaName} {body : Expr}
    (h : (g, body) ∈ l) (facts : Facts) :
    l.foldl (define s) facts g = body.eval s (l.foldl (define s) facts) := by
  induction l generalizing known facts with
  | nil => cases h
  | cons formula l ih =>
    rw [List.map_cons, List.nodup_cons] at distinct
    rcases List.mem_cons.mp h with rfl | h
    · -- What the body uses is not declared again, so it keeps its value to the end.
      have before (g' : FormulaName) (hg : .formula g' ∈ body.symbols) :
          facts g' = ((g, body) :: l).foldl (define s) facts g' :=
        (foldl_define_other (apart g' (layered.1 g' hg)) facts).symm
      rw [← Expr.eval_congr before, List.foldl_cons, foldl_define_other distinct.1, define,
        if_pos rfl]
    · refine ih layered.2 distinct.2 (fun g' hg => ?_) h _
      rcases hg with hg | rfl
      · exact fun hm => apart g' hg (List.mem_cons_of_mem _ hm)
      · exact distinct.1

theorem formulas_append {p q : Program} : formulas (p ++ q) = formulas p ++ formulas q :=
  List.filterMap_append

theorem formulas_flatMap {α : Type} (xs : List α) (g : α → Program) :
    formulas (xs.flatMap g) = xs.flatMap fun x => formulas (g x) :=
  List.filterMap_flatMap

end Program

namespace Arena

variable {f : Arena} {s : State} {a : Role}

theorem plain_standsOn (cells : List Cell) (g : FormulaName) :
    .formula g ∉ (Role.standsOn a cells).symbols := by
  simp [Role.standsOn, Expr.isAtAny, Expr.symbols_anyOf, Expr.isAtPosition, Expr.symbols,
    Expr.symbols_isAt]

def nearKey (a : Role) (withView : Bool) (k : Color × List Cell) : Expr :=
  .anyOf (k.2.flatMap fun key => Direction.all.map (a.reaches withView key.position))

theorem formulas_keyFormulas (a : Role) (withView : Bool) :
    Program.formulas (f.keyFormulas a withView) = f.keyGroups.map fun k =>
      (⟨a, .canPickUpKey k.1⟩,
        .and .wide (.group (nearKey a withView k)) (.not (.flag (.hasKey a k.1)))) := by
  have gap : Program.formulas (if f.keyGroups.isEmpty then [] else [.gap]) = [] := by
    split <;> rfl
  rw [keyFormulas, Program.formulas_append, gap, List.append_nil, Program.formulas_flatMap,
    List.map_eq_flatMap]
  rfl

theorem plain_nearKey (withView : Bool) (k : Color × List Cell) (g : FormulaName) :
    .formula g ∉ (nearKey a withView k).symbols := by
  cases withView <;>
    simp [nearKey, Expr.symbols_anyOf, Role.reaches, Expr.symbols, Term.symbols]

theorem layered_agentFormulas (f : Arena) (a : Role) :
    Program.Layered (fun _ => False) (Program.formulas (f.agentFormulas a)) := by
  rw [agentFormulas, Program.formulas_append, formulas_keyFormulas]
  refine Program.layered_append ?_ (Program.layered_plain ?_)
  · cases h : f.settings.oneWays <;>
      simp [terrainFormulas, goalFormulas, moveFormulas, slipperyFormulas, Role.windFormulas,
        lavaFormulas, wallFormula, turnFormulas, oneWayFormulas, fixedFormulas, h, labelled,
        Direction.all, Program.formulas, Program.Layered, plain_standsOn, Role.someDirection,
        Expr.symbols_anyOf, Expr.symbols]
  · rw [List.forall_mem_map]
    intro k hk g
    simp [Expr.symbols, plain_nearKey]

theorem formulas_blocksAt (f : Arena) (a : Role) (place : Nat) :
    Program.formulas (f.blocksAt a place) = [] := by
  unfold blocksAt
  split <;> simp [Program.formulas, rewardBlocks]

theorem facts_preamble (f : Arena) (s : State) : f.preamble.facts s = f.wholeProgram.facts s := by
  rw [Program.facts, Program.facts, wholeProgram, Program.formulas_append,
    Program.formulas_flatMap]
  simp only [formulas_blocksAt, flatMap_nothing, List.append_nil]

theorem formulas_wholeProgram (f : Arena) : f.wholeProgram.formulas =
    (f.regions.flatMap fun r => f.names.map fun a => (⟨a, .on r.1⟩, Role.standsOn a r.2)) ++
      f.names.flatMap fun a => Program.formulas (f.agentFormulas a) := by
  have header : Program.formulas f.header = [] := by
    unfold header
    split <;> rfl
  have regions : Program.formulas f.regionFormulas =
      f.regions.flatMap fun r => f.names.map fun a => (⟨a, .on r.1⟩, Role.standsOn a r.2) := by
    simp only [regionFormulas, Program.formulas_flatMap, List.map_eq_flatMap]
    rfl
  have crash : Program.formulas (if f.settings.dialect.hasTurns then crashLabel f.names else []) =
      [] := by
    split <;> rfl
  have initial : Program.formulas f.initialBlocks = [] := rfl
  simp only [wholeProgram, preamble, Program.formulas_append, header, regions,
    Program.formulas_flatMap, crash, initial, formulas_blocksAt, flatMap_nothing, List.nil_append,
    List.append_nil]

theorem layered_wholeProgram (f : Arena) :
    Program.Layered (fun _ => False) f.wholeProgram.formulas := by
  rw [formulas_wholeProgram]
  refine Program.layered_append (Program.layered_plain fun formula h g => ?_) ?_
  · obtain ⟨r, -, h⟩ := List.mem_flatMap.mp h
    obtain ⟨a, -, rfl⟩ := List.mem_map.mp h
    exact plain_standsOn r.2 g
  · exact Program.layered_flatMap fun a _ => (f.layered_agentFormulas a).mono fun _ => .inl

/-- Every formula holds where its body does. -/
theorem fact_eq (hn : f.names.Nodup) {g : FormulaName} {body : Expr}
    (h : (g, body) ∈ f.wholeProgram.formulas) :
    f.wholeProgram.facts s g = body.eval s (f.wholeProgram.facts s) :=
  Program.foldl_layered f.layered_wholeProgram (formulas_nodup hn) (fun _ hk => hk.elim) h _

-- ---------------------------------------------------------------------------
-- Single formulas
-- ---------------------------------------------------------------------------

theorem fact_notDone (hn : f.names.Nodup) (ha : a ∈ f.names) {here bonus : Predicate}
    (h : .formula ⟨a, bonus⟩ (.and .wide (.fact a here) (.not (.flag (.done a)))) ∈
      f.agentFormulas a) :
    f.wholeProgram.facts s ⟨a, bonus⟩ = true ↔
      f.wholeProgram.facts s ⟨a, here⟩ = true ∧ s.flag (.done a) = false := by
  rw [fact_eq hn (formula_listed ha h)]
  simp [Expr.eval, Expr.fact]

theorem fact_isFixed (hn : f.names.Nodup) (ha : a ∈ f.names) :
    f.wholeProgram.facts s ⟨a, .isFixed⟩ = false := by
  have listed : .formula ⟨a, .isFixed⟩ (.const false) ∈ f.agentFormulas a := by
    simp [agentFormulas, terrainFormulas, fixedFormulas]
  rw [fact_eq hn (formula_listed ha listed), Expr.eval]

theorem fact_onWindy (hn : f.names.Nodup) (ha : a ∈ f.names) :
    f.wholeProgram.facts s ⟨a, .onWindy⟩ = false := by
  have toward (d : Direction) : f.wholeProgram.facts s ⟨a, .onWindyToward d⟩ = false := by
    have listed : .formula ⟨a, .onWindyToward d⟩ (.const false) ∈ f.agentFormulas a := by
      simp [agentFormulas, terrainFormulas, Role.windFormulas, d.mem_all]
    rw [fact_eq hn (formula_listed ha listed), Expr.eval]
  have listed : .formula ⟨a, .onWindy⟩ (a.someDirection .onWindyToward) ∈ f.agentFormulas a := by
    simp [agentFormulas, terrainFormulas, Role.windFormulas]
  rw [fact_eq hn (formula_listed ha listed), Role.someDirection, Expr.eval_anyOf]
  simp [Expr.fact, Expr.eval, toward]

theorem fact_allowed (hn : f.names.Nodup) (ha : a ∈ f.names) (m : Maneuver) :
    f.wholeProgram.facts s ⟨a, .allowed m⟩ = true := by
  have listed : .formula ⟨a, .allowed m⟩ (.const true) ∈ f.agentFormulas a := by
    cases m <;> simp [agentFormulas, terrainFormulas, fixedFormulas]
  rw [fact_eq hn (formula_listed ha listed), Expr.eval]

theorem fact_inCorridor (hn : f.names.Nodup) (ha : a ∈ f.names) (x : Axis) :
    f.wholeProgram.facts s ⟨a, .inCorridor x⟩ = true ↔
      s.position a ∈ (f.corridor x).map (·.position) :=
  fact_standsOn hn ha (by cases x <;> simp [agentFormulas, terrainFormulas, turnFormulas, labelled])

theorem fact_cannotTurn (hn : f.names.Nodup) (ha : a ∈ f.names) :
    f.wholeProgram.facts s ⟨a, .cannotTurn⟩ = true ↔
      ∃ x, s.position a ∈ (f.corridor x).map (·.position) := by
  have listed : .formula ⟨a, .cannotTurn⟩
      (.anyOf [.fact a (.inCorridor .northSouth), .fact a (.inCorridor .eastWest)]) ∈
        f.agentFormulas a := by
    simp [agentFormulas, terrainFormulas, turnFormulas]
  rw [fact_eq hn (formula_listed ha listed), Expr.eval_anyOf]
  simp only [List.any_cons, List.any_nil, Bool.or_false, Bool.or_eq_true, Expr.fact, Expr.eval,
    fact_inCorridor hn ha]
  constructor
  · rintro (h | h)
    · exact ⟨_, h⟩
    · exact ⟨_, h⟩
  · rintro ⟨x, h⟩
    cases x with
    | northSouth => exact .inl h
    | eastWest => exact .inr h

theorem fact_on (hn : f.names.Nodup) (ha : a ∈ f.names) {r : Color × List Cell}
    (hr : r ∈ f.regions) : f.wholeProgram.facts s ⟨a, .on r.1⟩ = true ↔
      s.position a ∈ r.2.map (·.position) := by
  have listed : (⟨a, .on r.1⟩, Role.standsOn a r.2) ∈ f.wholeProgram.formulas := by
    rw [formulas_wholeProgram]
    exact List.mem_append_left _ (List.mem_flatMap.mpr ⟨r, hr, List.mem_map_of_mem ha⟩)
  rw [fact_eq hn listed, eval_standsOn]

theorem toward_eq_iff (p q : Position) (d : Direction) :
    p.toward d = q ↔ p.column + ((⟨0, 0⟩ : Position).toward d).column = q.column ∧
      p.row + ((⟨0, 0⟩ : Position).toward d).row = q.row := by
  obtain ⟨row, column⟩ := q
  cases d <;> simp [Position.toward, Position.shift, and_comm]

theorem eval_reaches (known : Facts) (withView : Bool) (key : Position) (d : Direction) :
    (a.reaches withView key d).eval s known = true ↔
      (s.position a).toward d = key ∧ (withView = true → s.counter (.view a) = d.view) := by
  rw [toward_eq_iff]
  cases withView with
  | false =>
    simp only [Role.reaches, Bool.false_eq_true, if_false, Expr.eval, Bool.and_eq_true,
      decide_eq_true_eq]
    simp [Term.eval, State.position]
  | true =>
    simp only [Role.reaches, if_true, Expr.eval, Expr.faces, Expr.isValue, Bool.and_eq_true,
      decide_eq_true_eq]
    simp [Term.eval, Term.ofCounter, State.position]

theorem fact_canPickUpKey (hn : f.names.Nodup) (ha : a ∈ f.names) {k : Color × List Cell}
    (hk : k ∈ f.keyGroups) : f.wholeProgram.facts s ⟨a, .canPickUpKey k.1⟩ = true ↔
      (∃ key ∈ k.2, ∃ d, (s.position a).toward d = key.position ∧
        (f.settings.orients a = true → s.counter (.view a) = d.view)) ∧
      s.flag (.hasKey a k.1) = false := by
  have listed : (⟨a, .canPickUpKey k.1⟩, .and .wide
      (.group (nearKey a (f.settings.orients a) k)) (.not (.flag (.hasKey a k.1)))) ∈
        f.wholeProgram.formulas := by
    rw [formulas_wholeProgram]
    refine List.mem_append_right _ (List.mem_flatMap.mpr ⟨a, ha, ?_⟩)
    rw [agentFormulas, Program.formulas_append, formulas_keyFormulas]
    exact List.mem_append_right _ (List.mem_map_of_mem hk)
  rw [fact_eq hn listed]
  simp only [Expr.eval, nearKey, Expr.eval_anyOf, Bool.and_eq_true, List.any_eq_true,
    List.mem_flatMap, List.mem_map, Bool.not_eq_true']
  refine and_congr_left fun _ => ?_
  constructor
  · rintro ⟨_, ⟨key, hkey, d, -, rfl⟩, he⟩
    exact ⟨key, hkey, d, (eval_reaches _ _ _ _).mp he⟩
  · rintro ⟨key, hkey, d, he⟩
    exact ⟨_, ⟨key, hkey, d, d.mem_all, rfl⟩, (eval_reaches _ _ _ _).mpr he⟩

end Arena

-- ---------------------------------------------------------------------------
-- Steps
-- ---------------------------------------------------------------------------

theorem Update.flag_foldl (u : Update) (old s : State) (g : Flag) :
    (u.foldl (Assignment.apply old) s).flag g = true ↔ s.flag g = true ∨ .raise g ∈ u := by
  induction u generalizing s with
  | nil => simp
  | cons x u ih =>
    rw [List.foldl_cons, ih, List.mem_cons]
    cases x with
    | raise h =>
      by_cases hg : g = h
      · simp [Assignment.apply, State.setFlag, hg]
      · simp [Assignment.apply, State.setFlag, hg]
    | _ => simp [Assignment.apply, State.setCounter]

theorem Update.flag_apply (u : Update) (s : State) (g : Flag) :
    (u.apply s).flag g = true ↔ s.flag g = true ∨ .raise g ∈ u :=
  flag_foldl u s s g

namespace Program

variable {p : Program} {s t : State} {act : Action} {g : Flag}

theorem step_flag (h : p.Step s act t) (hg : s.flag g = true) : t.flag g = true := by
  cases h with
  | fire c u => exact (u.flag_apply s g).mpr (.inl hg)

theorem run_flag {path : List (Action × State)} (h : p.Run s path) (hg : s.flag g = true) :
    ∀ step ∈ path, step.2.flag g = true := by
  induction h with
  | stop => simp
  | next step _ ih =>
    have up := step_flag step hg
    exact List.forall_mem_cons.mpr ⟨up, ih up⟩

end Program

namespace Arena

variable {f : Arena} {s t : State} {act : Action}

/-- In state `s` the agent `a` does `c`, its update `w` comes about, and this leads to `t`, up to
the turn that is handed on in a game. -/
structure Fires (f : Arena) (s : State) (a : Role) (c : Command) (w : Update) (t : State) :
    Prop where
  listed : a ∈ f.names ∧ ∃ place, c ∈ f.repertoire (f.actorAt a place)
  enabled : c.guard.eval s (f.wholeProgram.facts s) = true
  possible : w ∈ c.outcomes.possible
  counters : ∀ v, v ≠ .turn → t.counter v = (w.apply s).counter v
  flags : ∀ g, t.flag g = true ↔ s.flag g = true ∨ .raise g ∈ w

/-- Every step is an agent's command, played in turn. -/
theorem step_fires (h : f.wholeProgram.Step s act t) :
    ∃ c w, f.Fires s act.agent c w t ∧ c.action = act := by
  cases h with
  | fire played u listed enabled possible =>
    obtain ⟨a, place, ha, c, hc, rfl⟩ := mem_commands.mp listed
    obtain ⟨-, guard⟩ := Command.eval_inTurn.mp enabled
    -- Handing on the turn touches the turn only.
    have plain : ∃ w ∈ c.outcomes.possible, (∀ g, .raise g ∈ u ↔ .raise g ∈ w) ∧
        ∀ v, v ≠ .turn → (u.apply s).counter v = (w.apply s).counter v := by
      cases hs : f.seatAt place with
      | none =>
        rw [hs] at possible
        exact ⟨u, possible, fun _ => Iff.rfl, fun _ _ => rfl⟩
      | some seat =>
        rw [hs, Command.inTurn, Outcomes.possible_map] at possible
        obtain ⟨w, hw, rfl⟩ := List.mem_map.mp possible
        refine ⟨w, hw, fun g => by simp [Seat.handOver], fun v hv => ?_⟩
        refine Update.apply_append w [seat.handOver] s ?_
        simpa [Update.symbols, Seat.handOver, Assignment.symbols] using hv
    obtain ⟨w, hw, raised, counters⟩ := plain
    have agent : c.action.agent = a := (proper_repertoire c hc).1
    refine ⟨c, w, ⟨⟨?_, place, ?_⟩, guard, hw, counters, fun g => ?_⟩, (c.action_inTurn _).symm⟩
    · rw [Command.action_inTurn, agent]
      exact List.mem_of_getElem? ha
    · rw [Command.action_inTurn, agent]
      exact hc
    · rw [Update.flag_apply, raised]

end Arena

end TileWorld
