import TileWorld.Proofs.Uses

/-!
# What the formulas and updates of a program do

In the program of an arena the formula that says where an agent stands holds exactly at the
positions it lists (`fact_standsOn`). An update changes the counters it assigns to and no other
(`Update.apply_frame`), and the commands of an agent mention only what belongs to that agent
(`repertoire_own`).
-/

namespace TileWorld

-- ---------------------------------------------------------------------------
-- Formulas
-- ---------------------------------------------------------------------------

namespace Program

variable {p : Program} {s : State} {g : FormulaName} {body : Expr}

theorem foldl_define_other {l : List (FormulaName × Expr)} (h : g ∉ l.map (·.1)) (facts : Facts) :
    l.foldl (define s) facts g = facts g := by
  induction l generalizing facts with
  | nil => rfl
  | cons formula l ih =>
    rw [List.map_cons, List.mem_cons, not_or] at h
    rw [List.foldl_cons, ih h.2, define, if_neg h.1]

theorem foldl_define {l : List (FormulaName × Expr)} (distinct : (l.map (·.1)).Nodup)
    (h : (g, body) ∈ l) (facts : Facts) :
    ∃ known, l.foldl (define s) facts g = body.eval s known := by
  induction l generalizing facts with
  | nil => cases h
  | cons formula l ih =>
    rw [List.map_cons, List.nodup_cons] at distinct
    rcases List.mem_cons.mp h with rfl | h
    · exact ⟨facts, by rw [List.foldl_cons, foldl_define_other distinct.1, define, if_pos rfl]⟩
    · exact ih distinct.2 h _

/-- A formula whose body needs no other formula holds where its body does. -/
theorem facts_eq (distinct : (p.formulas.map (·.1)).Nodup) (h : (g, body) ∈ p.formulas)
    (plain : ∀ known known', body.eval s known = body.eval s known') (known : Facts) :
    p.facts s g = body.eval s known := by
  obtain ⟨known', hk⟩ := foldl_define distinct h fun _ => false
  exact hk.trans (plain known' known)

theorem formulas_sublist (p : Program) :
    (p.formulas.map fun formula => Symbol.formula formula.1).Sublist p.declares := by
  induction p with
  | nil => exact .slnil
  | cons b p ih =>
    cases b with
    | formula g body => exact ih.cons_cons _
    | _ => exact ih.trans (List.sublist_append_right _ _)

end Program

def State.position (s : State) (a : Role) : Position := ⟨s.counter (.row a), s.counter (.column a)⟩

theorem eval_isAtPosition (s : State) (known : Facts) (a : Role) (p : Position) :
    (Expr.isAtPosition a p).eval s known = decide (s.position a = p) := by
  obtain ⟨row, column⟩ := p
  simp [Expr.isAtPosition, Expr.isAt, Expr.isValue, Expr.eval, Term.ofCounter, Term.eval,
    State.position, and_comm]

theorem eval_standsOn (s : State) (known : Facts) (a : Role) (cells : List Cell) :
    (Role.standsOn a cells).eval s known = true ↔ s.position a ∈ cells.map (·.position) := by
  simp only [Role.standsOn, Expr.isAtAny, Expr.eval_anyOf, List.any_map, List.any_eq_true,
    Function.comp_apply, eval_isAtPosition, decide_eq_true_eq, List.mem_map]
  exact exists_congr fun c => and_congr_right fun _ => eq_comm

namespace Arena

variable {f : Arena} {s : State} {a : Role}

theorem formulas_nodup (hn : f.names.Nodup) : (f.wholeProgram.formulas.map (·.1)).Nodup := by
  refine List.Nodup.of_map Symbol.formula ?_
  rw [List.map_map]
  exact (Program.formulas_sublist f.wholeProgram).nodup (declares_nodup hn)

theorem formula_listed {g : FormulaName} {body : Expr} (ha : a ∈ f.names)
    (h : .formula g body ∈ f.agentFormulas a) : (g, body) ∈ f.wholeProgram.formulas := by
  refine List.mem_filterMap.mpr ⟨.formula g body, ?_, rfl⟩
  simp only [wholeProgram, preamble, List.mem_append, List.mem_flatMap]
  exact .inl (.inl (.inl (.inr ⟨a, ha, h⟩)))

theorem fact_standsOn (hn : f.names.Nodup) (ha : a ∈ f.names) {p : Predicate} {cells : List Cell}
    (h : .formula ⟨a, p⟩ (Role.standsOn a cells) ∈ f.agentFormulas a) :
    f.wholeProgram.facts s ⟨a, p⟩ = true ↔ s.position a ∈ cells.map (·.position) := by
  have plain (known known' : Facts) :
      (Role.standsOn a cells).eval s known = (Role.standsOn a cells).eval s known' := by
    rw [Bool.eq_iff_iff, eval_standsOn, eval_standsOn]
  rw [Program.facts_eq (formulas_nodup hn) (formula_listed ha h) plain fun _ => false, eval_standsOn]

theorem fact_cannotMove (hn : f.names.Nodup) (ha : a ∈ f.names) (d : Direction) :
    f.wholeProgram.facts s ⟨a, .cannotMove d⟩ = true ↔
      s.position a ∈ (f.restricted d).map (·.position) :=
  fact_standsOn hn ha (by simp [agentFormulas, terrainFormulas, moveFormulas, d.mem_all])

theorem fact_onSlippery (hn : f.names.Nodup) (ha : a ∈ f.names) :
    f.wholeProgram.facts s ⟨a, .onSlippery⟩ = true ↔
      s.position a ∈ (Direction.all.flatMap f.slippery).map (·.position) :=
  fact_standsOn hn ha (by simp [agentFormulas, terrainFormulas, slipperyFormulas])

theorem fact_inLava (hn : f.names.Nodup) (ha : a ∈ f.names) :
    f.wholeProgram.facts s ⟨a, .inLava⟩ = true ↔ s.position a ∈ f.lava.map (·.position) :=
  fact_standsOn hn ha (by simp [agentFormulas, terrainFormulas, lavaFormulas, labelled])

theorem fact_inGoal (hn : f.names.Nodup) (ha : a ∈ f.names) :
    f.wholeProgram.facts s ⟨a, .inGoal⟩ = true ↔ s.position a ∈ f.goals.map (·.position) :=
  fact_standsOn hn ha (by simp [agentFormulas, goalFormulas, labelled])

theorem fact_onWall (hn : f.names.Nodup) (ha : a ∈ f.names) :
    f.wholeProgram.facts s ⟨a, .onWall⟩ = true ↔ s.position a ∈ f.walls.map (·.position) :=
  fact_standsOn hn ha (by simp [agentFormulas, terrainFormulas, wallFormula])

end Arena

-- ---------------------------------------------------------------------------
-- Updates
-- ---------------------------------------------------------------------------

theorem Assignment.apply_frame {x : Assignment} {v : Counter} (h : Symbol.counter v ∉ x.symbols)
    (old s : State) : (x.apply old s).counter v = s.counter v := by
  cases x with
  | raise f => rfl
  | _ =>
    simp only [Assignment.symbols, List.mem_cons, Symbol.counter.injEq, List.not_mem_nil, or_false,
      or_self] at h
    simp only [Assignment.apply, State.setCounter, if_neg h]

theorem Update.foldl_frame {u : Update} {v : Counter} (h : Symbol.counter v ∉ u.symbols)
    (old s : State) : (u.foldl (Assignment.apply old) s).counter v = s.counter v := by
  induction u generalizing s with
  | nil => rfl
  | cons x u ih =>
    rw [Update.symbols, List.flatMap_cons, List.mem_append, not_or] at h
    rw [List.foldl_cons, ih h.2, Assignment.apply_frame h.1]

theorem Update.apply_frame {u : Update} {v : Counter} (h : Symbol.counter v ∉ u.symbols)
    (s : State) : (u.apply s).counter v = s.counter v :=
  Update.foldl_frame h s s

theorem Update.apply_append (u w : Update) (s : State) {v : Counter}
    (h : Symbol.counter v ∉ w.symbols) :
    (Update.apply (u ++ w) s).counter v = (u.apply s).counter v := by
  rw [Update.apply, List.foldl_append]
  exact Update.foldl_frame h s _

theorem Outcomes.possible_map (g : Update → Update) (o : Outcomes) :
    (o.map g).possible = o.possible.map g := by
  cases o with
  | certain u => rfl
  | chance p hit miss => rfl
  | ninths branches =>
    simp only [Outcomes.map, Outcomes.possible, List.filter_map, List.map_map]
    rfl

theorem Outcomes.possible_subset (o : Outcomes) : o.possible ⊆ o.updates := by
  cases o with
  | ninths branches => exact List.map_subset _ List.filter_sublist.subset
  | _ => exact List.Subset.refl _

-- ---------------------------------------------------------------------------
-- Agents by themselves
-- ---------------------------------------------------------------------------

namespace Arena

variable {f : Arena} {actor : Actor}

/-- The same field with one agent and without turns. -/
def alone (f : Arena) (a : Role) : Arena :=
  { f with agents := [(a, f.agent.position)], settings := { f.settings with dialect := .mdp } }

theorem declares_alone {a : Role} {s : Symbol} (h : (f.alone a).Declares s) :
    s.agent? = some a := by
  rcases s with v | fl | g
  · cases v with
    | turn => cases h
    | column b | row b => exact congrArg some (List.mem_singleton.mp h)
    | view b => exact congrArg some (List.mem_singleton.mp h.1)
  · cases fl with
    | done b => exact congrArg some (List.mem_singleton.mp h)
    | hasKey b c | pickedUp b c => exact congrArg some (List.mem_singleton.mp h.1)
  · exact congrArg some (List.mem_singleton.mp h.1)

/-- The commands of an agent mention only what belongs to it, and no turn: they are the same
commands that it has alone on the field. -/
theorem repertoire_own (ho : actor.withView = f.settings.orients actor.name) {c : Command}
    (hc : c ∈ f.repertoire actor) {s : Symbol} (hs : s ∈ c.symbols) :
    s.agent? = some actor.name := by
  have declared : (f.alone actor.name).Declares s :=
    scopes_repertoire (f := f.alone actor.name) List.mem_cons_self ho c hc s hs
  exact declares_alone declared

theorem repertoire_foreign {a b : Role} {place : Nat} {c : Command} {u : Update} {s : State}
    (hc : c ∈ f.repertoire (f.actorAt b place)) (hu : u ∈ c.outcomes.possible) (hab : b ≠ a)
    {v : Counter} (hv : (Symbol.counter v).agent? = some a) :
    (u.apply s).counter v = s.counter v := by
  refine u.apply_frame (fun hm => hab ?_) s
  have used : Symbol.counter v ∈ c.symbols :=
    List.mem_append_right _ (List.mem_flatMap.mpr ⟨u, c.outcomes.possible_subset hu, hm⟩)
  have own := repertoire_own rfl hc used
  rw [hv] at own
  exact (Option.some.inj own).symm

-- ---------------------------------------------------------------------------
-- Commands
-- ---------------------------------------------------------------------------

theorem mem_commands {c : Command} : c ∈ f.wholeProgram.commands ↔
    ∃ a place, f.names[place]? = some a ∧
      ∃ plain ∈ f.repertoire (f.actorAt a place), plain.inTurn (f.seatAt place) = c := by
  rw [Program.commands, modules_wholeProgram, List.flatMap_map]
  simp only [List.mem_flatMap, Prod.exists, List.mk_mem_zipIdx_iff_getElem?, moduleAt,
    commands_moduleOf, List.mem_map]

end Arena

namespace Command

variable {c : Command} {seat : Option Seat} {s : State} {known : Facts}

theorem eval_inTurn : (c.inTurn seat).guard.eval s known = true ↔
    (∀ seated ∈ seat, s.counter .turn = seated.place) ∧ c.guard.eval s known = true := by
  cases seat with
  | none => simp [Command.inTurn]
  | some seated =>
    simp [Command.inTurn, Expr.eval, Seat.isTurn, Expr.isValue, Term.ofCounter, Term.eval]

/-- In turn a command does what it does otherwise, and hands the turn on. -/
theorem possible_inTurn {u : Update} (h : u ∈ (c.inTurn seat).outcomes.possible) :
    ∃ plain ∈ c.outcomes.possible,
      (∀ v, v ≠ .turn → (u.apply s).counter v = (plain.apply s).counter v) ∧
      ∀ seated ∈ seat, (u.apply s).counter .turn = seated.next := by
  cases seat with
  | none => exact ⟨u, h, fun _ _ => rfl, fun _ hs => by cases hs⟩
  | some seated =>
    rw [Command.inTurn, Outcomes.possible_map] at h
    obtain ⟨plain, hp, rfl⟩ := List.mem_map.mp h
    refine ⟨plain, hp, fun v hv => ?_, fun _ hs => ?_⟩
    · refine Update.apply_append plain [seated.handOver] s ?_
      simpa [Update.symbols, Seat.handOver, Assignment.symbols] using hv
    · cases hs
      simp [Update.apply, Seat.handOver, Assignment.apply, State.setCounter]

end Command

end TileWorld
