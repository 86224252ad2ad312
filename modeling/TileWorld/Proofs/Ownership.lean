import TileWorld.Proofs.FormulaLaws
import TileWorld.Proofs.SlipLaws

/-!
# What commands assign

The commands of an agent assign variables of its own module, and in a game the turn. They do so at
most once, raise flags and never lower them, and take the agent along by at most one column and one
row (`commands_own`). What a branch of a command can be is said once, by `Arena.Branch`.
-/

namespace TileWorld

-- ---------------------------------------------------------------------------
-- Assignments as texts
-- ---------------------------------------------------------------------------

namespace Assignment

def target : Assignment → Symbol
  | .shift v _ | .put v _ => .counter v
  | .turnRight a | .turnLeft a => .counter (.view a)
  | .raise g => .flag g

def value : Assignment → String
  | .shift v d => (Term.offset v d).render
  | .put _ n => n.repr
  | .turnRight a => "mod(" ++ (Counter.view a).name ++ " + 1, 4)"
  | .turnLeft a => (Counter.view a).name ++ " - 1"
  | .raise _ => "true"

theorem render_eq (x : Assignment) :
    x.render = "(" ++ x.target.name ++ "'=" ++ x.value ++ ")" := by
  apply String.ext
  cases x <;> simp [render, target, value, Symbol.name]

theorem target_symbols {x : Assignment} {s : Symbol} : s ∈ x.symbols ↔ s = x.target := by
  cases x <;> simp [symbols, target]

theorem eq_raise {x : Assignment} {g : Flag} (h : x.target = .flag g) : x = .raise g := by
  cases x <;> simp_all [target]

end Assignment

namespace Update

/-- The names of the variables that get a value, each with the text of the value. -/
def writes (u : Update) : List (String × String) := u.map fun x => (x.target.name, x.value)

def writtenText : List (String × String) → String
  | [] => "true"
  | w => String.intercalate " & " (w.map fun x => "(" ++ x.1 ++ "'=" ++ x.2 ++ ")")

theorem render_writes (u : Update) : u.render = writtenText u.writes := by
  have each : u.map Assignment.render =
      u.writes.map fun w => "(" ++ w.1 ++ "'=" ++ w.2 ++ ")" := by
    rw [writes, List.map_map]
    exact List.map_congr_left fun x _ => x.render_eq
  cases u with
  | nil => rfl
  | cons x rest => exact congrArg (String.intercalate " & ") each

theorem names_writes (u : Update) :
    u.writes.map (·.1) = (u.map Assignment.target).map Symbol.name := by
  simp [writes, Function.comp_def]

theorem mem_symbols {u : Update} {s : Symbol} : s ∈ u.symbols ↔ s ∈ u.map Assignment.target := by
  simp [symbols, Assignment.target_symbols, eq_comm]

end Update

theorem Command.updates_inTurn {c : Command} {seat : Option Seat} {u : Update}
    (h : u ∈ (c.inTurn seat).outcomes.updates) :
    ∃ w ∈ c.outcomes.updates, u = w ++ seat.toList.map Seat.handOver := by
  cases seat with
  | none => exact ⟨u, h, (List.append_nil u).symm⟩
  | some seated =>
    rw [Command.inTurn, Outcomes.updates_map] at h
    obtain ⟨w, hw, rfl⟩ := List.mem_map.mp h
    exact ⟨w, hw, rfl⟩

-- ---------------------------------------------------------------------------
-- Branches
-- ---------------------------------------------------------------------------

namespace Arena

/-- What a branch of a command of the agent can be before turns are added, with the columns and
rows that it takes the agent along. -/
inductive Branch (f : Arena) (a : Role) (slips : Bool) : Update → Int → Int → Prop
  | pass : Branch f a slips [] 0 0
  | raise (g : Flag) (own : .flag g ∈ f.localSymbols a) : Branch f a slips [.raise g] 0 0
  | turn (x : Assignment) (views : f.settings.orients a = true)
      (view : x.target = .counter (.view a)) : Branch f a slips [x] 0 0
  | column (columns : Int) (near : columns.natAbs ≤ 1) :
      Branch f a slips [.shift (.column a) columns] columns 0
  | row (rows : Int) (near : rows.natAbs ≤ 1) : Branch f a slips [.shift (.row a) rows] 0 rows
  | slide (columns rows : Int) (near : columns.natAbs ≤ 1 ∧ rows.natAbs ≤ 1)
      (slippery : slips = true) : Branch f a slips (a.shiftBy columns rows) columns rows
  | spin (columns rows : Int) (x : Assignment) (near : columns.natAbs ≤ 1 ∧ rows.natAbs ≤ 1)
      (slippery : slips = true) (views : f.settings.orients a = true)
      (view : x.target = .counter (.view a)) :
      Branch f a slips (a.shiftBy columns rows ++ [x]) columns rows

theorem targets_shiftBy (a : Role) (columns rows : Int) :
    (a.shiftBy columns rows).map Assignment.target ∈
      [[.counter (.row a)], [.counter (.column a)],
        [.counter (.column a), Symbol.counter (.row a)]] := by
  unfold Role.shiftBy
  split
  · simp [Assignment.target]
  · split <;> simp [Assignment.target]

namespace Branch

variable {f : Arena} {a : Role} {slips : Bool} {u : Update} {columns rows : Int}

theorem near (h : f.Branch a slips u columns rows) : columns.natAbs ≤ 1 ∧ rows.natAbs ≤ 1 := by
  cases h <;> simp_all

theorem aslant (h : f.Branch a slips u columns rows) (hc : columns ≠ 0) (hr : rows ≠ 0) :
    slips = true := by
  cases h with
  | slide _ _ _ slippery | spin _ _ _ _ slippery => exact slippery
  | _ => simp_all

theorem targets_own (h : f.Branch a slips u columns rows) :
    u.map Assignment.target ⊆ f.localSymbols a := by
  have place : [.counter (.column a), .counter (.row a)] ⊆ f.localSymbols a := by
    simp [localSymbols]
  have view (hv : f.settings.orients a = true) : .counter (.view a) ∈ f.localSymbols a := by
    simp [localSymbols, hv]
  have shifted (columns rows : Int) :
      (a.shiftBy columns rows).map Assignment.target ⊆ f.localSymbols a := by
    have options := targets_shiftBy a columns rows
    grind
  cases h with
  | pass => simp
  | raise g own => simpa [Assignment.target] using own
  | turn x views hx => simpa [hx] using view views
  | column | row => exact fun s hs => place (by simp_all [Assignment.target])
  | slide => exact shifted _ _
  | spin _ _ x _ _ views hx =>
    rw [List.map_append]
    exact List.append_subset.mpr ⟨shifted _ _, by simpa [hx] using view views⟩

theorem targets_nodup (h : f.Branch a slips u columns rows) : (u.map Assignment.target).Nodup := by
  cases h with
  | slide columns rows => have options := targets_shiftBy a columns rows; grind
  | spin columns rows x _ _ _ hx =>
    have options := targets_shiftBy a columns rows
    rw [List.map_append, List.map_singleton, hx]
    grind
  | _ => simp

/-- Off slippery ground no branch assigns both coordinates. -/
theorem targets_apart (h : f.Branch a slips u columns rows)
    (hc : .counter (.column a) ∈ u.map Assignment.target)
    (hr : .counter (.row a) ∈ u.map Assignment.target) : slips = true := by
  cases h with
  | slide _ _ _ slippery | spin _ _ _ _ slippery => exact slippery
  | turn x _ view => simp [view] at hc
  | _ => simp [Assignment.target] at hc hr

theorem position (h : f.Branch a slips u columns rows) (s : State) :
    (u.apply s).position a = (s.position a).shift columns rows := by
  cases h with
  | pass => exact (Position.shift_zero _).symm
  | raise => exact (Position.shift_zero _).symm
  | turn x _ view =>
    rw [position_frame, Position.shift_zero] <;> simp [Update.mem_symbols, view]
  | column | row =>
    simp [Update.apply, Assignment.apply, State.setCounter, State.position, Position.shift]
  | slide => exact position_shiftBy _ _
  | spin _ _ x _ _ _ view =>
    exact position_shiftBy_append (by simp [Update.mem_symbols, view]) _ _

end Branch

section Repertoire

variable {f : Arena} {a : Role} {place : Nat} {c : Command} {u : Update}

theorem target_viewTurns {way : List Expr × Assignment} (h : way ∈ a.viewTurns) :
    way.2.target = .counter (.view a) := by
  revert way
  simp [Role.viewTurns, Assignment.target]

theorem branch_turning (hc : c ∈ f.turning (f.actorAt a place)) (hu : u ∈ c.outcomes.updates)
    (slips : Bool) : f.Branch a slips u 0 0 := by
  rcases mem_turning hc with ⟨-, rfl⟩ | ⟨views, ⟨way, hw, deed, -, rfl⟩ | ⟨d, rfl⟩⟩
  · rw [List.mem_singleton.mp hu]
    exact .column 0 (by decide)
  · rw [List.mem_singleton.mp hu]
    exact .turn _ views (target_viewTurns hw)
  · rw [List.mem_singleton.mp hu]
    exact .pass

theorem branch_pickUps (hc : c ∈ f.pickUps a) (hu : u ∈ c.outcomes.updates) (slips : Bool) :
    f.Branch a slips u 0 0 := by
  rcases mem_pickUps hc with ⟨k, hk, rfl⟩ | ⟨r, hr, rfl⟩
  · rw [List.mem_singleton.mp hu]
    refine .raise _ ?_
    simp only [localSymbols, List.mem_flatten, List.mem_cons]
    exact ⟨_, .inr (.inl rfl), List.mem_map_of_mem hk⟩
  · rw [List.mem_singleton.mp hu]
    refine .raise _ ?_
    simp only [localSymbols, List.mem_flatten, List.mem_cons]
    exact ⟨_, .inr (.inr (.inl rfl)), List.mem_map_of_mem hr⟩

theorem branch_advance (d : Direction) (slips : Bool) :
    ∃ columns rows, f.Branch a slips [a.advance d] columns rows := by
  cases d with
  | north | south => exact ⟨0, _, .row _ (by decide)⟩
  | east | west => exact ⟨_, 0, .column _ (by decide)⟩

theorem branch_remain (d : Direction) (slips : Bool) : f.Branch a slips [a.remain d] 0 0 := by
  cases d with
  | north | south => exact .row _ (by decide)
  | east | west => exact .column _ (by decide)

theorem branch_moves {actor : Actor} (hc : c ∈ actor.moves) (hu : u ∈ c.outcomes.updates)
    (slips : Bool) : ∃ columns rows, f.Branch actor.name slips u columns rows := by
  obtain ⟨d, rfl | ⟨p, rfl⟩⟩ := mem_moves hc
  · rw [List.mem_singleton.mp hu]
    exact branch_advance d slips
  · simp only [Actor.riskyMove] at hu
    split at hu
    · rw [List.mem_singleton.mp hu]
      exact branch_advance d slips
    · simp only [Outcomes.updates, List.mem_cons, List.not_mem_nil, or_false] at hu
      rcases hu with rfl | rfl
      · exact branch_advance d slips
      · exact ⟨0, 0, branch_remain d slips⟩

theorem branch_slips {t : Direction × Cell} (hc : c ∈ f.slipCommands (f.actorAt a place) t)
    (hu : u ∈ c.outcomes.updates) :
    c.action.deed.slip?.isSome = true ∧ ∃ columns rows, f.Branch a true u columns rows := by
  have near (q : Point) : q.columns.natAbs ≤ 1 ∧ q.rows.natAbs ≤ 1 := by cases q <;> decide
  rcases slipCommands_cases.mp hc with rfl | ⟨⟨-, views⟩, spin⟩
  · refine ⟨rfl, ?_⟩
    simp only [Role.slideCommand, Outcomes.updates, List.map_map, List.mem_map] at hu
    obtain ⟨q, -, rfl⟩ := hu
    simp only [Function.comp_apply, Role.slideBranch]
    split
    · exact ⟨0, 0, .slide 0 0 (by decide) rfl⟩
    · exact ⟨_, _, .slide q.columns q.rows (near q) rfl⟩
  · obtain ⟨way, hw, rfl⟩ := List.mem_map.mp spin
    have view := target_viewTurns hw
    refine ⟨rfl, ?_⟩
    simp only [Role.spinBranches, Outcomes.updates, List.map_append, List.map_map, List.mem_append,
      List.mem_map, List.map_singleton, List.mem_singleton] at hu
    obtain ⟨q, -, rfl⟩ | rfl := hu
    · exact ⟨_, _, .spin q.columns q.rows way.2 (near q) rfl views view⟩
    · exact ⟨0, 0, .spin 0 0 way.2 (by decide) rfl views view⟩

/-- Every branch of what an agent can do is one of those above. -/
theorem branch_repertoire (hc : c ∈ f.repertoire (f.actorAt a place))
    (hu : u ∈ c.outcomes.updates) :
    ∃ columns rows, f.Branch a c.action.deed.slip?.isSome u columns rows := by
  rcases repertoire_split.mp hc with hc | ⟨t, -, hc⟩
  · simp only [List.mem_append, List.mem_singleton] at hc
    rcases hc with ((hc | hc) | hc) | rfl
    · exact ⟨0, 0, branch_turning hc hu _⟩
    · exact ⟨0, 0, branch_pickUps hc hu _⟩
    · exact branch_moves hc hu _
    · rw [List.mem_singleton.mp hu]
      exact ⟨0, 0, .raise _ (by simp [localSymbols, actorAt, Actor.ofSettings])⟩
  · obtain ⟨slips, branch⟩ := branch_slips hc hu
    rwa [slips]

end Repertoire

end Arena

-- ---------------------------------------------------------------------------
-- Modules
-- ---------------------------------------------------------------------------

/-- A branch of a command keeps to the variables of its module. `kept` and `near` say what it does,
the other fields are about the names and values in its text. -/
structure Module.Owns (m : Module) (dialect : Dialect) (c : Command) (u : Update) : Prop where
  text : u.render = Update.writtenText u.writes
  declared : ∀ w ∈ u.writes,
    w.1 ∈ m.locals.map Declaration.name ∨ dialect = .smg ∧ w.1 = "move"
  once : (u.writes.map (·.1)).Nodup
  raised : ∀ w ∈ u.writes, ∀ d ∈ m.locals, d.domain = .truth → d.name = w.1 → w.2 = "true"
  apart : "x" ++ m.agent ∈ u.writes.map (·.1) → "y" ++ m.agent ∈ u.writes.map (·.1) →
    c.action.deed.slip?.isSome = true
  /-- What is not assigned keeps its value, and no flag is lowered. -/
  kept : ∀ s : State,
    (∀ v : Counter, v.name ∉ u.writes.map (·.1) → (u.apply s).counter v = s.counter v) ∧
      ∀ g : Flag, (g.name ∉ u.writes.map (·.1) → (u.apply s).flag g = s.flag g) ∧
        (s.flag g = true → (u.apply s).flag g = true)
  near : ∃ columns rows : Int, columns.natAbs ≤ 1 ∧ rows.natAbs ≤ 1 ∧
    (columns ≠ 0 → rows ≠ 0 → c.action.deed.slip?.isSome = true) ∧
      ∀ s : State, (u.apply s).position m.agent = (s.position m.agent).shift columns rows

theorem Update.kept (u : Update) (s : State) :
    (∀ v : Counter, v.name ∉ u.writes.map (·.1) → (u.apply s).counter v = s.counter v) ∧
      ∀ g : Flag, (g.name ∉ u.writes.map (·.1) → (u.apply s).flag g = s.flag g) ∧
        (s.flag g = true → (u.apply s).flag g = true) := by
  rw [names_writes]
  refine ⟨fun v hv => u.apply_frame (fun h => hv ?_) s, fun g => ⟨fun hg => ?_, fun hg => ?_⟩⟩
  · exact List.mem_map_of_mem (f := Symbol.name) (mem_symbols.mp h)
  · have unraised : .raise g ∉ u := fun h =>
      hg (List.mem_map_of_mem (f := Symbol.name) (List.mem_map_of_mem (f := Assignment.target) h))
    rw [Bool.eq_iff_iff, u.flag_apply s g, or_iff_left unraised]
  · exact (u.flag_apply s g).mpr (.inl hg)

namespace Arena

variable {f : Arena} {a : Role} {place : Nat} {c : Command} {u : Update}

def ownSymbols (f : Arena) (a : Role) : List Symbol :=
  f.localSymbols a ++ if f.settings.dialect.hasTurns then [.counter .turn] else []

theorem inCast_own (ha : a ∈ Role.cast) {s : Symbol} (hs : s ∈ f.ownSymbols a) : s.InCast := by
  intro b hb
  rcases List.mem_append.mp hs with hs | hs
  · cases (agent_localSymbols hs).symm.trans hb
    exact ha
  · split at hs
    · rw [List.mem_singleton.mp hs] at hb
      cases hb
    · cases hs

theorem targets_seat (f : Arena) (place : Nat) :
    ((f.seatAt place).toList.map Seat.handOver).map Assignment.target =
      if f.settings.dialect.hasTurns then [.counter .turn] else [] := by
  unfold seatAt
  split <;> rfl

theorem position_seat (w : Update) (s : State) :
    (Update.apply (w ++ (f.seatAt place).toList.map Seat.handOver) s).position a =
      (w.apply s).position a := by
  have turn (v : Counter) (hv : v ≠ .turn) :
      Symbol.counter v ∉ Update.symbols ((f.seatAt place).toList.map Seat.handOver) := by
    rw [Update.mem_symbols, targets_seat]
    split <;> simp [hv]
  exact position_eq (Update.apply_append _ _ s (turn _ (by simp)))
    (Update.apply_append _ _ s (turn _ (by simp)))

theorem branch_commands (hc : c ∈ (f.moduleAt a place).commands) (hu : u ∈ c.outcomes.updates) :
    ∃ w columns rows, u = w ++ (f.seatAt place).toList.map Seat.handOver ∧
      f.Branch a c.action.deed.slip?.isSome w columns rows := by
  obtain ⟨plain, hp, rfl⟩ := plain_of_mem hc
  obtain ⟨w, hw, rfl⟩ := Command.updates_inTurn hu
  obtain ⟨columns, rows, branch⟩ := branch_repertoire hp hw
  rw [Command.action_inTurn]
  exact ⟨w, columns, rows, rfl, branch⟩

theorem targets_commands (hc : c ∈ (f.moduleAt a place).commands) (hu : u ∈ c.outcomes.updates) :
    u.map Assignment.target ⊆ f.ownSymbols a ∧ (u.map Assignment.target).Nodup := by
  obtain ⟨w, columns, rows, rfl, branch⟩ := branch_commands hc hu
  rw [List.map_append, targets_seat]
  refine ⟨List.append_subset.mpr ⟨?_, List.subset_append_right _ _⟩, ?_⟩
  · exact List.Subset.trans branch.targets_own (List.subset_append_left _ _)
  · refine List.nodup_append.mpr ⟨branch.targets_nodup, by split <;> simp, fun s hs t ht => ?_⟩
    have listed := agent_localSymbols (branch.targets_own hs)
    split at ht
    · rw [List.mem_singleton.mp ht]
      rintro rfl
      cases listed
    · cases ht

theorem mem_writes (ha : a ∈ Role.cast) (own : u.map Assignment.target ⊆ f.ownSymbols a)
    {s : Symbol} (hs : s ∈ f.ownSymbols a) (h : s.name ∈ u.writes.map (·.1)) :
    s ∈ u.map Assignment.target := by
  rw [Update.names_writes] at h
  obtain ⟨t, ht, name⟩ := List.mem_map.mp h
  rwa [Symbol.name_inj (inCast_own ha hs) (inCast_own ha (own ht)) name.symm]

theorem owns_commands (ha : a ∈ Role.cast) (hc : c ∈ (f.moduleAt a place).commands)
    (hu : u ∈ c.outcomes.updates) : (f.moduleAt a place).Owns f.settings.dialect c u := by
  obtain ⟨own, nodup⟩ := targets_commands hc hu
  obtain ⟨w, columns, rows, hw, branch⟩ := branch_commands hc hu
  have spelled : Declaration.name = Symbol.name ∘ Declaration.symbol := by
    funext d
    cases d <;> rfl
  constructor
  case text => exact u.render_writes
  case kept => exact u.kept
  case declared =>
    intro x hx
    obtain ⟨y, hy, rfl⟩ := List.mem_map.mp hx
    rcases List.mem_append.mp (own (List.mem_map_of_mem hy)) with hs | hs
    · rw [spelled, ← List.map_map, symbols_locals]
      exact .inl (List.mem_map_of_mem hs)
    · cases hd : f.settings.dialect with
      | mdp => simp [hd, Dialect.hasTurns] at hs
      | smg => exact .inr ⟨rfl, by simp_all [Dialect.hasTurns, Symbol.name, Counter.name]⟩
  case once =>
    rw [Update.names_writes]
    exact nodup.map_on fun s hs t ht => Symbol.name_inj (inCast_own ha (own hs))
      (inCast_own ha (own ht))
  case raised =>
    intro x hx d hd truth name
    obtain ⟨y, hy, rfl⟩ := List.mem_map.mp hx
    cases d with
    | counter => cases truth
    | flag g =>
      have listed : .flag g ∈ f.localSymbols a := by
        rw [← symbols_locals f a place]
        exact List.mem_map_of_mem (f := Declaration.symbol) hd
      have target : y.target = .flag g :=
        Symbol.name_inj (inCast_own ha (own (List.mem_map_of_mem hy)))
          (inCast_own ha (List.mem_append_left _ listed)) name.symm
      rw [y.eq_raise target]
      rfl
  case apart =>
    have mine {v : Counter} (hv : v = .column a ∨ v = .row a)
        (h : v.name ∈ u.writes.map (·.1)) : .counter v ∈ w.map Assignment.target := by
      have listed : .counter v ∈ f.ownSymbols a := by
        rcases hv with rfl | rfl <;> simp [ownSymbols, localSymbols]
      have assigned := mem_writes ha own (s := .counter v) listed h
      rw [hw, List.map_append, targets_seat, List.mem_append] at assigned
      refine assigned.resolve_right fun turn => ?_
      split at turn <;> rcases hv with rfl | rfl <;> simp at turn
    exact fun hx hy => branch.targets_apart (mine (.inl rfl) hx) (mine (.inr rfl) hy)
  case near =>
    refine ⟨columns, rows, branch.near.1, branch.near.2, branch.aslant, fun s => ?_⟩
    rw [hw]
    exact (position_seat w s).trans (branch.position s)

theorem eq_sureMove {actor : Actor} (hc : c ∈ f.repertoire actor) {d : Direction}
    (hd : c.action.deed = .move d) : c = actor.sureMove d := by
  rcases repertoire_split.mp hc with hc | ⟨t, -, hc⟩
  · simp only [List.mem_append, List.mem_singleton] at hc
    rcases hc with ((hc | hc) | hc) | rfl
    · rcases mem_turning hc with ⟨-, rfl⟩ | ⟨-, ⟨way, -, deed, turn, rfl⟩ | ⟨o, rfl⟩⟩
      · cases hd
      · cases (show deed = .move d from hd)
        simp at turn
      · cases hd
    · rcases mem_pickUps hc with ⟨k, -, rfl⟩ | ⟨r, -, rfl⟩ <;> cases hd
    · obtain ⟨o, rfl | ⟨p, rfl⟩⟩ := mem_moves hc
      · cases hd
        rfl
      · cases hd
    · cases hd
  · rcases mem_slipCommands hc with rfl | ⟨-, way, -, rfl⟩ <;> cases hd

theorem position_move (hc : c ∈ (f.moduleAt a place).commands) {d : Direction}
    (hd : c.action.deed = .move d) (hu : u ∈ c.outcomes.updates) (s : State) :
    (u.apply s).position a = (s.position a).toward d := by
  obtain ⟨plain, hp, rfl⟩ := plain_of_mem hc
  rw [Command.action_inTurn] at hd
  obtain ⟨w, hw, rfl⟩ := Command.updates_inTurn hu
  rw [eq_sureMove hp hd] at hw
  rw [List.mem_singleton.mp hw, position_seat]
  exact position_advance d

theorem exists_move (f : Arena) (a : Role) (place : Nat) (d : Direction) :
    ∃ c ∈ (f.moduleAt a place).commands, c.action = ⟨a, .move d⟩ := by
  have listed : (f.actorAt a place).sureMove d ∈ f.repertoire (f.actorAt a place) := by
    refine repertoire_split.mpr (.inl ?_)
    simp only [List.mem_append]
    exact .inl (.inr (List.mem_append_left _ (List.mem_map_of_mem (Direction.mem_all d))))
  exact ⟨_, mem_commands_moduleAt listed, Command.action_inTurn _ _⟩

end Arena

theorem Deed.eq_move {x : Deed} {d : Direction} (h : x.word = "move_" ++ d.word) : x = .move d := by
  cases x with
  | move e => cases d <;> cases e <;> first | rfl | exact absurd h (by decide)
  | tryMove e n =>
    -- Only here does the word go on after the direction.
    have rest : (e.word ++ "_" ++ n.repr).toList = d.word.toList := by
      have same : "move_" ++ e.word ++ "_" ++ n.repr = "move_" ++ d.word := h
      simpa [String.append_assoc] using congrArg String.toList same
    have bar : '_' ∈ d.word.toList := by simp [← rest]
    cases d <;> exact absurd bar (by decide)
  | turns | turnRight | turnLeft | stuck | done => cases d <;> exact absurd h (by decide)
  | moveOnSlip e | turnAtSlip e => cases d <;> cases e <;> exact absurd h (by decide)
  | pickUpKey e | pickUp e => cases d <;> cases e <;> exact absurd h (by decide)

theorem Action.name_eq_move {x : Action} {d : Direction} :
    x.name = x.agent ++ "_move_" ++ d.word ↔ x.deed = .move d := by
  have long : x.agent ++ "_move_" ++ d.word = x.agent ++ "_" ++ ("move_" ++ d.word) := by
    apply String.ext
    simp
  rw [long, Action.name, actionName, String.append_right_inj]
  constructor
  · exact Deed.eq_move
  · intro h
    rw [h]
    rfl

/-- Take a program that an arena has, and the module of one of its agents. Every branch of every
command keeps to the variables of that module. In each direction there is a command for moving,
named after it, and the commands of that name take the agent one step that way. -/
theorem commands_own {cells background : List Cell} {settings : Settings} {rewards : StateRewards}
    {f : Arena} {p : Program} {m : Module}
    (hb : Arena.build cells background settings rewards = .ok f) (hp : f.program = .ok p)
    (hm : m ∈ p.modules) :
    (∀ c ∈ m.commands, c.action.agent = m.agent ∧
      ∀ u ∈ c.outcomes.updates, m.Owns settings.dialect c u) ∧
    ∀ d : Direction,
      (∃ c ∈ m.commands, c.action.name = m.agent ++ "_move_" ++ d.word) ∧
      ∀ c ∈ m.commands, c.action.name = m.agent ++ "_move_" ++ d.word →
        ∀ u ∈ c.outcomes.updates, ∀ s : State,
          (u.apply s).position m.agent = (s.position m.agent).toward d ∧
          ∀ q, (s.position m.agent).step? d = some q → (u.apply s).position m.agent = q := by
  have staffed := Arena.staffed_build hb
  obtain ⟨rfl, -⟩ := Arena.build_fields hb
  obtain ⟨-, rfl⟩ := (Arena.built_program hb).mp hp
  rw [Arena.modules_wholeProgram] at hm
  obtain ⟨⟨a, place⟩, hn, rfl⟩ := List.mem_map.mp hm
  have cast : a ∈ Role.cast := staffed.cast (List.fst_mem_of_mem_zipIdx hn)
  have agent {c : Command} (hc : c ∈ (f.moduleAt a place).commands) : c.action.agent = a := by
    obtain ⟨plain, hp, rfl⟩ := Arena.plain_of_mem hc
    rw [Command.action_inTurn]
    exact (Arena.proper_repertoire plain hp).1
  refine ⟨fun c hc => ⟨agent hc, fun u hu => Arena.owns_commands cast hc hu⟩, fun d => ⟨?_, ?_⟩⟩
  · obtain ⟨c, hc, action⟩ := Arena.exists_move f a place d
    refine ⟨c, hc, ?_⟩
    rw [action]
    exact Action.name_eq_move.mpr rfl
  · intro c hc name u hu s
    rw [show (f.moduleAt a place).agent = c.action.agent from (agent hc).symm] at name
    have moved := Arena.position_move hc (Action.name_eq_move.mp name) hu s
    exact ⟨moved, fun q hq => moved.trans (Position.step?_eq_some hq).1.symm⟩

theorem commands_own_room :
    ∃ f p m, Arena.build slipperyRoom [] { viewers := ["Agent"], dialect := .smg } [] = .ok f ∧
      f.program = .ok p ∧ m ∈ p.modules ∧
      ∃ c ∈ m.commands, ∃ u ∈ c.outcomes.updates,
        u.writes.map (·.1) = ["xAgent", "yAgent", "viewAgent", "move"] ∧ m.Owns .smg c u := by
  obtain ⟨f, hf, hs, staff, hc, roomy⟩ :
      ∃ f, Arena.build slipperyRoom [] { viewers := ["Agent"], dialect := .smg } [] = .ok f ∧
        f.settings = { viewers := ["Agent"], dialect := .smg } ∧ f.names = ["Agent"] ∧
        ⟨⟨2, 3⟩, .slippery .north, .red⟩ ∈ f.slippery .north ∧
        f.slipTiles.all (·.2.position.hasRoom) = true := ⟨_, rfl, rfl, rfl, by decide, by decide⟩
  have made := (Arena.built_program hf).mpr ⟨List.all_eq_true.mp roomy, rfl⟩
  have hm : f.moduleAt "Agent" 0 ∈ f.wholeProgram.modules := by
    rw [Arena.modules_wholeProgram, staff]
    exact List.mem_cons_self
  obtain ⟨c, listed, carried⟩ : ∃ c ∈ f.repertoire (f.actorAt "Agent" 0),
      Role.carry "Agent" .ne ++ [.turnRight "Agent"] ∈ c.outcomes.updates := by
    have views : (f.actorAt "Agent" 0).withView = true := by
      rw [Arena.actorAt, hs]
      rfl
    refine ⟨_, Arena.repertoire_split.mpr (.inr ⟨(.north, _), Arena.mem_slipTiles.mpr hc,
      Arena.slipCommands_cases.mpr (.inr ⟨⟨by rw [hs], views⟩,
        List.mem_map_of_mem List.mem_cons_self⟩)⟩), ?_⟩
    simp [Role.spinBranches, Outcomes.updates, Point.all, Arena.actorAt, Actor.ofSettings]
  obtain ⟨seat, hseat⟩ : ∃ seat, f.seatAt 0 = some seat := by
    rw [Arena.seatAt, hs]
    exact ⟨_, rfl⟩
  have played : Role.carry "Agent" .ne ++ [.turnRight "Agent"] ++ [seat.handOver] ∈
      (c.inTurn (f.seatAt 0)).outcomes.updates := by
    rw [hseat, Command.inTurn, Outcomes.updates_map]
    exact List.mem_map_of_mem carried
  have hc := Arena.mem_commands_moduleAt listed
  exact ⟨f, _, _, hf, made, hm, _, hc, _, played, rfl,
    ((commands_own hf made hm).1 _ hc).2 _ played⟩

end TileWorld
