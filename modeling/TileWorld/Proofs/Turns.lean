import TileWorld.Proofs.Guards

/-!
# Turns

A game is the decision process for the same text with turns added. Each command waits for the
turn of its agent and hands it on, and is otherwise as it was (`Module.Decorates`). Along a run
the agents act one after the other in the order of their names, and the lead begins
(`compile_roundRobin`).
-/

namespace TileWorld

-- ---------------------------------------------------------------------------
-- The text of a turn
-- ---------------------------------------------------------------------------

/-- The text of an update that also hands the turn to the next place. -/
def handedOn (next : Nat) (text : String) : String :=
  let handOver := "(move'=" ++ next.repr ++ ")"
  if text = "true" then handOver else text ++ " & " ++ handOver

def Seat.played (seat : Option Seat) (u : Update) : String :=
  if u = [] then Seat.idleText seat else u.render ++ Seat.updateText seat

inductive Outcomes.HandedOn (next : Nat) : Outcomes → Outcomes → Prop
  | certain {u v : Update} (text : v.render = handedOn next u.render) :
      HandedOn next (.certain u) (.certain v)
  | ninths {branches branches' : List (Nat × Update)}
      (each : List.Forall₂ (fun b b' => b'.1 = b.1 ∧ b'.2.render = handedOn next b.2.render)
        branches branches') :
      HandedOn next (.ninths branches) (.ninths branches')
  | chance {p : Float} {hit miss hit' miss' : Update}
      (hits : hit'.render = handedOn next hit.render)
      (misses : miss'.render = handedOn next miss.render) :
      HandedOn next (.chance p hit miss) (.chance p hit' miss')

/-- The same command, except that it waits for the turn and hands it on. Before, it did not
mention turns. -/
structure Command.Decorates (place next : Nat) (plain played : Command) : Prop where
  action : played.action = plain.action
  guard : played.guard.render = "move=" ++ place.repr ++ " & " ++ plain.guard.render
  outcomes : plain.outcomes.HandedOn next played.outcomes
  fresh : ∀ text ∈ plain.guard.render :: plain.outcomes.updates.map Update.render,
    "move" ∉ Text.identifiers text.toList

structure Module.Decorates (place next : Nat) (plain played : Module) : Prop where
  agent : played.agent = plain.agent
  locals : played.locals = plain.locals
  standing : List.Forall₂ (Command.Decorates place next) plain.standing played.standing
  moving : List.Forall₂ (Command.Decorates place next) plain.moving played.moving
  ending : List.Forall₂ (Command.Decorates place next) plain.ending played.ending

namespace Update

theorem render_cons (x y : Assignment) (u : Update) :
    Update.render (x :: y :: u) = x.render ++ " & " ++ Update.render (y :: u) :=
  String.toList_inj.mp (by simp [Update.render])

theorem render_concat {u : Update} (hu : u ≠ []) (x : Assignment) :
    Update.render (u ++ [x]) = u.render ++ " & " ++ x.render := by
  induction u with
  | nil => exact absurd rfl hu
  | cons y u ih =>
    cases u with
    | nil => exact render_cons y x []
    | cons z u =>
      have rest := ih (List.cons_ne_nil z u)
      rw [List.cons_append, List.cons_append, render_cons, render_cons, ← List.cons_append, rest]
      simp only [String.append_assoc]

theorem render_ne_true {u : Update} (hu : u ≠ []) : u.render ≠ "true" := by
  have opening (x : Assignment) : ∃ rest, x.render.toList = '(' :: rest := by
    cases x <;> exact ⟨_, by simp [Assignment.render]; rfl⟩
  obtain ⟨x, u, rfl⟩ := List.exists_cons_of_ne_nil hu
  obtain ⟨rest, hx⟩ := opening x
  intro h
  have texts := congrArg String.toList h
  cases u with
  | nil => simp [Update.render, hx] at texts
  | cons y u => simp [render_cons, hx] at texts

theorem render_played (u : Update) (seat : Option Seat) :
    Update.render (u ++ (seat.map Seat.handOver).toList) = Seat.played seat u := by
  by_cases hu : u = []
  · subst hu
    cases seat <;> rfl
  · rw [Seat.played, if_neg hu]
    cases seat with
    | none =>
      rw [Option.map_none, Option.toList_none, List.append_nil]
      exact String.append_empty.symm
    | some s =>
      rw [Option.map_some, Option.toList_some, render_concat hu, String.append_assoc]
      rfl

theorem render_handOver (u : Update) (seat : Seat) :
    Update.render (u ++ [seat.handOver]) = handedOn seat.next u.render := by
  refine (u.render_played (some seat)).trans ?_
  by_cases hu : u = []
  · subst hu
    rfl
  · rw [Seat.played, if_neg hu, handedOn, if_neg (render_ne_true hu), String.append_assoc]
    rfl

end Update

/-- Played from a seat, a command starts its guard and ends its updates with the texts of the
seat, and passing has a text of its own. -/
theorem Command.texts_inTurn (c : Command) (seat : Option Seat) :
    (c.inTurn seat).guard.render = Seat.guardText seat ++ c.guard.render ∧
      (c.inTurn seat).outcomes.updates.map Update.render =
        c.outcomes.updates.map (Seat.played seat) := by
  have texts := List.map_congr_left fun u (_ : u ∈ c.outcomes.updates) => u.render_played seat
  cases seat with
  | none =>
    refine ⟨String.empty_append.symm, ?_⟩
    rw [← texts]
    simp [Command.inTurn]
  | some s =>
    refine ⟨rfl, ?_⟩
    rw [← texts, Command.inTurn, Outcomes.updates_map, List.map_map]
    rfl

theorem Expr.render_allOf_concat {es : List Expr} (h : es ≠ []) (e : Expr) :
    (Expr.allOf (es ++ [e])).render = (Expr.allOf es).render ++ " & " ++ e.render := by
  induction es with
  | nil => exact absurd rfl h
  | cons e' es ih =>
    cases es with
    | nil => rfl
    | cons e'' es =>
      have rest := ih (List.cons_ne_nil e'' es)
      have step (es : List Expr) : (Expr.allOf (e' :: e'' :: es)).render =
          e'.render ++ " & " ++ (Expr.allOf (e'' :: es)).render := rfl
      rw [List.cons_append, List.cons_append, step, step, ← List.cons_append, rest]
      simp only [String.append_assoc]

theorem Outcomes.handedOn_map (o : Outcomes) (seat : Seat) :
    o.HandedOn seat.next (o.map (· ++ [seat.handOver])) := by
  cases o with
  | certain u => exact .certain (u.render_handOver seat)
  | ninths branches =>
    refine .ninths (List.forall₂_map_right_iff.mpr (List.forall₂_same.mpr fun b _ => ?_))
    exact ⟨rfl, b.2.render_handOver seat⟩
  | chance p hit miss => exact .chance (hit.render_handOver seat) (miss.render_handOver seat)

theorem Command.decorates_inTurn {c : Command} {a : Role} (ha : a ∈ Role.cast)
    (own : ∀ s ∈ c.symbols, s.agent? = some a) (seat : Seat) :
    c.Decorates seat.place seat.next (c.inTurn (some seat)) := by
  refine ⟨rfl, (c.texts_inTurn seat).1, c.outcomes.handedOn_map seat, fun text ht hm => ?_⟩
  have inCast : ∀ s ∈ c.symbols, s.InCast := by
    intro s hs b hb
    cases (own s hs).symm.trans hb
    exact ha
  -- A symbol called like the turn would be the turn, which belongs to nobody.
  have named : "move" ∈ c.symbols.map Symbol.name := by
    rw [← identifiers_command fun s hs => Symbol.spelled (inCast s hs)]
    exact List.mem_flatMap.mpr ⟨text, ht, hm⟩
  obtain ⟨s, hs, name⟩ := List.mem_map.mp named
  have turn : s = .counter .turn := Symbol.name_inj (inCast s hs) (fun _ h => by cases h) name
  have owner := own s hs
  rw [turn] at owner
  cases owner

-- ---------------------------------------------------------------------------
-- Round-robin games
-- ---------------------------------------------------------------------------

namespace Program

def turnVariables (p : Program) : List Nat :=
  p.filterMap fun | .turnVariable last => some last | _ => none

theorem turnVariables_append {p q : Program} :
    turnVariables (p ++ q) = turnVariables p ++ turnVariables q :=
  List.filterMap_append

theorem turnVariables_flatMap {α : Type} (l : List α) (g : α → Program) :
    turnVariables (l.flatMap g) = l.flatMap fun x => turnVariables (g x) :=
  List.filterMap_flatMap

end Program

/-- A game that adds turns to a decision process: `mdp` and `game` are programs for the agents
`names`, and in `game` they act one after the other. -/
structure RoundRobin (names : List Role) (mdp game : Program) : Prop where
  sorted : names.Pairwise (· < ·)
  first : names.head? = some Role.lead
  modules : mdp.modules.map (·.agent) = names ∧ game.modules.map (·.agent) = names
  decorated : ∀ (place : Nat) (plain played : Module), mdp.modules[place]? = some plain →
    game.modules[place]? = some played →
    plain.Decorates place ((place + 1) % names.length) played
  guards : ∀ c ∈ mdp.commands ++ game.commands, Text.hasBareOr 0 c.guard.render.toList = false
  owners : ∀ m ∈ game.modules, ∀ c ∈ m.commands, c.action.agent = m.agent
  waits : ∀ (place : Nat) (m : Module), game.modules[place]? = some m → ∀ c ∈ m.commands, ∀ s,
    game.Enabled s c → s.counter .turn = place
  range : mdp.turnVariables = [] ∧ game.turnVariables = [names.length - 1]
  initial : ∃ plain played, mdp.constraints = [plain] ∧ game.constraints = [played] ∧
    played.render = plain.render ++ " & move=0" ∧ Text.hasBareOr 0 played.render.toList = false
  starts : ∀ s, game.Initial s → s.counter .turn = 0
  rotates : ∀ s path, game.Initial s → game.Run s path → ∀ (k : Nat) act t,
    path[k]? = some (act, t) →
    names[k % names.length]? = some act.agent ∧ t.counter .turn = ((k + 1) % names.length : Nat)

namespace Arena

variable {f : Arena} {a : Role} {place : Nat}

-- ---------------------------------------------------------------------------
-- Both programs of a field
-- ---------------------------------------------------------------------------

def withDialect (f : Arena) (d : Dialect) : Arena :=
  { f with settings := { f.settings with dialect := d } }

theorem build_withDialect {cells background : List Cell} {settings : Settings}
    {rewards : StateRewards} {d : Dialect}
    (h : build cells background { settings with dialect := d } rewards = .ok f) (e : Dialect) :
    build cells background { settings with dialect := e } rewards = .ok (f.withDialect e) := by
  obtain ⟨hc, ha⟩ := build_eq_ok.mp h
  obtain ⟨last, board, agent, agents, hl, hb, hg, hs, hstep, rfl⟩ := arrange_eq_ok.mp ha
  refine build_eq_ok.mpr ⟨hc, arrange_eq_ok.mpr ?_⟩
  exact ⟨last, board, agent, agents, hl, hb, hg, hs, hstep, rfl⟩

theorem seatAt_smg (hd : f.settings.dialect = .smg) (place : Nat) :
    f.seatAt place = some ⟨place, (place + 1) % f.names.length⟩ := by
  simp [seatAt, hd, Dialect.hasTurns, names]

theorem decorates_moduleAt (hd : f.settings.dialect = .smg) (ha : a ∈ Role.cast) (place : Nat) :
    ((f.withDialect .mdp).moduleAt a place).Decorates place ((place + 1) % f.names.length)
      (f.moduleAt a place) := by
  let seat : Seat := ⟨place, (place + 1) % f.names.length⟩
  have played : f.moduleAt a place = f.moduleOf (f.actorAt a place) (some seat) := by
    rw [moduleAt, seatAt_smg hd]
  have each {l : List Command} (hl : l ⊆ f.repertoire (f.actorAt a place)) :
      List.Forall₂ (Command.Decorates place seat.next) (l.map (·.inTurn none))
        (l.map (·.inTurn (some seat))) := by
    rw [List.forall₂_map_left_iff, List.forall₂_map_right_iff, List.forall₂_same]
    intro c hc
    exact Command.decorates_inTurn ha (fun s hs => repertoire_own rfl (hl hc) hs) seat
  rw [played]
  refine ⟨rfl, rfl, each ?_, each ?_, each ?_⟩
  · exact List.Subset.trans (List.subset_append_left _ _) (List.subset_append_left _ _)
  · exact List.Subset.trans (List.subset_append_right _ _) (List.subset_append_left _ _)
  · exact List.subset_append_right _ _

theorem modules_getElem? {m : Module} (h : f.wholeProgram.modules[place]? = some m) :
    ∃ a, f.names[place]? = some a ∧ m = f.moduleAt a place := by
  rw [module_at] at h
  obtain ⟨a, ha, rfl⟩ := Option.map_eq_some_iff.mp h
  exact ⟨a, ha, rfl⟩

theorem turnVariables_wholeProgram : f.wholeProgram.turnVariables =
    if f.settings.dialect.hasTurns then [f.names.length - 1] else [] := by
  have header : Program.turnVariables f.header =
      if f.settings.dialect.hasTurns then [f.names.length - 1] else [] := by
    unfold header
    split <;> simp [Program.turnVariables, names]
  have definitions : Program.turnVariables f.definitions = [] := by
    refine List.filterMap_eq_nil_iff.mpr fun b hb => ?_
    have definition := List.all_eq_true.mp f.definitions_all b hb
    cases b with
    | turnVariable => cases definition
    | _ => rfl
  have blocks (a : Role) (place : Nat) : Program.turnVariables (f.blocksAt a place) = [] := by
    unfold blocksAt
    split <;> simp [Program.turnVariables, rewardBlocks]
  have initial : Program.turnVariables f.initialBlocks = [] := rfl
  rw [wholeProgram, preamble_eq, Program.turnVariables_append, Program.turnVariables_append,
    Program.turnVariables_append, header, definitions, initial, Program.turnVariables_flatMap]
  simp only [blocks, flatMap_nothing, List.append_nil]

-- ---------------------------------------------------------------------------
-- Runs of a game
-- ---------------------------------------------------------------------------

theorem initial_turn (hd : f.settings.dialect = .smg) {s : State} (h : f.wholeProgram.Initial s) :
    s.counter .turn = 0 := by
  rw [Program.Initial, constraints_wholeProgram, hd] at h
  have all := h _ (List.mem_singleton_self _)
  rw [Expr.eval_allOf, List.all_append, Bool.and_eq_true] at all
  simpa [Dialect.hasTurns, Expr.isValue, Expr.eval, Term.ofCounter, Term.eval] using all.2

theorem enabled_turn (hd : f.settings.dialect = .smg) {c : Command} {s : State}
    (hc : c ∈ (f.moduleAt a place).commands) (h : f.wholeProgram.Enabled s c) :
    s.counter .turn = place := by
  rw [moduleAt, commands_moduleOf, seatAt_smg hd] at hc
  obtain ⟨plain, -, rfl⟩ := List.mem_map.mp hc
  exact (Command.eval_inTurn.mp h).1 _ rfl

theorem step_turn (hd : f.settings.dialect = .smg) {s t : State} {act : Action}
    (h : f.wholeProgram.Step s act t) :
    ∃ place : Nat, f.names[place]? = some act.agent ∧ s.counter .turn = place ∧
      t.counter .turn = ((place + 1) % f.names.length : Nat) := by
  cases h with
  | fire c u listed enabled possible =>
    obtain ⟨a, place, hn, plain, hp, rfl⟩ := mem_commands.mp listed
    rw [seatAt_smg hd] at enabled possible
    have turn := (Command.eval_inTurn.mp enabled).1 _ rfl
    obtain ⟨-, -, -, next⟩ := Command.possible_inTurn (s := s) possible
    refine ⟨place, ?_, turn, next _ rfl⟩
    rw [Command.action_inTurn, (proper_repertoire plain hp).1]
    exact hn

/-- From the turn of the agent at `k`, counted round and round, the agents act in order. -/
theorem run_turns (hd : f.settings.dialect = .smg) {s : State} {path : List (Action × State)}
    (h : f.wholeProgram.Run s path) {k : Nat} (hk : s.counter .turn = (k % f.names.length : Nat))
    {i : Nat} {act : Action} {t : State} (hi : path[i]? = some (act, t)) :
    f.names[(k + i) % f.names.length]? = some act.agent ∧
      t.counter .turn = ((k + i + 1) % f.names.length : Nat) := by
  induction h generalizing k i with
  | stop => cases hi
  | next step _ ih =>
    obtain ⟨place, hn, turn, next⟩ := step_turn hd step
    have here : place = k % f.names.length := Int.ofNat_inj.mp (turn.symm.trans hk)
    rw [here, Nat.mod_add_mod] at next
    cases i with
    | zero =>
      cases hi
      exact ⟨here ▸ hn, next⟩
    | succ i =>
      have rest := ih next hi
      rwa [Nat.add_right_comm k 1 i, Nat.add_assoc k i 1] at rest

-- ---------------------------------------------------------------------------
-- Main result
-- ---------------------------------------------------------------------------

theorem initial_decorated (hd : f.settings.dialect = .smg) (hf : f.Staffed) :
    ∃ plain played, (f.withDialect .mdp).wholeProgram.constraints = [plain] ∧
      f.wholeProgram.constraints = [played] ∧ played.render = plain.render ++ " & move=0" ∧
      Text.hasBareOr 0 played.render.toList = false := by
  let starts := f.agents.map fun agent => f.startOf agent.1
  have agents : starts ≠ [] := by
    have lead := List.ne_nil_of_mem hf.lead
    simpa [starts, names] using lead
  have plain : (f.withDialect .mdp).wholeProgram.constraints = [Expr.allOf starts] := by
    rw [constraints_wholeProgram, ← List.append_nil starts]
    rfl
  have played : f.wholeProgram.constraints = [Expr.allOf (starts ++ [.isValue .turn 0])] := by
    rw [constraints_wholeProgram, hd]
    rfl
  refine ⟨_, _, plain, played, ?_, ?_⟩
  · rw [Expr.render_allOf_concat agents, String.append_assoc]
    rfl
  · exact hasBareOr_constraint hf (played ▸ List.mem_singleton_self _)

theorem roundRobin_wholeProgram (hd : f.settings.dialect = .smg) (hf : f.Staffed)
    (sorted : f.names.Pairwise (· < ·)) (first : f.names.head? = some Role.lead) :
    RoundRobin f.names (f.withDialect .mdp).wholeProgram f.wholeProgram where
  sorted := sorted
  first := first
  modules := ⟨modules_agents, modules_agents⟩
  decorated := by
    intro place plain played hplain hplayed
    obtain ⟨a, ha, rfl⟩ := modules_getElem? hplain
    obtain ⟨b, hb, rfl⟩ := modules_getElem? hplayed
    cases ha.symm.trans hb
    exact decorates_moduleAt hd (hf.cast (List.mem_of_getElem? hb)) place
  guards := by
    intro c hc
    rcases List.mem_append.mp hc with hc | hc
    · exact hasBareOr_guard (f := f.withDialect .mdp) ⟨hf.nodup, hf.cast, hf.lead⟩ hc
    · exact hasBareOr_guard hf hc
  owners := by
    intro m hm c hc
    obtain ⟨place, hm⟩ := List.getElem?_of_mem hm
    obtain ⟨a, -, rfl⟩ := modules_getElem? hm
    obtain ⟨plain, hp, rfl⟩ := plain_of_mem hc
    rw [Command.action_inTurn]
    exact (proper_repertoire plain hp).1
  waits := by
    intro place m hm c hc s enabled
    obtain ⟨a, -, rfl⟩ := modules_getElem? hm
    exact enabled_turn hd hc enabled
  range := by
    constructor
    · exact turnVariables_wholeProgram
    · rw [turnVariables_wholeProgram, hd]
      rfl
  initial := initial_decorated hd hf
  starts := fun _ => initial_turn hd
  rotates := by
    intro s path hs hr k act t hk
    have zero : s.counter .turn = (0 % f.names.length : Nat) := by simpa using initial_turn hd hs
    simpa using run_turns hd hr zero hk

end Arena

/-- The game of a text is the decision process of the text played in turns. -/
theorem compile_roundRobin (text : String) (settings : Settings) {mdp game : Program}
    (hm : compile text { settings with dialect := .mdp } = .ok mdp)
    (hg : compile text { settings with dialect := .smg } = .ok game) :
    ∃ f, readArena text { settings with dialect := .smg } = .ok f ∧
      RoundRobin f.names mdp game := by
  obtain ⟨sheet, f, hr, hb, -, rfl⟩ := compile_eq_ok.mp hg
  obtain ⟨sheet', f', hr', hb', -, rfl⟩ := compile_eq_ok.mp hm
  cases hr.symm.trans hr'
  cases (Arena.build_withDialect hb .mdp).symm.trans hb'
  obtain ⟨hd, -, -, -, hs⟩ := Arena.build_fields hb
  obtain ⟨others, ha⟩ := Arena.enlistAll_head hs
  refine ⟨f, readArena_eq_ok.mpr ⟨sheet, hr, hb⟩, ?_⟩
  refine Arena.roundRobin_wholeProgram (by rw [hd]) (Arena.staffed_build hb) ?_ ?_
  · exact List.pairwise_map.mpr (Arena.enlistAll_ok hs).1
  · rw [Arena.names, ha]
    rfl

def crowdedRoom : String := "WRWRWRWRWR\nWRXGnRZRWR\nWRZB RGGWR\nWRWRWRWRWR\n"

theorem compile_roundRobin_room :
    ∃ mdp game, compile crowdedRoom { viewers := ["Agent"], oneWays := true } = .ok mdp ∧
      compile crowdedRoom { viewers := ["Agent"], oneWays := true, dialect := .smg } = .ok game ∧
      RoundRobin ["Agent", "Blue", "Red"] mdp game := by
  obtain ⟨mdp, hm⟩ : ∃ p, compile crowdedRoom { viewers := ["Agent"], oneWays := true } = .ok p :=
    ⟨_, compile_of_roomy rfl (by decide)⟩
  obtain ⟨game, hg⟩ : ∃ p, compile crowdedRoom
      { viewers := ["Agent"], oneWays := true, dialect := .smg } = .ok p :=
    ⟨_, compile_of_roomy rfl (by decide)⟩
  obtain ⟨g, hr, names⟩ : ∃ g, readArena crowdedRoom
      { viewers := ["Agent"], oneWays := true, dialect := .smg } = .ok g ∧
      g.names = ["Agent", "Blue", "Red"] := ⟨_, rfl, rfl⟩
  obtain ⟨f, hf, h⟩ :=
    compile_roundRobin crowdedRoom { viewers := ["Agent"], oneWays := true } hm hg
  cases hf.symm.trans hr
  exact ⟨mdp, game, hm, hg, names ▸ h⟩

end TileWorld
