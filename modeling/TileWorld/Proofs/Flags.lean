import TileWorld.Proofs.Enabling

/-!
# Flags

Each flag of an agent is raised by one action of that agent and by nothing else (`step_raises`),
and only while it is down (`step_down`). So a flag that is up stays up, and along a run its action
is taken as often as the flag changes, which is at most once (`run_raises`). What the actions of a
run earn for picking up is counted the same way (`earned_pickUps`).
-/

namespace TileWorld

namespace Flag

def agent : Flag → Role
  | .done a | .hasKey a _ | .pickedUp a _ => a

def deed : Flag → Deed
  | .done _ => .done
  | .hasKey _ c => .pickUpKey c
  | .pickedUp _ c => .pickUp c

def action (g : Flag) : Action := ⟨g.agent, g.deed⟩

theorem action_inj {g h : Flag} : g.action = h.action ↔ g = h := by
  constructor
  · cases g <;> cases h <;> simp [action, agent, deed]
  · exact congrArg action

end Flag

def lastState (s : State) : List (Action × State) → State
  | [] => s
  | (_, t) :: rest => lastState t rest

namespace Program

/-- The items of a reward structure that the actions of a run from `s` earn. -/
def earned (p : Program) (r : RewardStructure) (s : State) :
    List (Action × State) → List RewardItem
  | [] => []
  | (act, t) :: rest =>
    (r.items.filter fun i => i.action = some act && i.condition.eval s (p.facts s)) ++
      earned p r t rest

theorem Run.rises {p : Program} {s : State} {path : List (Action × State)} (h : p.Run s path)
    (g : Flag) : (s :: path.map (·.2)).Pairwise fun t u => t.flag g = true → u.flag g = true := by
  induction h with
  | stop s => exact List.pairwise_singleton _ s
  | next step run ih =>
    refine List.pairwise_cons.mpr ⟨fun u hu up => ?_, ih⟩
    obtain ⟨later, hl, rfl⟩ := List.mem_map.mp hu
    exact run_flag (.next step run) up later hl

end Program

-- ---------------------------------------------------------------------------
-- Commands
-- ---------------------------------------------------------------------------

def Command.Plain (c : Command) : Prop :=
  ∀ g : Flag, c.action.deed ≠ g.deed ∧ ∀ u ∈ c.outcomes.updates, .raise g ∉ u

namespace Arena

variable {f : Arena} {actor : Actor} {a : Role} {c : Command}

theorem viewTurns_raise {way : List Expr × Assignment} (h : way ∈ a.viewTurns) (g : Flag) :
    .raise g ≠ way.2 := by
  simp only [Role.viewTurns, List.mem_cons, List.not_mem_nil, or_false] at h
  rcases h with rfl | rfl | rfl <;> simp

theorem plain_turning (hc : c ∈ f.turning actor) : c.Plain := by
  intro g
  rcases mem_turning hc with ⟨-, rfl⟩ | ⟨-, ⟨way, hm, deed, hd, rfl⟩ | ⟨d, rfl⟩⟩
  · refine ⟨?_, by simp [Role.blindTurn, Outcomes.updates]⟩
    cases g <;> simp [Role.blindTurn, Flag.deed]
  · have turn := viewTurns_raise hm g
    refine ⟨fun own => ?_, by simp [Role.viewTurn, Outcomes.updates, turn]⟩
    have own : deed = g.deed := own
    rw [own] at hd
    cases g <;> simp [Flag.deed] at hd
  · refine ⟨?_, by simp [Role.stuck, Outcomes.updates]⟩
    cases g <;> simp [Role.stuck, Flag.deed]

theorem plain_moves (hc : c ∈ actor.moves) : c.Plain := by
  intro g
  have advance (d : Direction) : .raise g ≠ actor.name.advance d := by
    cases d <;> simp [Role.advance]
  have remain (d : Direction) : .raise g ≠ actor.name.remain d := by
    cases d <;> simp [Role.remain]
  obtain ⟨d, rfl | ⟨p, rfl⟩⟩ := mem_moves hc
  · refine ⟨?_, by simp [Actor.sureMove, Outcomes.updates, advance]⟩
    cases g <;> simp [Actor.sureMove, Flag.deed]
  · refine ⟨?_, ?_⟩
    · cases g <;> simp [Actor.riskyMove, Flag.deed]
    · rw [Actor.riskyMove]
      split <;> simp [Outcomes.updates, advance, remain]

theorem plain_slips {tile : Direction × Cell} (hc : c ∈ f.slipCommands actor tile) : c.Plain := by
  intro g
  have shift (columns rows : Int) : .raise g ∉ actor.name.shiftBy columns rows := by
    unfold Role.shiftBy
    split
    · simp
    · split <;> simp
  rcases mem_slipCommands hc with rfl | ⟨-, way, hm, rfl⟩
  · refine ⟨by cases g <;> simp [Role.slideCommand, Flag.deed], fun u hu => ?_⟩
    simp only [Role.slideCommand, Outcomes.updates, List.mem_map, Role.slideBranch] at hu
    obtain ⟨_, ⟨q, -, rfl⟩, rfl⟩ := hu
    dsimp only
    split
    · exact shift 0 0
    · exact shift _ _
  · refine ⟨by cases g <;> simp [Flag.deed], fun u hu => ?_⟩
    have turn := viewTurns_raise hm g
    simp only [Role.spinBranches, Outcomes.updates, List.mem_map, List.mem_append,
      List.mem_singleton] at hu
    obtain ⟨_, ⟨q, -, rfl⟩ | rfl, rfl⟩ := hu
    · simp [Role.carry, shift, turn]
    · simp [Role.stay, shift, turn]

/-- The command is for one flag, and enabled only while that flag is down. -/
structure Raises (f : Arena) (c : Command) (g : Flag) : Prop where
  declared : f.Declares (.flag g)
  action : c.action = g.action
  outcomes : c.outcomes = .certain [.raise g]
  down : ∀ s, c.guard.eval s (f.wholeProgram.facts s) = true → s.flag g = false

theorem plain_or_raises (hn : f.names.Nodup) (ha : actor.name ∈ f.names)
    (hc : c ∈ f.repertoire actor) : c.Plain ∨ ∃ g, f.Raises c g := by
  simp only [repertoire, endings, List.mem_append, List.mem_cons, List.mem_flatMap] at hc
  rcases hc with (((hc | hc) | hc) | rfl | ⟨tile, -, hc⟩)
  · exact .inl (plain_turning hc)
  · rcases mem_pickUps hc with ⟨k, hk, rfl⟩ | ⟨r, hr, rfl⟩
    · refine .inr ⟨.hasKey actor.name k.1, ⟨ha, List.mem_map_of_mem hk⟩, rfl, rfl, fun s hg => ?_⟩
      exact ((fact_canPickUpKey hn ha hk).mp hg).2
    · refine .inr ⟨.pickedUp actor.name r.1, ⟨ha, List.mem_map_of_mem hr⟩, rfl, rfl, fun s hg => ?_⟩
      exact ((eval_pickUp hn ha hr).mp hg).2
  · exact .inl (plain_moves hc)
  · exact .inr ⟨.done actor.name, ha, rfl, rfl, fun s hg => ((eval_finish hn ha).mp hg).1⟩
  · exact .inl (plain_slips hc)

-- ---------------------------------------------------------------------------
-- Steps
-- ---------------------------------------------------------------------------

variable {s t : State} {act : Action} {g : Flag}

theorem step_raises (hn : f.names.Nodup) (h : f.wholeProgram.Step s act t) :
    t.flag g = true ↔ s.flag g = true ∨ act = g.action := by
  obtain ⟨c, w, fires, rfl⟩ := step_fires h
  obtain ⟨ha, place, hc⟩ := fires.listed
  rw [fires.flags]
  refine or_congr_right ?_
  rcases plain_or_raises hn ha hc with plain | ⟨g', raises⟩
  · have kept := (plain g).2 w (c.outcomes.possible_subset fires.possible)
    exact iff_of_false kept fun own => (plain g).1 (congrArg Action.deed own)
  · have possible := fires.possible
    rw [raises.outcomes] at possible
    rw [List.mem_singleton.mp possible, raises.action, Flag.action_inj, List.mem_singleton,
      Assignment.raise.injEq, eq_comm]

theorem step_down (hn : f.names.Nodup) (h : f.wholeProgram.Step s g.action t) :
    f.Declares (.flag g) ∧ s.flag g = false := by
  obtain ⟨c, w, fires, own⟩ := step_fires h
  obtain ⟨ha, place, hc⟩ := fires.listed
  rcases plain_or_raises hn ha hc with plain | ⟨g', raises⟩
  · exact absurd (congrArg Action.deed own) (plain g).1
  · obtain rfl := Flag.action_inj.mp (raises.action.symm.trans own)
    exact ⟨raises.declared, raises.down s fires.enabled⟩

theorem flag_of_other (hf : f.Staffed) {m : Module} (hm : m ∈ f.wholeProgram.modules)
    (other : m.agent ≠ g.agent) (hc : c ∈ m.commands) {u : Update} (hu : u ∈ c.outcomes.updates) :
    (u.apply s).flag g = s.flag g := by
  rw [modules_wholeProgram] at hm
  obtain ⟨⟨a, place⟩, ha, rfl⟩ := List.mem_map.mp hm
  have ha : a ∈ f.names := List.mem_of_getElem? (List.mk_mem_zipIdx_iff_getElem?.mp ha)
  obtain ⟨plain, hp, rfl⟩ := plain_of_mem hc
  have kept : .raise g ∉ u := by
    -- The turn is no flag, so what is raised is what the command raises without turns.
    have turnless : ∃ w ∈ plain.outcomes.updates, .raise g ∈ u ↔ .raise g ∈ w := by
      cases hs : f.seatAt place with
      | none => exact ⟨u, by rwa [hs] at hu, Iff.rfl⟩
      | some seat =>
        rw [hs, Command.inTurn, Outcomes.updates_map] at hu
        obtain ⟨w, hw, rfl⟩ := List.mem_map.mp hu
        exact ⟨w, hw, by simp [Seat.handOver]⟩
    obtain ⟨w, hw, raised⟩ := turnless
    rw [raised]
    rcases plain_or_raises hf.nodup ha hp with still | ⟨g', raises⟩
    · exact (still g).2 w hw
    · rw [raises.outcomes] at hw
      rw [List.mem_singleton.mp hw, List.mem_singleton, Assignment.raise.injEq]
      rintro rfl
      have owner : plain.action.agent = a := (proper_repertoire plain hp).1
      rw [raises.action] at owner
      exact other owner.symm
  rw [Bool.eq_iff_iff, Update.flag_apply]
  exact or_iff_left kept

-- ---------------------------------------------------------------------------
-- Runs
-- ---------------------------------------------------------------------------

variable {path : List (Action × State)}

/-- Along a run the action of a flag is taken as often as the flag goes up. -/
theorem run_raises (hn : f.names.Nodup) (h : f.wholeProgram.Run s path) (g : Flag) :
    path.countP (·.1 = g.action) + (s.flag g).toNat = ((lastState s path).flag g).toNat := by
  induction h with
  | stop s => exact Nat.zero_add _
  | @next s t act rest step run ih =>
    rw [List.countP_cons, lastState, ← ih]
    by_cases own : act = g.action
    · subst own
      have up : t.flag g = true := (step_raises hn step).mpr (.inr rfl)
      simp [(step_down hn step).2, up]
    · have same : t.flag g = s.flag g := by
        rw [Bool.eq_iff_iff, step_raises hn step]
        exact or_iff_left own
      simp [own, same]

theorem run_once (hn : f.names.Nodup) (h : f.wholeProgram.Run s path) (g : Flag) :
    path.countP (·.1 = g.action) ≤ 1 := by
  have count := run_raises hn h g
  have final := Bool.toNat_le ((lastState s path).flag g)
  omega

-- ---------------------------------------------------------------------------
-- Rewards for picking up
-- ---------------------------------------------------------------------------

variable {color : Color} {r : RewardStructure}

theorem taxi_items (hr : r ∈ f.rewardStructures a) (taxi : r.objective = .taxi) :
    r.items = stepItem a :: (f.pickUpItems a ++ f.deliveryItems a) := by
  rw [(mem_rewardStructures.mp hr).2.2, taxi]
  rfl

theorem pickUp_items (hr : r ∈ f.rewardStructures a) (taxi : r.objective = .taxi)
    (known : Facts) (hc : color ∈ f.regions.map (·.1)) :
    r.items.countP (fun i => i.action = some ⟨a, .pickUp color⟩ && i.condition.eval s known) =
      1 := by
  have delivery : ∀ i ∈ f.deliveryItems a, i.action = none := by
    simp only [deliveryItems]
    split <;> simp [stateReward]
  have none : (f.deliveryItems a).countP
      (fun i => i.action = some ⟨a, .pickUp color⟩ && i.condition.eval s known) = 0 := by
    refine List.countP_eq_zero.mpr fun i hi => ?_
    simp [delivery i hi]
  have single : (f.regions.map (·.1)).count color = 1 :=
    List.count_eq_one_of_mem (regions_nodup fun _ _ => id) hc
  rw [taxi_items hr taxi, List.countP_cons, List.countP_append, none, pickUpItems, List.countP_map]
  rw [List.count, List.countP_map] at single
  simpa [stepItem, stateReward, Function.comp_def, Expr.eval, beq_eq_decide] using single

theorem earned_pickUps (hn : f.names.Nodup) (hr : r ∈ f.rewardStructures a)
    (taxi : r.objective = .taxi) (h : f.wholeProgram.Run s path) (color : Color) :
    (f.wholeProgram.earned r s path).countP (·.action = some ⟨a, .pickUp color⟩) =
      path.countP (·.1 = ⟨a, .pickUp color⟩) := by
  induction h with
  | stop s => rfl
  | @next s t act rest step run ih =>
    rw [Program.earned, List.countP_append, ih, List.countP_cons, List.countP_filter, Nat.add_comm]
    refine congrArg _ ?_
    by_cases own : act = ⟨a, .pickUp color⟩
    · subst own
      have declared : f.Declares (.flag (.pickedUp a color)) := (step_down hn step).1
      simpa [← Bool.and_assoc] using pickUp_items hr taxi (f.wholeProgram.facts s) declared.2
    · rw [if_neg (by simpa using own)]
      refine List.countP_eq_zero.mpr fun i _ => ?_
      simp only [Bool.and_eq_true, decide_eq_true_eq, not_and]
      intro hi ha
      exact absurd (Option.some.inj (ha.symm.trans hi)) own

end Arena

/-- A flag of a program goes up once, by an action of its agent, and stays up. -/
structure Program.RaisesOnce (p : Program) (g : Flag) : Prop where
  stays : ∀ s path, p.Run s path →
    (s :: path.map (·.2)).Pairwise fun t u => t.flag g = true → u.flag g = true
  /-- No command of another agent changes it. -/
  own : ∀ m ∈ p.modules, m.agent ≠ g.agent → ∀ c ∈ m.commands, ∀ u ∈ c.outcomes.updates,
    ∀ s, (u.apply s).flag g = s.flag g
  /-- The action is taken exactly when the flag goes up. -/
  counted : ∀ s path, p.Run s path →
    path.countP (·.1 = g.action) + (s.flag g).toNat = ((lastState s path).flag g).toNat
  once : ∀ s path, p.Run s path → path.countP (·.1 = g.action) ≤ 1

/-- Every flag goes up once, so picking up in a region is rewarded once. -/
theorem flags_raised_once {cells background : List Cell} {settings : Settings}
    {rewards : StateRewards} {f : Arena} {p : Program}
    (hb : Arena.build cells background settings rewards = .ok f) (hp : f.program = .ok p) :
    (∀ g, p.RaisesOnce g) ∧
      ∀ r ∈ p.rewardStructures, r.objective = .taxi → ∀ color s path, p.Run s path →
        (p.earned r s path).countP (·.action = some ⟨r.agent, .pickUp color⟩) =
            path.countP (·.1 = ⟨r.agent, .pickUp color⟩) ∧
          (p.earned r s path).countP (·.action = some ⟨r.agent, .pickUp color⟩) ≤ 1 := by
  have hf := Arena.staffed_build hb
  obtain ⟨-, rfl⟩ := (Arena.built_program hb).mp hp
  refine ⟨fun g => ⟨fun s path run => run.rises g, ?_, ?_, ?_⟩, ?_⟩
  · exact fun m hm other c hc u hu s => Arena.flag_of_other hf hm other hc hu
  · exact fun s path run => Arena.run_raises hf.nodup run g
  · exact fun s path run => Arena.run_once hf.nodup run g
  · intro r hr taxi color s path run
    rw [Arena.rewardStructures_wholeProgram] at hr
    obtain ⟨a, -, hr⟩ := List.mem_flatMap.mp hr
    rw [(Arena.rewardStructures_items hr).1]
    have same := Arena.earned_pickUps hf.nodup hr taxi run color
    exact ⟨same, same.le.trans (Arena.run_once hf.nodup run (.pickedUp a color))⟩

def taxiRoom : List Cell :=
  (Position.rectangle 3 4).map fun p =>
    ⟨p, if p = ⟨2, 2⟩ then .agent else if p = ⟨2, 3⟩ then .key else .wall, .red⟩

def taxiGround : List Cell := [⟨⟨2, 2⟩, .floor, .red⟩]

def taxiStart : State where
  counter _ := 2
  flag _ := false

theorem flags_raised_once_room :
    ∃ f p r path, Arena.build taxiRoom taxiGround {} [] = .ok f ∧ f.program = .ok p ∧
      r ∈ p.rewardStructures ∧ r.objective = .taxi ∧ p.Run taxiStart path ∧
      path.map (·.1) = [⟨"Agent", .pickUp .red⟩, ⟨"Agent", .pickUpKey .red⟩] ∧
      (lastState taxiStart path).flag (.hasKey "Agent" .red) = true ∧
      (p.earned r taxiStart path).countP (·.action = some ⟨"Agent", .pickUp .red⟩) = 1 := by
  obtain ⟨f, hb, settings, names, keys, regions, dry⟩ :
      ∃ f, Arena.build taxiRoom taxiGround {} [] = .ok f ∧ f.settings = {} ∧
        f.names = ["Agent"] ∧ f.keyGroups = [(.red, [⟨⟨2, 3⟩, .key, .red⟩])] ∧
        f.regions = [(.red, taxiGround)] ∧ ∀ o, f.slippery o = [] :=
    ⟨_, rfl, rfl, rfl, rfl, rfl, fun o => by cases o <;> rfl⟩
  have hp : f.program = .ok f.wholeProgram :=
    (Arena.built_program hb).mpr ⟨Arena.roomy_of_dry dry, rfl⟩
  have hn : f.names.Nodup := by simp [names]
  have ha : "Agent" ∈ f.names := by simp [names]
  have hr : (.red, taxiGround) ∈ f.regions := by simp [regions]
  have hk : (.red, [⟨⟨2, 3⟩, .key, .red⟩]) ∈ f.keyGroups := by simp [keys]
  have listed {c : Command} (hc : c ∈ f.pickUps "Agent") :
      c ∈ f.repertoire (f.actorAt "Agent" 0) := by
    simp only [Arena.repertoire, List.mem_append]
    exact .inl (.inl (.inr hc))
  have first := Arena.step_of_command (s := taxiStart) (by rw [settings]) (by rw [names]; rfl)
    (listed (List.mem_append_right _ (List.mem_map_of_mem hr)))
    ((Arena.eval_pickUp hn ha hr).mpr ⟨by decide, rfl⟩) (List.mem_singleton_self _)
  have second := Arena.step_of_command
    (s := Update.apply [.raise (.pickedUp "Agent" .red)] taxiStart)
    (by rw [settings]) (by rw [names]; rfl)
    (listed (List.mem_append_left _ (List.mem_map_of_mem hk)))
    ((Arena.fact_canPickUpKey hn ha hk).mpr
      ⟨⟨_, List.mem_singleton_self _, .east, by decide, by simp [settings, Settings.orients]⟩, rfl⟩)
    (List.mem_singleton_self _)
  have run := Program.Run.next first (.next second (.stop _))
  have hm : ⟨"Agent", .taxi, Arena.stepItem "Agent" ::
      (f.pickUpItems "Agent" ++ f.deliveryItems "Agent")⟩ ∈ f.wholeProgram.rewardStructures := by
    rw [Arena.rewardStructures_wholeProgram, names]
    simp [Arena.rewardStructures, regions]
  have reward := ((flags_raised_once hb hp).2 _ hm rfl .red _ _ run).1
  exact ⟨f, _, _, _, hb, hp, hm, rfl, run, rfl, rfl, reward.trans rfl⟩

end TileWorld
