import TileWorld.Proofs.Likeness
import TileWorld.Proofs.ProgramParts

/-!
# Names in the settings

Settings name agents in lists. What they say about agents that a field does not show has no part
in its program (`Agreeing.compile_eq`), and neither has the order in which they name the others
(`Relisted.agreeing`). But a list of the adversaries that take part is not the same as no list,
even if nobody on it is there.
-/

namespace TileWorld

-- ---------------------------------------------------------------------------
-- Settings that agree
-- ---------------------------------------------------------------------------

structure Agreeing (cells : List Cell) (s s' : Settings) : Prop where
  oneWays : s.oneWays = s'.oneWays
  dialect : s.dialect = s'.dialect
  includes : ∀ c ∈ cells, c.tile = .adversary →
    s.includes c.color.title = s'.includes c.color.title
  lead : s.SameFor s' Role.lead
  rivals : ∀ c ∈ Arena.rivals s cells, s.SameFor s' c.color.title

variable {cells background : List Cell} {s s' : Settings} {rewards : StateRewards}

theorem Agreeing.enlistAll (h : Agreeing cells s s') (agent : Cell) :
    Matching
      (fun l l' => l.map (·.1) = l'.map (·.1) ∧ ∀ a ∈ l.map (·.1), s.SameFor s' a)
      (Arena.enlistAll s agent (cells.filter (·.tile = .adversary)))
      (Arena.enlistAll s' agent (cells.filter (·.tile = .adversary))) := by
  have same : Arena.rivals s cells = Arena.rivals s' cells := by
    refine List.filter_congr fun c hc => ?_
    by_cases rival : c.tile = .adversary
    · rw [h.includes c hc rival]
    · simp [rival]
  have listed : Arena.enlistAll s' agent (cells.filter (·.tile = .adversary)) =
      Arena.enlistAll s agent (cells.filter (·.tile = .adversary)) := by
    rw [Arena.enlistAll_eq, Arena.enlistAll_eq, same]
  rw [listed]
  cases hs : Arena.enlistAll s agent (cells.filter (·.tile = .adversary)) with
  | error e => exact .error e
  | ok agents =>
    refine .ok ⟨rfl, fun a ha => ?_⟩
    rcases (Arena.enlistAll_names hs a).mp ha with rfl | ⟨c, hc, rfl⟩
    · exact h.lead
    · exact h.rivals c hc

theorem Agreeing.build (h : Agreeing cells s s') (hs : s.check = .ok ()) (hs' : s'.check = .ok ()) :
    Matching Arena.Alike (Arena.build cells background s rewards)
      (Arena.build cells background s' rewards) := by
  unfold Arena.build
  rw [hs, hs']
  refine Matching.mapError (Arena.arrange_alike (.refl cells) h.oneWays h.dialect (.of_eq _) ?_)
  rintro agent _ rfl
  exact h.enlistAll agent

theorem Agreeing.compile_eq {text : String} (hs : s.check = .ok ()) (hs' : s'.check = .ok ())
    (h : ∀ sheet, Sheet.read text = .ok sheet → Agreeing sheet.foreground s s') :
    compile text s = compile text s' := by
  have arenas : Matching Arena.Alike (readArena text s) (readArena text s') := by
    unfold readArena
    rw [hs, hs']
    cases hr : Sheet.read text with
    | error e => exact .error _
    | ok sheet => exact (h sheet hr).build hs hs'
  exact arenas.bind_eq fun f g alike => alike.program_eq

-- ---------------------------------------------------------------------------
-- Lists of names
-- ---------------------------------------------------------------------------

def shownNames (cells : List Cell) : List Role :=
  Role.lead :: (cells.filter (·.tile = .adversary)).map (·.color.title)

def Settings.chances (s : Settings) : List (Role × Float) := s.probabilistic.zip s.probabilities

/-- Lists that give the agents shown the same chances. -/
inductive SameChances (shown : List Role) : List (Role × Float) → List (Role × Float) → Prop
  | refl (l : List (Role × Float)) : SameChances shown l l
  | symm {l l' : List (Role × Float)} (h : SameChances shown l l') : SameChances shown l' l
  | trans {l l' l'' : List (Role × Float)} (h : SameChances shown l l')
      (h' : SameChances shown l' l'') : SameChances shown l l''
  /-- The agents may come in any order. -/
  | perm {l l' : List (Role × Float)} (h : l.Perm l') (distinct : (l.map (·.1)).Nodup) :
      SameChances shown l l'
  /-- An entry is idle if its agent is not shown or has an entry before. -/
  | extra (before after : List (Role × Float)) (a : Role) (p : Float)
      (idle : a ∉ shown ∨ a ∈ before.map (·.1)) :
      SameChances shown (before ++ after) (before ++ (a, p) :: after)

/-- The same settings with other lists: of the agents shown, the same ones are named, in any order
and any number of times. -/
structure Relisted (cells : List Cell) (s s' : Settings) : Prop where
  oneWays : s.oneWays = s'.oneWays
  dialect : s.dialect = s'.dialect
  considered : ∀ a ∈ shownNames cells, a ∈ s.considered ↔ a ∈ s'.considered
  /-- Where there are adversaries, no list stays no list. -/
  everyone : ∀ c ∈ cells, c.tile = .adversary → (s.considered = [] ↔ s'.considered = [])
  viewers : ∀ a ∈ shownNames cells, a ∈ s.viewers ↔ a ∈ s'.viewers
  chances : SameChances (shownNames cells) s.chances s'.chances

section Lookup

variable {α β : Type} [DecidableEq α] {l l' : List (α × β)} {a : α} {b : β}

theorem lookup_eq_some_iff_mem (hn : (l.map (·.1)).Nodup) : l.lookup a = some b ↔ (a, b) ∈ l := by
  induction l with
  | nil => simp
  | cons entry l ih =>
    obtain ⟨k, v⟩ := entry
    obtain ⟨new, hn⟩ := List.nodup_cons.mp hn
    rw [List.lookup_cons, List.mem_cons]
    by_cases hk : a = k
    · subst hk
      have once : (a, b) ∉ l := fun hm => new (List.mem_map.mpr ⟨_, hm, rfl⟩)
      simp [once, eq_comm]
    · have other : (a == k) = false := beq_false_of_ne hk
      simp [other, ih hn, hk]

theorem lookup_perm (h : l.Perm l') (hn : (l.map (·.1)).Nodup) : l.lookup a = l'.lookup a := by
  have hn' : (l'.map (·.1)).Nodup := (h.map _).nodup_iff.mp hn
  refine Option.ext fun b => ?_
  rw [lookup_eq_some_iff_mem hn, lookup_eq_some_iff_mem hn', h.mem_iff]

end Lookup

theorem SameChances.lookup_eq {shown : List Role} {l l' : List (Role × Float)} {a : Role}
    (h : SameChances shown l l') (ha : a ∈ shown) : l.lookup a = l'.lookup a := by
  induction h with
  | refl => rfl
  | symm _ ih => exact ih.symm
  | trans _ _ ih ih' => exact ih.trans ih'
  | perm h distinct => exact lookup_perm h distinct
  | extra before after b p idle =>
    rw [List.lookup_append, List.lookup_append]
    by_cases own : a = b
    · subst own
      obtain ⟨entry, hm, rfl⟩ := List.mem_map.mp (idle.resolve_left (not_not.mpr ha))
      cases hl : before.lookup entry.1 with
      | some _ => rfl
      | none => simpa using List.lookup_eq_none_iff.mp hl entry hm
    · have other : (a == b) = false := beq_false_of_ne own
      rw [List.lookup_cons, other]

theorem Relisted.sameFor (h : Relisted cells s s') {a : Role} (ha : a ∈ shownNames cells) :
    s.SameFor s' a := by
  constructor
  · rw [Settings.orients, Settings.orients, Bool.eq_iff_iff, List.contains_iff_mem,
      List.contains_iff_mem]
    exact h.viewers a ha
  · exact h.chances.lookup_eq ha

theorem title_mem_shownNames {c : Cell} (hc : c ∈ cells) (rival : c.tile = .adversary) :
    c.color.title ∈ shownNames cells :=
  List.mem_cons_of_mem _
    (List.mem_map.mpr ⟨c, List.mem_filter.mpr ⟨hc, decide_eq_true rival⟩, rfl⟩)

theorem Relisted.agreeing (h : Relisted cells s s') : Agreeing cells s s' where
  oneWays := h.oneWays
  dialect := h.dialect
  includes c hc rival := by
    have empty : s.considered.isEmpty = s'.considered.isEmpty := by
      rw [Bool.eq_iff_iff, List.isEmpty_iff, List.isEmpty_iff]
      exact h.everyone c hc rival
    have named : s.considered.contains c.color.title = s'.considered.contains c.color.title := by
      rw [Bool.eq_iff_iff, List.contains_iff_mem, List.contains_iff_mem]
      exact h.considered _ (title_mem_shownNames hc rival)
    rw [Settings.includes, Settings.includes, empty, named]
  lead := h.sameFor List.mem_cons_self
  rivals c hc := by
    obtain ⟨hc, taken⟩ := List.mem_filter.mp hc
    simp only [Bool.and_eq_true, decide_eq_true_eq] at taken
    exact h.sameFor (title_mem_shownNames hc taken.1)

/-- Settings that fit together and treat the agents that a text shows in the same way give the same
program, or the same fault. In particular names may be given in another order, repeated, or
brought in for agents that are not shown. -/
theorem absent_names_ignored {text : String} {s s' : Settings} (hs : s.check = .ok ())
    (hs' : s'.check = .ok ()) :
    ((∀ sheet, Sheet.read text = .ok sheet → Agreeing sheet.foreground s s') →
        compile text s = compile text s') ∧
      ((∀ sheet, Sheet.read text = .ok sheet → Relisted sheet.foreground s s') →
        compile text s = compile text s') := by
  have agreed (h : ∀ sheet, Sheet.read text = .ok sheet → Agreeing sheet.foreground s s') :
      compile text s = compile text s' := Agreeing.compile_eq hs hs' h
  exact ⟨agreed, fun relisted => agreed fun sheet hr => (relisted sheet hr).agreeing⟩

def rivalRoom : String := "WRWRWRWR\nWRXGZRWR\nWRWRWRWR\n"

theorem absent_names_ignored_room :
    compile rivalRoom { considered := ["Red"], viewers := ["Red", "Agent"] } =
        compile rivalRoom
          { considered := ["Blue", "Red", "Red"], viewers := ["Agent", "Green", "Red"] } ∧
      ∀ p q, Settings.admissible p = true → Settings.admissible q = true →
        compile rivalRoom { probabilistic := ["Agent", "Red"], probabilities := [p, q] } =
          compile rivalRoom { probabilistic := ["Red", "Agent"], probabilities := [q, p] } := by
  obtain ⟨sheet, hr, shown⟩ : ∃ sheet, Sheet.read rivalRoom = .ok sheet ∧
      shownNames sheet.foreground = ["Agent", "Red"] := ⟨_, rfl, rfl⟩
  constructor
  · refine (absent_names_ignored rfl rfl).2 fun sheet' hr' => ?_
    cases hr.symm.trans hr'
    refine ⟨rfl, rfl, ?_, by simp, ?_, .refl _⟩
    · simp [shown]
    · simp [shown]
  · intro p q hp hq
    have fits {a b : Role} {p q : Float} (hp : Settings.admissible p = true)
        (hq : Settings.admissible q = true) :
        Settings.check { probabilistic := [a, b], probabilities := [p, q] } = .ok () := by
      simp [Settings.check, hp, hq]
    refine (absent_names_ignored (fits hp hq) (fits hq hp)).2 fun sheet' hr' => ?_
    cases hr.symm.trans hr'
    exact ⟨rfl, rfl, by simp, by simp, by simp, .perm (.swap ..) (by simp [Settings.chances])⟩

/-- To name a single adversary that is not there is to leave out those that are. -/
theorem absent_name_dismisses :
    ∃ sheet, Sheet.read rivalRoom = .ok sheet ∧ "Blue" ∉ shownNames sheet.foreground ∧
      Settings.check {} = .ok () ∧ Settings.check { considered := ["Blue"] } = .ok () ∧
      compile rivalRoom {} ≠ compile rivalRoom { considered := ["Blue"] } := by
  refine ⟨_, rfl, by decide, rfl, rfl, fun same => ?_⟩
  obtain ⟨f, hf, names, dry⟩ : ∃ f, readArena rivalRoom {} = .ok f ∧
      f.names = ["Agent", "Red"] ∧ ∀ o, f.slippery o = [] :=
    ⟨_, rfl, rfl, fun o => by cases o <;> rfl⟩
  obtain ⟨g, hg, alone, dry'⟩ : ∃ g, readArena rivalRoom { considered := ["Blue"] } = .ok g ∧
      g.names = ["Agent"] ∧ ∀ o, g.slippery o = [] :=
    ⟨_, rfl, rfl, fun o => by cases o <;> rfl⟩
  rw [compile_of_dry hf dry, compile_of_dry hg dry'] at same
  have agents := congrArg (fun p : Program => p.modules.map (·.agent)) (Except.ok.inj same)
  rw [Arena.modules_agents, Arena.modules_agents, names, alone] at agents
  cases agents

end TileWorld
