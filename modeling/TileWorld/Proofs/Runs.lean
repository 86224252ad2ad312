import TileWorld.CommandLine.Folder
import TileWorld.Proofs.CompileLaws
import TileWorld.SettingsFile

/-!
# Runs of the command line

A run either carries out all its steps or leaves no trace (`run_all_or_nothing`), however settings
files are read. All steps but the last only read the folder. What they find is said by
`Folder.Finds`, which goes along with the steps of a computation, and from their parts by
`Folder.Yields`.
-/

namespace TileWorld.CommandLine

-- ---------------------------------------------------------------------------
-- Options
-- ---------------------------------------------------------------------------

inductive Replaces {α : Type} : Option α → α → α → Prop
  | keep (old : α) : Replaces none old old
  | put (old new : α) : Replaces (some new) old new

theorem replaces_iff {α : Type} {given : Option α} {old new : α} :
    Replaces given old new ↔ given.getD old = new := by
  constructor
  · rintro (_ | _) <;> rfl
  · rintro rfl
    cases given with
    | none => exact .keep old
    | some new => exact .put old new

/-- Each option that is given replaces its own setting. One-ways can only be switched on. -/
structure Overrides (r : Request) (old new : Settings) : Prop where
  considered : Replaces (r.agents.map readNames) old.considered new.considered
  viewers : Replaces (r.view.map readNames) old.viewers new.viewers
  probabilistic : Replaces (r.probabilistic.map readNames) old.probabilistic new.probabilistic
  probabilities : ∃ given, r.probabilities.mapM readProbabilities = .ok given ∧
    Replaces given old.probabilities new.probabilities
  oneWays : new.oneWays = true ↔ r.oneWays = true ∨ old.oneWays = true
  dialect : Replaces r.dialect old.dialect new.dialect

variable {r : Request} {old new : Settings}

def overridden (r : Request) (old : Settings) (probabilities : List Float) : Settings where
  considered := (r.agents.map readNames).getD old.considered
  viewers := (r.view.map readNames).getD old.viewers
  probabilistic := (r.probabilistic.map readNames).getD old.probabilistic
  probabilities := probabilities
  oneWays := r.oneWays || old.oneWays
  dialect := r.dialect.getD old.dialect

theorem override_eq_bind : override r old = do
    let given ← r.probabilities.mapM readProbabilities
    return overridden r old (given.getD old.probabilities) := by
  unfold override
  cases r.probabilities with
  | none => rfl
  | some text =>
    cases h : readProbabilities text <;> simp [h, overridden]

theorem overridden_eq {probabilities : List Float} : overridden r old probabilities = new ↔
    Replaces (r.agents.map readNames) old.considered new.considered ∧
    Replaces (r.view.map readNames) old.viewers new.viewers ∧
    Replaces (r.probabilistic.map readNames) old.probabilistic new.probabilistic ∧
    probabilities = new.probabilities ∧
    (new.oneWays = true ↔ r.oneWays = true ∨ old.oneWays = true) ∧
    Replaces r.dialect old.dialect new.dialect := by
  have oneWays : (r.oneWays || old.oneWays) = new.oneWays ↔
      (new.oneWays = true ↔ r.oneWays = true ∨ old.oneWays = true) := by
    rw [eq_comm, Bool.eq_iff_iff, Bool.or_eq_true]
  rw [← oneWays]
  simp only [overridden, replaces_iff]
  constructor
  · rintro rfl
    exact ⟨rfl, rfl, rfl, rfl, rfl, rfl⟩
  · rintro ⟨h₁, h₂, h₃, h₄, h₅, h₆⟩
    rw [h₁, h₂, h₃, h₄, h₅, h₆]

theorem override_eq_ok : override r old = .ok new ↔ Overrides r old new := by
  simp only [override_eq_bind, bind_eq_ok, pure_eq_ok, overridden_eq]
  constructor
  · rintro ⟨given, hg, considered, viewers, probabilistic, chances, oneWays, dialect⟩
    exact ⟨considered, viewers, probabilistic, ⟨given, hg, replaces_iff.mpr chances⟩, oneWays,
      dialect⟩
  · rintro ⟨considered, viewers, probabilistic, ⟨given, hg, chances⟩, oneWays, dialect⟩
    exact ⟨given, hg, considered, viewers, probabilistic, replaces_iff.mp chances, oneWays,
      dialect⟩

theorem checked_eq_ok : checked r old = .ok new ↔ Overrides r old new ∧ new.check = .ok () := by
  simp only [checked, bind_eq_ok, pure_eq_ok, override_eq_ok]
  constructor
  · rintro ⟨_, given, _, fits, rfl⟩
    exact ⟨given, fits⟩
  · rintro ⟨given, fits⟩
    exact ⟨new, given, (), fits, rfl⟩

namespace Folder

-- ---------------------------------------------------------------------------
-- Reading
-- ---------------------------------------------------------------------------

section Finds

variable {α β : Type} {folder after : Folder} {x : ExceptT Failure (StateM Folder) α}
  {next : α → ExceptT Failure (StateM Folder) β}

/-- The computation leaves the folder as it is, and its results are those described. -/
def Finds (x : ExceptT Failure (StateM Folder) α) (folder : Folder) (P : α → Prop) : Prop :=
  ∃ result, x.run.run folder = (result, folder) ∧ ∀ a, result = .ok a ↔ P a

theorem Finds.value (a : α) : Finds (pure a) folder (a = ·) :=
  ⟨.ok a, rfl, fun _ => by rw [Except.ok.injEq]⟩

theorem Finds.fail (f : Failure) : Finds (throw f : ExceptT Failure (StateM Folder) α) folder
    fun _ => False :=
  ⟨.error f, rfl, fun _ => by simp⟩

theorem Finds.content (path : String) :
    Finds (files.read path : ExceptT Failure (StateM Folder) _) folder (folder.read path = ·) :=
  ⟨.ok (folder.read path), rfl, fun _ => by rw [Except.ok.injEq]⟩

theorem Finds.bind {P : α → Prop} {Q : α → β → Prop} (h : Finds x folder P)
    (hn : ∀ a, P a → Finds (next a) folder (Q a)) :
    Finds (x >>= next) folder fun b => ∃ a, P a ∧ Q a b := by
  obtain ⟨result, run, found⟩ := h
  cases result with
  | error f =>
    refine ⟨.error f, by rw [run_bind, run], fun b => ?_⟩
    simp [← found]
  | ok a =>
    obtain ⟨result, run', found'⟩ := hn a ((found a).mp rfl)
    refine ⟨result, by rw [run_bind, run]; exact run', fun b => ?_⟩
    rw [found']
    simp [← found]

theorem Finds.imp {P Q : α → Prop} (h : Finds x folder P) (hq : ∀ a, P a ↔ Q a) :
    Finds x folder Q := by
  obtain ⟨result, run, found⟩ := h
  exact ⟨result, run, fun a => (found a).trans (hq a)⟩

end Finds

variable {reader : String → Option Settings} {folder after : Folder}

inductive Starts (reader : String → Option Settings) (folder : Folder) (r : Request) :
    Settings → Prop
  | defaults (unnamed : r.config = none) : Starts reader folder r {}
  | file {name text : String} {s : Settings} (named : r.config = some name)
      (found : folder.read name = .ok text) (read : reader text = some s) :
      Starts reader folder r s

/-- The text of the program that a request asks for. -/
inductive Yields (reader : String → Option Settings) (folder : Folder) (r : Request) :
    String → Prop
  | text {old s : Settings} {sheet : String} {p : Program} (starts : folder.Starts reader r old)
      (given : Overrides r old s) (fits : s.check = .ok ()) (found : folder.read r.input = .ok sheet)
      (compiled : compile sheet s = .ok p) : Yields reader folder r p.render

theorem finds_fileSettings :
    Finds (fileSettings reader files r) folder (folder.Starts reader r) := by
  unfold fileSettings
  cases hc : r.config with
  | none =>
    refine (Finds.value _).imp fun s => ⟨?_, ?_⟩
    · rintro rfl
      exact .defaults hc
    · rintro (_ | ⟨named, -, -⟩)
      · rfl
      · cases hc.symm.trans named
  | some name =>
    refine (Finds.bind (Q := fun content s => ∃ text, content = .ok text ∧
      reader text = some s) (.content name) fun content _ => ?_).imp fun s => ?_
    · cases content with
      | error f => exact (Finds.fail _).imp fun s => by simp
      | ok text =>
        cases hs : reader text with
        | none => simpa [hs] using Finds.fail _
        | some s => simpa [hs] using Finds.value s
    · constructor
      · rintro ⟨_, found, text, rfl, read⟩
        exact .file hc found read
      · rintro (unnamed | ⟨named, found, read⟩)
        · cases hc.symm.trans unnamed
        · cases hc.symm.trans named
          exact ⟨_, found, _, rfl, read⟩

theorem finds_settings : Finds (settings reader files r) folder
    fun s => ∃ old, folder.Starts reader r old ∧ Overrides r old s ∧ s.check = .ok () := by
  refine finds_fileSettings.bind fun old _ => ?_
  simp only [← checked_eq_ok]
  cases checked r old with
  | error f => exact (Finds.fail _).imp fun s => by simp
  | ok s => exact (Finds.value s).imp fun s' => by simp

theorem finds_programText (reader : String → Option Settings) (folder : Folder) (r : Request) :
    Finds (programText reader files r) folder (folder.Yields reader r) := by
  refine (finds_settings.bind fun s _ => Finds.bind (Q := fun content text => ∃ sheet p,
    content = .ok sheet ∧ compile sheet s = .ok p ∧ p.render = text) (.content _)
      fun content _ => ?_).imp fun text => ?_
  · cases content with
    | error f => exact (Finds.fail _).imp fun s => by simp
    | ok sheet =>
      cases hp : compile sheet s with
      | error f => simpa [hp] using Finds.fail _
      | ok p => simpa [hp] using Finds.value _
  · constructor
    · rintro ⟨s, ⟨old, starts, given, fits⟩, _, found, sheet, p, rfl, compiled, rfl⟩
      exact .text starts given fits found compiled
    · rintro ⟨starts, given, fits, found, compiled⟩
      exact ⟨_, ⟨_, starts, given, fits⟩, _, found, _, _, rfl, compiled, rfl⟩

-- ---------------------------------------------------------------------------
-- Writing
-- ---------------------------------------------------------------------------

theorem lookup_cons_eq (key value other : String) :
    List.lookup other ((key, value) :: folder) =
      if other = key then some value else folder.lookup other := by
  by_cases h : other = key
  · simp [h]
  · rw [List.lookup_cons, beq_false_of_ne h, if_neg h]

theorem lookup_store (name content other : String) :
    (store name content folder).lookup other =
      if other = name then some content else folder.lookup other := by
  induction folder with
  | nil => exact lookup_cons_eq name content other
  | cons file rest ih =>
    obtain ⟨key, value⟩ := file
    by_cases hk : key = name
    · rw [store, if_pos hk, lookup_cons_eq, lookup_cons_eq, hk]
      split <;> rfl
    · rw [store, if_neg hk, lookup_cons_eq, lookup_cons_eq, ih]
      by_cases ho : other = key
      · rw [if_pos ho, if_pos ho, if_neg (ho ▸ hk)]
      · rw [if_neg ho, if_neg ho]

theorem enter_eq_ok {place place' : Place} {part : List Char} :
    folder.enter place part = .ok place' ↔ place.isDirectory = true ∧ place.down part = place' := by
  unfold enter
  split
  · simp [*]
  · rw [bind_eq_ok]
    constructor
    · rintro ⟨_ | _, -, h⟩ <;> cases h
    · rintro ⟨directory, -⟩
      contradiction

/-- A path passes through directories only, and of these the folder has none inside. -/
theorem locate_ok {path : String} {place : Place} (h : folder.locate path = .ok place) :
    after.locate path = .ok place := by
  have through (parts : List (List Char)) (start : Place)
      (h : parts.foldlM folder.enter start = .ok place) :
      parts.foldlM after.enter start = .ok place := by
    induction parts generalizing start with
    | nil => exact h
    | cons part parts ih =>
      obtain ⟨next, entered, h⟩ := bind_eq_ok.mp h
      exact bind_eq_ok.mpr ⟨next, enter_eq_ok.mpr (enter_eq_ok.mp entered), ih next h⟩
  unfold locate at h ⊢
  simp only at h ⊢
  split at h
  · cases h
  · split at h
    · cases h
    · rw [if_neg ‹_›, if_neg ‹_›]
      exact through (parts path) _ h

/-- The path leads to a file of this name, which may be there or not. -/
structure Names (folder : Folder) (path name : String) : Prop where
  leads : folder.locate path = .ok (.entry name)
  plain : wantsDirectory path = false
  fits : name.utf8ByteSize ≤ maxName

theorem write_eq_ok {path content : String} : folder.write path content = .ok after ↔
    ∃ name, folder.Names path name ∧ store name content folder = after := by
  rw [write, bind_eq_ok]
  constructor
  · rintro ⟨place, leads, h⟩
    cases plain : wantsDirectory path with
    | true =>
      rw [plain] at h
      cases h
    | false =>
      rw [plain] at h
      obtain ⟨_, found, h⟩ := bind_eq_ok.mp h
      cases place with
      | entry name =>
        refine ⟨name, ⟨leads, plain, ?_⟩, Except.ok.inj h⟩
        by_contra long
        rw [content?, find, if_neg long] at found
        cases found
      | here | above | outside name => cases h
  · rintro ⟨name, ⟨leads, plain, fits⟩, rfl⟩
    refine ⟨_, leads, ?_⟩
    rw [plain, if_neg Bool.false_ne_true]
    exact bind_eq_ok.mpr ⟨_, by rw [content?, find, if_pos fits], rfl⟩

theorem Names.read {path name : String} (h : folder.Names path name) (content : String) :
    (store name content folder).read path = .ok content := by
  have there : (store name content folder).content? (.entry name) = .ok (some content) := by
    rw [content?, find, if_pos h.fits, lookup_store, if_pos rfl]
  refine bind_eq_ok.mpr ⟨_, locate_ok h.leads, bind_eq_ok.mpr ⟨_, there, ?_⟩⟩
  rw [h.plain]
  rfl

-- ---------------------------------------------------------------------------
-- Runs
-- ---------------------------------------------------------------------------

/-- All that the request asks for can be done: there is a program, and a file can be written if
one is named for it. -/
structure Permits (reader : String → Option Settings) (folder : Folder) (r : Request) : Prop where
  yields : ∃ text, folder.Yields reader r text
  names : ∀ path, r.output = some path → ∃ name, folder.Names path name

/-- The text goes to the output and nothing is written, or it goes to the file of a path and
nothing else is written. -/
inductive Delivers (folder : Folder) (text : String) : Option String → String → Folder → Prop
  | output : Delivers folder text none text folder
  | file {path name : String} {after : Folder} (names : folder.Names path name)
      (found : after.read path = .ok text) (content : after.lookup name = some text)
      (others : ∀ other, other ≠ name → after.lookup other = folder.lookup other) :
      Delivers folder text (some path) "" after

theorem run_write (path content : String) :
    (files.write path content : ExceptT Failure (StateM Folder) _).run.run folder =
      match folder.write path content with
      | .error f => (.ok (.error f), folder)
      | .ok after => (.ok (.ok ()), after) := by
  have lifted : (files.write path content : ExceptT Failure (StateM Folder) _).run.run folder =
      ((files.write path content).run folder).map .ok id := rfl
  rw [lifted]
  simp only [files, StateT.run_bind, StateT.run_get, pure_bind]
  cases folder.write path content with
  | error f => rfl
  | ok after => rfl

theorem perform_cases (reader : String → Option Settings) (folder : Folder) (r : Request) :
    (∃ text output after, (perform reader files r).run.run folder = (.ok output, after) ∧
        folder.Permits reader r ∧ folder.Yields reader r text ∧
        folder.Delivers text r.output output after) ∨
      ∃ f, (perform reader files r).run.run folder = (.error f, folder) ∧
        ¬ folder.Permits reader r := by
  obtain ⟨result, run, found⟩ := finds_programText reader folder r
  rw [perform, run_bind, run]
  cases result with
  | error f =>
    refine .inr ⟨f, rfl, ?_⟩
    rintro ⟨⟨text, h⟩, -⟩
    cases (found text).mpr h
  | ok text =>
    have yields := (found text).mp rfl
    cases ho : r.output with
    | none =>
      refine .inl ⟨text, text, folder, rfl, ⟨⟨text, yields⟩, ?_⟩, yields, .output⟩
      simp [ho]
    | some path =>
      cases hw : folder.write path text with
      | error f =>
        refine .inr ⟨.output path f, ?_, ?_⟩
        · simp only [run_bind, run_write, hw]
          rfl
        · rintro ⟨-, names⟩
          obtain ⟨name, named⟩ := names path ho
          cases hw.symm.trans (write_eq_ok.mpr ⟨name, named, rfl⟩)
      | ok after =>
        obtain ⟨name, named, rfl⟩ := write_eq_ok.mp hw
        refine .inl ⟨text, "", _, ?_, ⟨⟨text, yields⟩, ?_⟩, yields,
          .file named (named.read text) ?_ ?_⟩
        · simp only [run_bind, run_write, hw]
          rfl
        · simpa [ho] using ⟨name, named⟩
        · rw [lookup_store, if_pos rfl]
        · intro other ho
          rw [lookup_store, if_neg ho]

theorem Yields.unique {text text' : String} (h : folder.Yields reader r text)
    (h' : folder.Yields reader r text') : text = text' := by
  obtain ⟨result, -, found⟩ := finds_programText reader folder r
  exact Except.ok.inj (((found text).mpr h).symm.trans ((found text').mpr h'))

end Folder

theorem Failure.exitCode_ne_zero (f : Failure) : (Outcome.failed f).exitCode ≠ 0 := by
  rw [Outcome.exitCode]
  split <;> decide

/-- A run that cannot do all that it is asked for ends with a failure, leaves the output empty and
the folder as it is. Any other run delivers the text of its program, and nothing else changes. -/
theorem run_all_or_nothing (reader : String → Option Settings) (folder : Folder) (r : Request) :
    ∃ outcome after, (run reader Folder.files r).run folder = (outcome, after) ∧
      (outcome.exitCode = 0 ↔ folder.Permits reader r) ∧
      (outcome.exitCode ≠ 0 → outcome.output = "" ∧ after = folder) ∧
      ∀ text, folder.Permits reader r → folder.Yields reader r text →
        folder.Delivers text r.output outcome.output after := by
  rcases folder.perform_cases reader r with ⟨text, output, after, run, permits, yields, delivers⟩ |
    ⟨f, run, refused⟩
  · refine ⟨.succeeded output, after, ?_, ?_, ?_, ?_⟩
    · rw [CommandLine.run, StateT.run_bind, run]
      rfl
    · simp [Outcome.exitCode, permits]
    · simp [Outcome.exitCode]
    · intro text' _ yields'
      cases yields.unique yields'
      exact delivers
  · refine ⟨.failed f, folder, ?_, ?_, fun _ => ⟨rfl, rfl⟩, ?_⟩
    · rw [CommandLine.run, StateT.run_bind, run]
      rfl
    · simp [f.exitCode_ne_zero, refused]
    · intro text permits
      contradiction

def singleRoom : String := "WRWRWR\nWRXRWR\nWRWRWR\n"

def inPlace : Request where
  input := "room"
  output := some "room"
  agents := none
  view := some "agent"
  probabilistic := none
  probabilities := none
  oneWays := true
  dialect := none
  config := some "game.toml"

theorem run_all_or_nothing_in_place :
    let folder : Folder := [("game.toml", "model_type = \"smg\"\n"), ("room", singleRoom)]
    ∃ p outcome after,
      compile singleRoom { viewers := ["Agent"], oneWays := true, dialect := .smg } = .ok p ∧
      (run Settings.ofFile? Folder.files inPlace).run folder = (outcome, after) ∧
      outcome.exitCode = 0 ∧ outcome.output = "" ∧ after.lookup "room" = some p.render ∧
      after.lookup "game.toml" = folder.lookup "game.toml" := by
  intro folder
  obtain ⟨f, hf, dry⟩ : ∃ f,
      readArena singleRoom { viewers := ["Agent"], oneWays := true, dialect := .smg } = .ok f ∧
        ∀ o, f.slippery o = [] :=
    ⟨_, rfl, fun o => by cases o <;> rfl⟩
  have compiled := compile_of_dry hf dry
  obtain ⟨outcome, after, ended, success, -, delivers⟩ :=
    run_all_or_nothing Settings.ofFile? folder inPlace
  have starts : folder.Starts Settings.ofFile? inPlace { dialect := .smg } :=
    .file rfl rfl rfl
  have given : Overrides inPlace { dialect := .smg }
      { viewers := ["Agent"], oneWays := true, dialect := .smg } :=
    ⟨.keep _, .put _ _, .keep _, ⟨none, rfl, .keep _⟩, by decide, .keep _⟩
  have yields : folder.Yields Settings.ofFile? inPlace f.wholeProgram.render :=
    .text starts given rfl rfl compiled
  have permits : folder.Permits Settings.ofFile? inPlace := by
    refine ⟨⟨_, yields⟩, ?_⟩
    rintro path ⟨⟩
    exact ⟨"room", rfl, rfl, by decide⟩
  refine ⟨_, outcome, after, compiled, ended, success.mpr permits, ?_⟩
  have delivered := delivers _ permits yields
  generalize outcome.output = output at delivered ⊢
  cases delivered with
  | file names found content others =>
    cases names.leads
    exact ⟨rfl, content, others "game.toml" (by decide)⟩

end TileWorld.CommandLine
