import TileWorld.Proofs.Declarations
import TileWorld.Proofs.NumberTexts
import TileWorld.Proofs.RewardTexts

/-!
# The numbers at the ends of reward lines

A table of rewards has a line for each of its positions, with the value at its end. What stands
there is a plain decimal as long as the value is finite. But a table may hold values that are not:
the words for infinity and for what is not a number are read, and so are numerals too large for a
double. `table_lines_end` says for which texts this happens, and `special_value_printed` gives
one.
-/

namespace TileWorld

open Decimal (ReadAs Special isDecimal isNumeral)
open RewardEntry (ofTokens?)

-- ---------------------------------------------------------------------------
-- Lines
-- ---------------------------------------------------------------------------

def Text.lastWord (line : List Char) : List Char :=
  ((line.reverse.drop 2).takeWhile (· ≠ ' ')).reverse

open Text (lastWord)

theorem Text.lastWord_append (front : List Char) {word : List Char} (h : ' ' ∉ word) :
    lastWord (front ++ ' ' :: (word ++ [';', '\n'])) = word := by
  have inside : ∀ c ∈ word.reverse, decide (c ≠ ' ') = true := by
    intro c hc
    refine decide_eq_true fun blank => h ?_
    rwa [blank, List.mem_reverse] at hc
  have turned : (front ++ ' ' :: (word ++ [';', '\n'])).reverse.drop 2 =
      word.reverse ++ ' ' :: front.reverse := by
    simp
  rw [lastWord, turned, List.takeWhile_append_of_pos inside, List.takeWhile_cons_of_neg (by decide),
    List.append_nil, List.reverse_reverse]

theorem Amount.render_only (amount : Amount) : ∀ c ∈ amount.render.toList, isNumeral c = true := by
  cases amount with
  | whole n => exact Decimal.isDecimal_only (Decimal.isDecimal_repr n)
  | real x => exact Decimal.shortestText_only x

theorem RewardItem.render_amount (item : RewardItem) : ∃ front, item.render.toList =
    front ++ ' ' :: (item.amount.render.toList ++ [';', '\n']) := by
  obtain ⟨action, condition, amount⟩ := item
  cases action with
  | none => exact ⟨("\t" ++ condition.render ++ " :").toList, by simp [render]⟩
  | some a =>
    exact ⟨("\t" ++ (bracketed a.name ++ " ") ++ condition.render ++ " :").toList, by simp [render]⟩

theorem RewardItem.lastWord_render (item : RewardItem) :
    lastWord item.render.toList = item.amount.render.toList := by
  have solid : ' ' ∉ item.amount.render.toList :=
    fun blank => absurd (item.amount.render_only _ blank) (by decide)
  obtain ⟨front, line⟩ := item.render_amount
  rw [line, Text.lastWord_append front solid]

-- ---------------------------------------------------------------------------
-- Tables
-- ---------------------------------------------------------------------------

def Objective.isTable : Objective → Bool
  | .tableSafety | .tableSafetyAndGoal => true
  | _ => false

namespace Arena

variable {f : Arena} {a : Role} {r : RewardStructure}

def tableItem (a : Role) (e : RewardEntry) : RewardItem := ⟨none, .isAt a e.x e.y, .real e.value⟩

/-- Before the lines of the table there are only rewards for the goal and for lava. -/
theorem table_items (hr : r ∈ f.rewardStructures a) (table : r.objective.isTable = true) :
    r.agent = a ∧ ∃ fixed, r.items = fixed ++ f.rewards.map (tableItem a) ∧
      ∀ item ∈ fixed, ∃ n, item.amount = .whole n := by
  have goal : ∀ item ∈ f.goalItems a, ∃ n, item.amount = .whole n := by
    unfold goalItems
    split <;> simp [stateReward]
  have lava : ∀ item ∈ f.lavaItems a, ∃ n, item.amount = .whole n := by
    unfold lavaItems
    split <;> simp [stateReward]
  obtain ⟨-, agent, items⟩ := mem_rewardStructures.mp hr
  refine ⟨agent, ?_⟩
  rw [items]
  cases ho : r.objective with
  | tableSafety => exact ⟨f.lavaItems a, rfl, lava⟩
  | tableSafetyAndGoal =>
    exact ⟨f.goalItems a ++ f.lavaItems a, rfl, List.forall_mem_append.mpr ⟨goal, lava⟩⟩
  | _ =>
    rw [ho] at table
    cases table

theorem isDecimal_tableItem (a : Role) (e : RewardEntry) :
    isDecimal (lastWord (tableItem a e).render.toList) = (Decimal.value? e.value).isSome := by
  rw [RewardItem.lastWord_render]
  exact Decimal.isDecimal_shortestText e.value

theorem table_lines (hr : r ∈ f.wholeProgram.rewardStructures)
    (table : r.objective.isTable = true) :
    (∀ e ∈ f.rewards, tableItem r.agent e ∈ r.items) ∧
      ∀ item ∈ r.items, isDecimal (lastWord item.render.toList) = true ∨
        ∃ e ∈ f.rewards, item = tableItem r.agent e ∧
          Special e.value (lastWord item.render.toList) := by
  rw [rewardStructures_wholeProgram, List.mem_flatMap] at hr
  obtain ⟨a, -, hr⟩ := hr
  obtain ⟨rfl, fixed, items, whole⟩ := table_items hr table
  rw [items]
  refine ⟨fun e he => List.mem_append_right _ (List.mem_map_of_mem he), fun item hi => ?_⟩
  rcases List.mem_append.mp hi with hi | hi
  · obtain ⟨n, amount⟩ := whole item hi
    rw [RewardItem.lastWord_render, amount]
    exact .inl (Decimal.isDecimal_repr n)
  · obtain ⟨e, he, rfl⟩ := List.mem_map.mp hi
    cases value : Decimal.value? e.value with
    | some v =>
      rw [isDecimal_tableItem, value]
      exact .inl rfl
    | none =>
      refine .inr ⟨e, he, rfl, ?_⟩
      rw [RewardItem.lastWord_render]
      exact Decimal.special_shortestText value

theorem exists_table {e : RewardEntry} (he : e ∈ f.rewards) (a : Role) :
    ∃ r ∈ f.rewardStructures a, r.objective.isTable = true := by
  have some : ¬ f.rewards.isEmpty = true := by
    rw [List.isEmpty_iff]
    exact List.ne_nil_of_mem he
  refine ⟨⟨a, .tableSafety, f.objectiveItems a .tableSafety⟩, ?_, rfl⟩
  exact mem_rewardStructures.mpr ⟨by simp [objectives, some], rfl, rfl⟩

end Arena

-- ---------------------------------------------------------------------------
-- Values
-- ---------------------------------------------------------------------------

def Sheet.rewardTokens (text : String) : List (List Char) :=
  match takeHeader (Text.rows text.toList) with
  | .error _ => []
  | .ok (_, lines) =>
    let body := lines.takeWhile (!·.content.isEmpty)
    Text.fields (markSeparators (rewardText (takeSection (takeSection body).2).2))

theorem Sheet.read_rewards {text : String} {sheet : Sheet} (h : Sheet.read text = .ok sheet) :
    readTriples 1 [] (rewardTokens text) = .ok sheet.rewards := by
  unfold Sheet.read at h
  obtain ⟨⟨declared, lines⟩, hl, h⟩ := bind_eq_ok.mp h
  rw [rewardTokens, hl]
  simp only at h
  split at h
  · cases h
  · obtain ⟨foreground, -, h⟩ := bind_eq_ok.mp h
    obtain ⟨_, -, h⟩ := bind_eq_ok.mp h
    obtain ⟨background, -, h⟩ := bind_eq_ok.mp h
    obtain ⟨rewards, read, h⟩ := bind_eq_ok.mp h
    cases pure_eq_ok.mp h
    exact read

theorem rewards_readArena {text : String} {settings : Settings} {f : Arena} {sheet : Sheet}
    (h : readArena text settings = .ok f) (read : Sheet.read text = .ok sheet) :
    f.rewards = sheet.rewards := by
  obtain ⟨sheet', read', built⟩ := readArena_eq_ok.mp h
  cases read.symm.trans read'
  exact (Arena.build_fields built).2.2.2.1

theorem ofTokens?_value {tokens : List (List Char)} {e : RewardEntry}
    (h : ofTokens? tokens = some e) :
    ∃ x y token, tokens = [x, y, token] ∧ Decimal.float? token = some e.value := by
  unfold ofTokens? at h
  split at h
  · rename_i x y token
    simp only [Option.bind_eq_bind, Option.bind_eq_some_iff] at h
    obtain ⟨column, -, row, -, value, read, made⟩ := h
    cases made
    exact ⟨x, y, token, rfl, read⟩
  · cases h

theorem reads_values {tokens : List (List Char)} {entries : List RewardEntry}
    (reads : Reads tokens entries) {e : RewardEntry} (he : e ∈ entries) :
    ∃ k x y token, tripleAt tokens k = [x, y, token] ∧ entries[k]? = some e ∧
      ReadAs token e.value := by
  obtain ⟨k, hk⟩ := List.mem_iff_getElem?.mp he
  obtain ⟨x, y, token, triple, read⟩ := ofTokens?_value ((reads.2 k).symm.trans hk)
  exact ⟨k, x, y, token, triple, hk, Decimal.readAs_float read⟩

/-- The values of a table are those of its tokens. A token gives a finite value only if it is a
numeral below the limit. In the program, the lines of a table end in a plain decimal where the value
is finite and in a word where it is not, so they all end in decimals exactly if all values are
finite. -/
theorem table_lines_end (text : String) (settings : Settings) (p : Program)
    (h : compile text settings = .ok p) :
    ∃ sheet entries, Sheet.read text = .ok sheet ∧
      Reads (Sheet.rewardTokens text) entries ∧ sheet.rewards.Records entries ∧
      (∀ e ∈ sheet.rewards, ∃ k x y token,
        tripleAt (Sheet.rewardTokens text) k = [x, y, token] ∧ entries[k]? = some e ∧
          ReadAs token e.value) ∧
      (∀ r ∈ p.rewardStructures, r.objective.isTable = true →
        (∀ e ∈ sheet.rewards, Arena.tableItem r.agent e ∈ r.items) ∧
          ∀ item ∈ r.items, isDecimal (lastWord item.render.toList) = true ∨
            ∃ e ∈ sheet.rewards, item = Arena.tableItem r.agent e ∧
              Special e.value (lastWord item.render.toList)) ∧
      ((∀ r ∈ p.rewardStructures, r.objective.isTable = true →
          ∀ item ∈ r.items, isDecimal (lastWord item.render.toList) = true) ↔
        ∀ e ∈ sheet.rewards, (Decimal.value? e.value).isSome = true) := by
  obtain ⟨sheet, f, read, built, -, rfl⟩ := compile_eq_ok.mp h
  have same : f.rewards = sheet.rewards := (Arena.build_fields built).2.2.2.1
  have triples := Sheet.read_rewards read
  -- a sheet was read, so the tokens have no fault
  rcases readTriples_outcome 1 [] (Sheet.rewardTokens text) with
    ⟨entries, reads, outcome⟩ | ⟨e, -, outcome⟩
  · have table : sheet.rewards = StateRewards.insertAll [] entries :=
      Except.ok.inj (triples.symm.trans outcome)
    have lines {r : RewardStructure} := Arena.table_lines (f := f) (r := r)
    rw [same] at lines
    refine ⟨sheet, entries, read, reads, ?_, fun e he => ?_, fun r => lines, ?_, ?_⟩
    · rw [table]
      exact StateRewards.records_insertAll entries
    · rw [table] at he
      rcases StateRewards.mem_insertAll he with he | he
      · exact reads_values reads he
      · cases he
    · -- the lead takes part in every program, so the value stands in one of its tables at least
      intro all e he
      obtain ⟨r, hr, isTable⟩ := Arena.exists_table (same ▸ he) Role.lead
      have listed : r ∈ f.wholeProgram.rewardStructures := by
        rw [Arena.rewardStructures_wholeProgram]
        exact List.mem_flatMap.mpr ⟨_, (Arena.staffed_build built).lead, hr⟩
      rw [← Arena.isDecimal_tableItem r.agent e]
      exact all r listed isTable _ ((lines listed isTable).1 e he)
    · intro finite r hr isTable item hi
      rcases (lines hr isTable).2 item hi with decimal | ⟨e, he, rfl, -⟩
      · exact decimal
      · rw [Arena.isDecimal_tableItem]
        exact finite e he
  · cases triples.symm.trans outcome

theorem table_lines_end_room :
    (∃ p, compile "WGWGWG\nWGXRWG\nWGWGWG\n-\n-\n2;2;-1e308\n" {} = .ok p ∧
      ∀ r ∈ p.rewardStructures, r.objective.isTable = true →
        ∀ item ∈ r.items, isDecimal (lastWord item.render.toList) = true) ∧
    ∃ p, compile "WGWGWG\nWGXRWG\nWGWGWG\n-\n-\n2;2;-1e308;1;1;1e309\n" {} = .ok p ∧
      ¬ ∀ r ∈ p.rewardStructures, r.objective.isTable = true →
        ∀ item ∈ r.items, isDecimal (lastWord item.render.toList) = true := by
  constructor
  · obtain ⟨f, hf, rewards, dry⟩ : ∃ f,
        readArena "WGWGWG\nWGXRWG\nWGWGWG\n-\n-\n2;2;-1e308\n" {} = .ok f ∧
          f.rewards = [⟨2, 2, -Decimal.nearest 1 308⟩] ∧ ∀ o, f.slippery o = [] :=
      ⟨_, rfl, rfl, fun o => by cases o <;> rfl⟩
    have compiled := compile_of_dry hf dry
    obtain ⟨sheet, entries, read, -, -, -, -, all⟩ := table_lines_end _ _ _ compiled
    rw [← rewards_readArena hf read, rewards] at all
    refine ⟨_, compiled, all.mpr ?_⟩
    simp only [List.forall_mem_singleton]
    decide +kernel
  · obtain ⟨f, hf, rewards, dry⟩ : ∃ f,
        readArena "WGWGWG\nWGXRWG\nWGWGWG\n-\n-\n2;2;-1e308;1;1;1e309\n" {} = .ok f ∧
          ⟨1, 1, Decimal.nearest 1 309⟩ ∈ f.rewards ∧ ∀ o, f.slippery o = [] :=
      ⟨_, rfl, List.mem_cons_self, fun o => by cases o <;> rfl⟩
    have compiled := compile_of_dry hf dry
    obtain ⟨sheet, entries, read, -, -, -, -, all⟩ := table_lines_end _ _ _ compiled
    rw [rewards_readArena hf read] at rewards
    refine ⟨_, compiled, fun decimals => ?_⟩
    have finite := all.mp decimals _ rewards
    exact absurd finite (by decide +kernel)

/-- A word that is not a number is a reward all the same, and the line ends in it. -/
theorem special_value_printed : ∃ p r item,
    compile "WGWGWG\nWGXRWG\nWGWGWG\n-\n-\n2;2;nan\n" {} = .ok p ∧ r ∈ p.rewardStructures ∧
      r.objective = .tableSafety ∧ item ∈ r.items ∧
      lastWord item.render.toList = "NaN".toList ∧ isDecimal "NaN".toList = false := by
  obtain ⟨f, hf, rewards, names, dry⟩ : ∃ f,
      readArena "WGWGWG\nWGXRWG\nWGWGWG\n-\n-\n2;2;nan\n" {} = .ok f ∧
        f.rewards = [⟨2, 2, 0.0 / 0.0⟩] ∧ f.names = ["Agent"] ∧ ∀ o, f.slippery o = [] :=
    ⟨_, rfl, rfl, rfl, fun o => by cases o <;> rfl⟩
  have listed : ⟨"Agent", .tableSafety, f.objectiveItems "Agent" .tableSafety⟩ ∈
      f.wholeProgram.rewardStructures := by
    rw [Arena.rewardStructures_wholeProgram, names, List.flatMap_singleton,
      Arena.mem_rewardStructures]
    exact ⟨by simp [Arena.objectives, rewards], rfl, rfl⟩
  refine ⟨_, _, Arena.tableItem "Agent" ⟨2, 2, 0.0 / 0.0⟩, compile_of_dry hf dry, listed, rfl,
    ?_, ?_, rfl⟩
  · exact (Arena.table_lines listed rfl).1 _ (by simp [rewards])
  · rw [RewardItem.lastWord_render]
    rfl

end TileWorld
