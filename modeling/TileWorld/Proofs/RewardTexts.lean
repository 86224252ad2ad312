import TileWorld.Proofs.RewardTables

/-!
# Rewards survive escaping

Tokens with a backslash before every special character, and a separator between any two, are read
back as the same tokens (`fields_joined`), whatever characters are in them. A list of tokens is a
reward table exactly if it falls into triples of numerals, and the table then holds for each
position the value of the last triple. Otherwise the fault tells of the first triple that is wrong
(`escaped_rewards_read`).
-/

namespace TileWorld

open Text (Solid)

-- ---------------------------------------------------------------------------
-- Tokens
-- ---------------------------------------------------------------------------

def escaped (token : List Char) : List Char :=
  token.flatMap fun c => if isRewardSeparator c || c = '\\' then ['\\', c] else [c]

/-- The text of some tokens, escaped, with one separator between any two of them. -/
inductive Joined : List (List Char) → List Char → Prop
  | none : Joined [] []
  | last (token : List Char) : Joined [token] (escaped token)
  | next (token : List Char) (separator : Char) (hs : isRewardSeparator separator = true)
      {following : List Char} {tokens : List (List Char)} {text : List Char}
      (rest : Joined (following :: tokens) text) :
      Joined (token :: following :: tokens) (escaped token ++ separator :: text)

/-- An escaped token stands for its own characters, whatever comes after it. -/
theorem markSeparators_escaped (token rest : List Char) :
    markSeparators (escaped token ++ rest) = token.map some ++ markSeparators rest := by
  induction token with
  | nil => rfl
  | cons c token ih =>
    rw [escaped, List.flatMap_cons, ← escaped, List.append_assoc, List.map_cons, List.cons_append,
      ← ih]
    split
    · rfl
    · rename_i plain
      rw [Bool.or_eq_true, decide_eq_true_eq, not_or] at plain
      rw [List.singleton_append, markSeparators, if_neg plain.1]
      all_goals simp [plain.2]

theorem fields_joined {tokens : List (List Char)} {text : List Char}
    (solid : ∀ token ∈ tokens, Solid token) (h : Joined tokens text) :
    Text.fields (markSeparators text) = tokens := by
  induction h with
  | none => rfl
  | last token =>
    have alone := markSeparators_escaped token []
    rw [List.append_nil] at alone
    rw [alone, markSeparators, List.append_nil, Text.fields_last (solid token (by simp))]
  | next token separator hs _ ih =>
    rw [List.forall_mem_cons] at solid
    rw [markSeparators_escaped, markSeparators_mark hs, Text.fields_cons solid.1, ih solid.2]

-- ---------------------------------------------------------------------------
-- Triples
-- ---------------------------------------------------------------------------

def tripleAt (tokens : List (List Char)) (k : Nat) : List (List Char) :=
  (tokens.drop (3 * k)).take 3

def RewardEntry.ofTokens? : List (List Char) → Option RewardEntry
  | [x, y, value] => do
    let column ← Decimal.coordinate? x
    let row ← Decimal.coordinate? y
    let value ← Decimal.float? value
    return ⟨column, row, value⟩
  | _ => none

open RewardEntry (ofTokens?)

/-- What is wrong with a triple. -/
inductive TripleFault (number : Nat) : List (List Char) → TextFault → Prop
  | x {x y value : List Char} (h : Decimal.coordinate? x = none) :
      TripleFault number [x, y, value] (.reward number .x (String.ofList x))
  | y {x y value : List Char} (hx : (Decimal.coordinate? x).isSome = true)
      (h : Decimal.coordinate? y = none) :
      TripleFault number [x, y, value] (.reward number .y (String.ofList y))
  | value {x y value : List Char} (hx : (Decimal.coordinate? x).isSome = true)
      (hy : (Decimal.coordinate? y).isSome = true) (h : Decimal.float? value = none) :
      TripleFault number [x, y, value] (.reward number .value (String.ofList value))
  | incomplete {tokens : List (List Char)} (some : tokens ≠ []) (few : tokens.length < 3) :
      TripleFault number tokens
        (.reward number .triple (String.intercalate ";" (tokens.map String.ofList)))

variable {x y v : List Char} {tokens rest : List (List Char)} {number : Nat} {e : TextFault}

@[simp] theorem tripleAt_zero : tripleAt (x :: y :: v :: rest) 0 = [x, y, v] := rfl

@[simp] theorem tripleAt_succ (k : Nat) :
    tripleAt (x :: y :: v :: rest) (k + 1) = tripleAt rest k := rfl

theorem length_tripleAt (tokens : List (List Char)) (k : Nat) :
    (tripleAt tokens k).length = min 3 (tokens.length - 3 * k) := by
  rw [tripleAt, List.length_take, List.length_drop]

theorem ofTokens?_length {entry : RewardEntry} (h : ofTokens? tokens = some entry) :
    tokens.length = 3 := by
  unfold ofTokens? at h
  split at h
  · rfl
  · cases h

theorem TripleFault.ofTokens?_eq (h : TripleFault number tokens e) : ofTokens? tokens = none := by
  cases h with
  | x h => simp [ofTokens?, h]
  | y _ h => simp [ofTokens?, h]
  | value _ _ h => simp [ofTokens?, h]
  | incomplete _ few =>
    rw [Option.eq_none_iff_forall_ne_some]
    intro entry he
    rw [ofTokens?_length he] at few
    exact absurd few (by decide)

theorem TripleFault.ne_nil (h : TripleFault number tokens e) : tokens ≠ [] := by
  cases h with
  | incomplete some => exact some
  | _ => exact List.cons_ne_nil _ _

def Reads (tokens : List (List Char)) (entries : List RewardEntry) : Prop :=
  tokens.length = 3 * entries.length ∧ ∀ k, entries[k]? = ofTokens? (tripleAt tokens k)

/-- The first triple that says nothing is wrong in this way. Triples are counted from `number`. -/
def FirstFault (number : Nat) (tokens : List (List Char)) (e : TextFault) : Prop :=
  ∃ k, (∀ j < k, (ofTokens? (tripleAt tokens j)).isSome = true) ∧
    TripleFault (number + k) (tripleAt tokens k) e

theorem reads_nil : Reads [] [] := ⟨rfl, fun k => by simp [tripleAt, ofTokens?]⟩

theorem reads_cons {entry : RewardEntry} {entries : List RewardEntry}
    (h : ofTokens? [x, y, v] = some entry) (hr : Reads rest entries) :
    Reads (x :: y :: v :: rest) (entry :: entries) := by
  refine ⟨?_, fun k => ?_⟩
  · have count := hr.1
    simp only [List.length_cons]
    omega
  · cases k with
    | zero => exact h.symm
    | succ k => exact hr.2 k

theorem firstFault_cons {entry : RewardEntry} (h : ofTokens? [x, y, v] = some entry)
    (hr : FirstFault (number + 1) rest e) : FirstFault number (x :: y :: v :: rest) e := by
  obtain ⟨k, before, fault⟩ := hr
  refine ⟨k + 1, fun j hj => ?_, by rwa [← Nat.add_assoc, Nat.add_right_comm]⟩
  cases j with
  | zero => simp [h]
  | succ j => exact before j (by omega)

theorem firstFault_zero (h : TripleFault number (tripleAt tokens 0) e) :
    FirstFault number tokens e :=
  ⟨0, fun _ hj => absurd hj (Nat.not_lt_zero _), h⟩

theorem readTriples_outcome (number : Nat) (table : StateRewards) (tokens : List (List Char)) :
    (∃ entries, Reads tokens entries ∧
        readTriples number table tokens = .ok (table.insertAll entries)) ∨
      ∃ e, FirstFault number tokens e ∧ readTriples number table tokens = .error e := by
  fun_induction readTriples number table tokens with
  | case1 number table => exact .inl ⟨[], reads_nil, rfl⟩
  | case2 number table x y v rest column hx row hy value hv ih =>
    have good : ofTokens? [x, y, v] = some ⟨column, row, value⟩ := by simp [ofTokens?, hx, hy, hv]
    rcases ih with ⟨entries, reads, hr⟩ | ⟨e, fault, hr⟩
    · exact .inl ⟨_, reads_cons good reads, hr⟩
    · exact .inr ⟨e, firstFault_cons good fault, hr⟩
  | case3 number table x y v rest column hx row hy hv =>
    have none := Option.eq_none_iff_forall_ne_some.mpr hv
    exact .inr ⟨_, firstFault_zero (.value (by simp [hx]) (by simp [hy]) none), rfl⟩
  | case4 number table x y v rest column hx hy =>
    have none := Option.eq_none_iff_forall_ne_some.mpr hy
    exact .inr ⟨_, firstFault_zero (.y (by simp [hx]) none), rfl⟩
  | case5 number table x y v rest hx =>
    have none := Option.eq_none_iff_forall_ne_some.mpr hx
    exact .inr ⟨_, firstFault_zero (.x none), rfl⟩
  | case6 number table tokens some short =>
    have few : tokens.length < 3 := by
      cases tokens with
      | nil => exact absurd rfl some
      | cons x tokens =>
        cases tokens with
        | nil => simp
        | cons y tokens =>
          cases tokens with
          | nil => simp
          | cons v rest => exact (short x y v rest rfl).elim
    have all : tripleAt tokens 0 = tokens := List.take_of_length_le (Nat.le_of_lt few)
    refine .inr ⟨_, firstFault_zero ?_, rfl⟩
    rw [all]
    exact .incomplete some few

theorem Reads.no_fault {entries : List RewardEntry} (hr : Reads tokens entries) :
    ¬ FirstFault number tokens e := by
  rintro ⟨k, before, fault⟩
  have past : entries.length ≤ k := List.getElem?_eq_none_iff.mp ((hr.2 k).trans fault.ofTokens?_eq)
  have some := List.length_pos_iff.mpr fault.ne_nil
  rw [length_tripleAt, hr.1] at some
  omega

theorem TripleFault.unique {e' : TextFault} (h : TripleFault number tokens e)
    (h' : TripleFault number tokens e') : e = e' := by
  cases h <;> cases h' <;> simp_all

theorem FirstFault.unique {e' : TextFault} (h : FirstFault number tokens e)
    (h' : FirstFault number tokens e') : e = e' := by
  obtain ⟨k, before, fault⟩ := h
  obtain ⟨k', before', fault'⟩ := h'
  have same : k = k' := by
    rcases Nat.lt_trichotomy k k' with earlier | same | later
    · simpa [fault.ofTokens?_eq] using before' k earlier
    · exact same
    · simpa [fault'.ofTokens?_eq] using before k' later
  subst same
  exact fault.unique fault'

theorem exists_reads : (∃ entries, Reads tokens entries) ↔ tokens.length % 3 = 0 ∧
    ∀ k < tokens.length / 3, (ofTokens? (tripleAt tokens k)).isSome = true := by
  constructor
  · rintro ⟨entries, count, reads⟩
    refine ⟨by omega, fun k hk => ?_⟩
    have inside : k < entries.length := by omega
    rw [← reads k, List.getElem?_eq_getElem inside]
    rfl
  · rintro ⟨whole, good⟩
    rcases readTriples_outcome 1 [] tokens with ⟨entries, reads, -⟩ | ⟨e, ⟨k, -, fault⟩, -⟩
    · exact ⟨entries, reads⟩
    · have some := List.length_pos_iff.mpr fault.ne_nil
      rw [length_tripleAt] at some
      have said := good k (by omega)
      rw [fault.ofTokens?_eq] at said
      cases said

/-- Escaped tokens are read back as they are. They are a table exactly if they fall into triples
of two coordinates and a number, and its values are then those of the last triples. Otherwise the
fault is that of the first triple that is wrong, by its number. -/
theorem escaped_rewards_read (tokens : List (List Char)) (text : List Char)
    (solid : ∀ token ∈ tokens, Solid token) (joined : Joined tokens text) :
    Text.fields (markSeparators text) = tokens ∧
      ((∃ table, readRewards text = .ok table) ↔ tokens.length % 3 = 0 ∧
        ∀ k < tokens.length / 3, (ofTokens? (tripleAt tokens k)).isSome = true) ∧
      (∀ table : StateRewards, readRewards text = .ok table →
        ∃ entries, (∀ k, entries[k]? = ofTokens? (tripleAt tokens k)) ∧ table.Records entries) ∧
      ∀ e, readRewards text = .error e ↔
        ∃ k, (∀ j < k, (ofTokens? (tripleAt tokens j)).isSome = true) ∧
          TripleFault (k + 1) (tripleAt tokens k) e := by
  have fields := fields_joined solid joined
  have first (e : TextFault) : FirstFault 1 tokens e ↔
      ∃ k, (∀ j < k, (ofTokens? (tripleAt tokens j)).isSome = true) ∧
        TripleFault (k + 1) (tripleAt tokens k) e := by
    simp only [FirstFault, Nat.add_comm 1]
  simp only [← first, ← exists_reads, readRewards, fields, true_and]
  rcases readTriples_outcome 1 [] tokens with ⟨entries, reads, hr⟩ | ⟨e, fault, hr⟩
  · rw [hr]
    refine ⟨by simpa using ⟨entries, reads⟩, fun table h => ?_, fun e => ?_⟩
    · cases h
      exact ⟨entries, reads.2, StateRewards.records_insertAll entries⟩
    · simpa using reads.no_fault
  · rw [hr]
    refine ⟨?_, fun table h => (by cases h), fun e' => ?_⟩
    · simpa using fun entries reads => Reads.no_fault reads fault
    · rw [Except.error.injEq]
      exact ⟨fun h => h ▸ fault, fault.unique⟩

theorem escaped_rewards_read_small :
    (Text.fields (markSeparators "1\n2;3\r4;x\\;\\\\y".toList) =
        [['1'], ['2'], ['3'], ['4'], ['x', ';', '\\', 'y']] ∧
      readRewards "1\n2;3\r4;x\\;\\\\y".toList = .error (.reward 2 .triple "4;x;\\y")) ∧
    ∃ table : StateRewards, readRewards "1;2;3\n1\r2;4.5".toList = .ok table ∧
      StateRewards.value? table 1 2 = some (Decimal.nearest 45 (-1)) := by
  have broken : Joined [['1'], ['2'], ['3'], ['4'], ['x', ';', '\\', 'y']]
      "1\n2;3\r4;x\\;\\\\y".toList :=
    .next ['1'] '\n' rfl (.next ['2'] ';' rfl (.next ['3'] '\r' rfl (.next ['4'] ';' rfl (.last _))))
  have whole : Joined [['1'], ['2'], ['3'], ['1'], ['2'], ['4', '.', '5']]
      "1;2;3\n1\r2;4.5".toList :=
    .next ['1'] ';' rfl (.next ['2'] ';' rfl (.next ['3'] '\n' rfl (.next ['1'] '\r' rfl
      (.next ['2'] ';' rfl (.last _)))))
  obtain ⟨tokens, -, -, faults⟩ := escaped_rewards_read _ _ (by decide) broken
  obtain ⟨-, ok, tables, -⟩ := escaped_rewards_read _ _ (by decide) whole
  refine ⟨⟨tokens, (faults _).mpr ⟨1, by decide, .incomplete (by decide) (by decide)⟩⟩, ?_⟩
  obtain ⟨table, h⟩ := ok.mpr ⟨by decide, by decide⟩
  obtain ⟨entries, said, records⟩ := tables table h
  have two : Reads [['1'], ['2'], ['3'], ['1'], ['2'], ['4', '.', '5']]
      [⟨1, 2, Decimal.nearest 3 0⟩, ⟨1, 2, Decimal.nearest 45 (-1)⟩] :=
    reads_cons rfl (reads_cons rfl reads_nil)
  have both := List.ext_getElem? fun k => (said k).trans (two.2 k).symm
  exact ⟨table, h, (records.latest 1 2).trans (by rw [both]; rfl)⟩

end TileWorld
