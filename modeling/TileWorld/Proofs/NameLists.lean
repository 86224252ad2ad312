import TileWorld.Proofs.TextLaws
import TileWorld.Settings

/-!
# Lists of names

What the table of upper-case forms writes is never empty, holds no blank and no comma, and starts
with a character that is its own upper case (`upper_head`, `upper_plain`). So a name that was read
is read again as it is (`IsName`), and a list of names reads the same after it was joined
(`readNames_intercalate`). A comma parts a text into two lists that are read on their own.
-/

namespace TileWorld

namespace Text

-- ---------------------------------------------------------------------------
-- Upper case
-- ---------------------------------------------------------------------------

def CaseRun.codes (r : CaseRun) : List Nat :=
  List.range' r.first ((r.last - r.first) / r.stride + 1) r.stride

theorem CaseRun.mem_codes {r : CaseRun} {n : Nat} (h : r.covers n = true) : n ∈ r.codes := by
  simp only [covers, Bool.and_eq_true, decide_eq_true_eq, beq_iff_eq] at h
  obtain ⟨⟨low, high⟩, whole⟩ := h
  refine List.mem_range'.mpr ⟨(n - r.first) / r.stride, ?_, ?_⟩
  · exact Nat.lt_succ_of_le (Nat.div_le_div_right (Nat.sub_le_sub_right high _))
  · have steps := Nat.div_add_mod (n - r.first) r.stride
    omega

def casedCodes : List Nat := caseExpansions.map Prod.fst ++ caseRuns.flatMap CaseRun.codes

def upperCodes : List (List Nat) :=
  caseExpansions.map Prod.snd ++
    caseRuns.flatMap fun r => r.codes.map fun n : Nat => [(n + r.shift).toNat]

def partingCodes : List Nat :=
  ','.toNat :: blankRanges.flatMap fun r => List.range' r.1 (r.2 - r.1 + 1)

theorem upper_cases (c : Char) :
    upper c = [c] ∨ ∃ codes ∈ upperCodes, upper c = codes.map Char.ofNat := by
  unfold upper
  split
  · rename_i codes found
    obtain ⟨before, after, table, -⟩ := List.lookup_eq_some_iff.mp found
    have row : (c.toNat, codes) ∈ caseExpansions := by simp [table]
    exact .inr ⟨codes, List.mem_append_left _ (List.mem_map_of_mem row), rfl⟩
  · split
    · rename_i r found
      have covered := List.find?_some found
      refine .inr ⟨[(c.toNat + r.shift).toNat], List.mem_append_right _ ?_, rfl⟩
      exact List.mem_flatMap.mpr ⟨r, List.mem_of_find?_eq_some found,
        List.mem_map.mpr ⟨c.toNat, CaseRun.mem_codes covered, rfl⟩⟩
    · exact .inl rfl

theorem upper_eq_self {c : Char} (h : c.toNat ∉ casedCodes) : upper c = [c] := by
  rw [casedCodes, List.mem_append, not_or, List.mem_flatMap] at h
  have alone : caseExpansions.lookup c.toNat = none := by
    refine List.lookup_eq_none_iff.mpr fun e he => ?_
    rw [bne_iff_ne]
    intro same
    exact h.1 (List.mem_map.mpr ⟨e, he, same.symm⟩)
  have uncovered : caseRuns.find? (·.covers c.toNat) = none :=
    List.find?_eq_none.mpr fun r hr covered => h.2 ⟨r, hr, CaseRun.mem_codes covered⟩
  rw [upper, alone, uncovered]

/-- A set of codes as the bits of one number, so that two sets are compared at once. -/
def codeSet (ns : List Nat) : Nat := ns.foldr (fun n set => 1 <<< n ||| set) 0

theorem testBit_codeSet {ns : List Nat} {n : Nat} (h : n ∈ ns) : (codeSet ns).testBit n = true := by
  induction ns with
  | nil => cases h
  | cons m ns ih =>
    rw [codeSet, List.foldr_cons, ← codeSet, Nat.testBit_or, Bool.or_eq_true]
    rcases List.mem_cons.mp h with rfl | h
    · exact .inl (by simp [Nat.testBit_shiftLeft])
    · exact .inr (ih h)

theorem not_mem_of_codeSet {ms ns : List Nat} (h : codeSet ms &&& codeSet ns = 0) {n : Nat}
    (hm : n ∈ ms) : n ∉ ns := by
  intro hn
  have both : (codeSet ms &&& codeSet ns).testBit n = true := by
    rw [Nat.testBit_and, testBit_codeSet hm, testBit_codeSet hn]
    rfl
  simp [h] at both

-- The table as a whole, some 1500 codes: nothing that it writes first has a row of its own, and
-- nothing that it writes parts a text.

theorem upperCodes_uncased :
    codeSet (upperCodes.filterMap List.head?) &&& codeSet casedCodes = 0 := by
  decide +kernel

theorem upperCodes_unparted : codeSet upperCodes.flatten &&& codeSet partingCodes = 0 := by
  decide +kernel

theorem upperCodes_full : [] ∉ upperCodes := by decide +kernel

theorem ofNat_not_mem {ns : List Nat} {n : Nat} (zero : 0 ∉ ns) (h : n ∉ ns) :
    (Char.ofNat n).toNat ∉ ns := by
  unfold Char.ofNat
  by_cases valid : n.isValidChar
  · rw [dif_pos valid]
    exact h
  · rw [dif_neg valid]
    exact zero

/-- The upper-case form of any character starts with a character that is its own upper case. -/
theorem upper_head (c : Char) : ∃ d rest, upper c = d :: rest ∧ upper d = [d] := by
  rcases upper_cases c with own | ⟨codes, row, written⟩
  · exact ⟨c, [], own, own⟩
  · cases codes with
    | nil => exact absurd row upperCodes_full
    | cons n codes =>
      have first : n ∈ upperCodes.filterMap List.head? := List.mem_filterMap.mpr ⟨_, row, rfl⟩
      refine ⟨Char.ofNat n, codes.map Char.ofNat, written, upper_eq_self ?_⟩
      exact ofNat_not_mem (by decide +kernel) (not_mem_of_codeSet upperCodes_uncased first)

structure Plain (c : Char) : Prop where
  notBlank : isBlank c = false
  notComma : c ≠ ','

theorem plain_of_toNat {c : Char} (h : c.toNat ∉ partingCodes) : Plain c := by
  rw [partingCodes, List.mem_cons, not_or, List.mem_flatMap] at h
  refine ⟨?_, fun comma => h.1 (congrArg Char.toNat comma)⟩
  rw [← Bool.not_eq_true]
  intro blank
  obtain ⟨r, hr, inside⟩ := List.any_eq_true.mp blank
  rw [Bool.and_eq_true, decide_eq_true_eq, decide_eq_true_eq] at inside
  refine h.2 ⟨r, hr, List.mem_range'.mpr ⟨c.toNat - r.1, ?_, ?_⟩⟩
  · omega
  · omega

theorem upper_plain {c d : Char} (hc : Plain c) (hd : d ∈ upper c) : Plain d := by
  rcases upper_cases c with own | ⟨codes, row, written⟩
  · rw [own, List.mem_singleton] at hd
    exact hd ▸ hc
  · rw [written, List.mem_map] at hd
    obtain ⟨n, hn, rfl⟩ := hd
    have inside : n ∈ upperCodes.flatten := List.mem_flatten.mpr ⟨codes, row, hn⟩
    apply plain_of_toNat
    exact ofNat_not_mem (by decide +kernel) (not_mem_of_codeSet upperCodes_unparted inside)

-- ---------------------------------------------------------------------------
-- Names
-- ---------------------------------------------------------------------------

/-- A name as a list holds it: a field of its own that starts with a character in upper case. -/
structure IsName (name : List Char) : Prop where
  solid : Solid name
  single : ',' ∉ name
  capital : ∀ c ∈ name.head?, upper c = [c]

theorem isName_capitalize {word : List Char} (hw : Solid word) (hc : ',' ∉ word) :
    IsName (capitalize word) := by
  obtain ⟨c, cs, rfl⟩ := List.exists_cons_of_ne_nil hw.full
  rw [List.mem_cons, not_or] at hc
  obtain ⟨d, rest, written, own⟩ := upper_head c
  have plain : ∀ e ∈ d :: rest, Plain e := fun e he =>
    upper_plain ⟨hw.first c rfl, Ne.symm hc.1⟩ (written ▸ he)
  rw [capitalize, written]
  refine ⟨⟨List.cons_ne_nil d _, ?_, fun e he => ?_⟩, fun comma => ?_, ?_⟩
  · rintro e ⟨⟩
    exact (plain d List.mem_cons_self).notBlank
  · -- the last character is that of the word, unless the word is one character long
    rw [List.getLast?_append] at he
    cases last : cs.getLast? with
    | none =>
      rw [last, Option.none_or] at he
      exact (plain e (List.mem_of_getLast? he)).notBlank
    | some f =>
      rw [last, Option.some_or] at he
      exact hw.last e (by rw [List.getLast?_cons, last]; exact he)
  · rcases List.mem_append.mp comma with comma | comma
    · exact (plain _ comma).notComma rfl
    · exact hc.2 comma
  · rintro e ⟨⟩
    exact own

theorem IsName.capitalize_eq {name : List Char} (h : IsName name) : capitalize name = name := by
  obtain ⟨c, cs, rfl⟩ := List.exists_cons_of_ne_nil h.solid.full
  rw [capitalize, h.capital c rfl, List.singleton_append]

theorem markCommas_append (front rest : List Char) :
    markCommas (front ++ ',' :: rest) = markCommas front ++ none :: markCommas rest := by
  rw [markCommas, List.map_append, List.map_cons, if_pos rfl, markCommas, markCommas]

theorem markCommas_eq {word : List Char} (h : ',' ∉ word) : markCommas word = word.map some := by
  refine List.map_congr_left fun c hc => if_neg ?_
  rintro rfl
  exact h hc

theorem comma_not_marked (cs : List Char) : some ',' ∉ markCommas cs := by
  intro marked
  obtain ⟨c, -, kept⟩ := List.mem_map.mp marked
  split at kept
  · cases kept
  · rename_i other
    exact other (Option.some.inj kept)

end Text

open Text (IsName Solid isBlank capitalize)

theorem readNames_append (text more : String) :
    readNames (text ++ "," ++ more) = readNames text ++ readNames more := by
  have marks : (text ++ "," ++ more).toList = text.toList ++ ',' :: more.toList := by simp
  rw [readNames, marks, Text.markCommas_append, Text.fields_append, List.map_append, readNames,
    readNames]

theorem readNames_padded {before word after : List Char} (hb : before.all isBlank = true)
    (ha : after.all isBlank = true) (hw : Solid word) (hc : ',' ∉ word) :
    readNames (String.ofList (before ++ (word ++ after))) = [String.ofList (capitalize word)] := by
  have blanks : ∀ pad : List Char, pad.all isBlank = true → ',' ∉ pad := by
    intro pad blank comma
    cases List.all_eq_true.mp blank _ comma
  have single : ',' ∉ before ++ (word ++ after) := by
    simp only [List.mem_append, not_or]
    exact ⟨blanks before hb, hc, blanks after ha⟩
  rw [readNames, String.toList_ofList, Text.markCommas_eq single, Text.fields_padded hb ha hw,
    List.map_singleton]

theorem isName_of_mem_readNames {text : String} {name : Role} (h : name ∈ readNames text) :
    IsName name.toList := by
  obtain ⟨word, field, rfl⟩ := List.mem_map.mp h
  obtain ⟨solid, inside⟩ := Text.solid_of_mem_fields field
  rw [String.toList_ofList]
  exact Text.isName_capitalize solid fun comma => Text.comma_not_marked _ (inside _ comma)

theorem readNames_name {name : Role} (h : IsName name.toList) : readNames name = [name] := by
  have alone := @readNames_padded [] name.toList [] rfl rfl h.solid h.single
  simpa [h.capitalize_eq] using alone

theorem readNames_intercalate {names : List Role} (h : ∀ name ∈ names, IsName name.toList) :
    readNames (",".intercalate names) = names := by
  induction names with
  | nil => rfl
  | cons name names ih =>
    rw [List.forall_mem_cons] at h
    cases names with
    | nil => rw [String.intercalate_singleton, readNames_name h.1]
    | cons next names =>
      rw [String.intercalate_cons_cons, readNames_append, readNames_name h.1, ih h.2,
        List.singleton_append]

/-- Reading a list of names normalizes it: the names that were read, joined by commas, are read
again as they are. None of them is empty, holds a comma, or has a blank at either end. Two lists
with a comma between them are read one after the other, and no name is lost: whatever its first
letter and the blanks around it, it is read in its capitalized form. -/
theorem names_normalize_once (text : String) :
    readNames (",".intercalate (readNames text)) = readNames text ∧
      (∀ name ∈ readNames text, IsName name.toList) ∧
      (∀ more, readNames (text ++ "," ++ more) = readNames text ++ readNames more) ∧
      ∀ before word after : List Char, before.all isBlank = true → after.all isBlank = true →
        Solid word → ',' ∉ word →
        readNames (String.ofList (before ++ (word ++ after))) = [String.ofList (capitalize word)] :=
  ⟨readNames_intercalate fun _ => isName_of_mem_readNames, fun _ => isName_of_mem_readNames,
    readNames_append text, fun _ _ _ => readNames_padded⟩

theorem names_normalize_once_mixed :
    readNames " ßeta,, red" = ["SSeta", "Red"] ∧
      readNames "SSeta,Red" = ["SSeta", "Red"] ∧ IsName "SSeta".toList ∧
      readNames (" ßeta,, red" ++ "," ++ "blue") = ["SSeta", "Red"] ++ readNames "blue" ∧
      readNames (String.ofList ([' '] ++ (['r', 'e', 'd'] ++ ['\t']))) = ["Red"] := by
  have read : readNames " ßeta,, red" = ["SSeta", "Red"] := by decide +kernel
  have join : ",".intercalate ["SSeta", "Red"] = "SSeta,Red" := by decide
  have red : String.ofList (capitalize ['r', 'e', 'd']) = "Red" := by decide +kernel
  obtain ⟨again, normal, appended, padded⟩ := names_normalize_once " ßeta,, red"
  rw [read] at again normal appended
  rw [join] at again
  refine ⟨read, again, normal "SSeta" (by simp), appended "blue", ?_⟩
  rw [padded [' '] ['r', 'e', 'd'] ['\t'] (by decide) (by decide) (by decide) (by decide), red]

end TileWorld
