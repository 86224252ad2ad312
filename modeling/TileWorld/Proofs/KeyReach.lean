import TileWorld.Proofs.OneWayEntries
import TileWorld.Proofs.Readings

/-!
# Keys within reach

An agent can pick up a key that lies one step away: in the direction it faces if it has a view, in
any direction otherwise. There is one formula for each color that keys have, and it says so of the
keys of that color (`keys_reached_by_facing`), as a tree and as a text.
-/

namespace TileWorld

namespace Position

def Beside (p q : Position) : Prop := (q.row - p.row).natAbs + (q.column - p.column).natAbs = 1

theorem beside_iff {p q : Position} : p.Beside q ↔ ∃ d, p.toward d = q := by
  obtain ⟨row, column⟩ := p
  obtain ⟨row', column'⟩ := q
  simp only [Beside, toward, shift]
  constructor
  · intro h
    have steps : (row' = row + 0 ∧ column' = column + 1) ∨
        (row' = row + 0 ∧ column' = column + -1) ∨ (row' = row + 1 ∧ column' = column + 0) ∨
        (row' = row + -1 ∧ column' = column + 0) := by
      omega
    rcases steps with ⟨rfl, rfl⟩ | ⟨rfl, rfl⟩ | ⟨rfl, rfl⟩ | ⟨rfl, rfl⟩
    · exact ⟨.east, rfl⟩
    · exact ⟨.west, rfl⟩
    · exact ⟨.south, rfl⟩
    · exact ⟨.north, rfl⟩
  · rintro ⟨d, h⟩
    cases d <;> simp only [mk.injEq] at h <;> omega

end Position

-- ---------------------------------------------------------------------------
-- Names
-- ---------------------------------------------------------------------------

def Role.isPlain (a : Role) : Bool := a.toList.all Text.isWord && !a.toList.head?.any Char.isDigit

namespace Symbol

variable {a : Role}

theorem spelled_hasKey (h : a.isPlain = true) (c : Color) : (flag (.hasKey a c)).Spelled := by
  simp only [Role.isPlain, Bool.and_eq_true, Bool.not_eq_true'] at h
  obtain ⟨words, start⟩ := h
  obtain ⟨rest, title⟩ : ∃ rest, (Trait.hasKey c).title.toList = '_' :: rest := by
    cases c <;> exact ⟨_, rfl⟩
  have letters := word_title (.hasKey c)
  rw [Spelled, ← Trait.symbol, Trait.name_symbol, String.toList_append]
  rw [title] at letters ⊢
  have keyword : String.ofList (a.toList ++ '_' :: rest) ∉ Text.keywords := by
    intro hk
    have blank : ∀ k ∈ Text.keywords, '_' ∉ k.toList := by decide
    exact blank _ hk (by simp)
  have first : (a.toList ++ '_' :: rest).head?.any Char.isDigit = false := by
    cases hl : a.toList with
    | nil => rfl
    | cons d ds => simpa [hl] using start
  have full : (a.toList ++ '_' :: rest).isEmpty = false := by simp
  have whole : (a.toList ++ '_' :: rest).all Text.isWord = true := by
    rw [List.all_append, words, letters, Bool.and_self]
  simp only [Text.isIdentifier, full, whole, first, List.contains_eq_mem, keyword, decide_false,
    Bool.not_false, Bool.and_self]

theorem spelled_counters (h : a.isPlain = true) :
    ∀ x ∈ [counter (.column a), counter (.row a), counter (.view a)], x.Spelled := by
  have words : a.toList.all Text.isWord = true := (Bool.and_eq_true _ _ ▸ h).1
  rw [List.forall_mem_cons, List.forall_mem_cons, List.forall_mem_singleton]
  exact ⟨isIdentifier_append (a := "x") (by decide) words,
    isIdentifier_append (a := "y") (by decide) words,
    isIdentifier_append (a := "view") (by decide) words⟩

end Symbol

-- ---------------------------------------------------------------------------
-- Conditions
-- ---------------------------------------------------------------------------

namespace Arena

variable {f : Arena} {a : Role} {withView : Bool} {c : Color} {s : State} {known : Facts}

def keyColors (f : Arena) : List Color :=
  Color.all.filter fun c => f.cells.any fun key => key.tile = .key && key.color = c

def keysOf (f : Arena) (c : Color) : List Cell :=
  f.cells.filter fun key => key.tile = .key && key.color = c

def HasKeyAt (f : Arena) (c : Color) (p : Position) : Prop :=
  ∃ key ∈ f.cells, key.tile = .key ∧ key.color = c ∧ key.position = p

/-- What the formula for picking up a key of the color says. -/
def pickUpCondition (f : Arena) (a : Role) (withView : Bool) (c : Color) : Expr :=
  .and .wide (.group (nearKey a withView (c, f.keysOf c))) (.not (.flag (.hasKey a c)))

theorem mem_keyColors : c ∈ f.keyColors ↔ ∃ key ∈ f.cells, key.tile = .key ∧ key.color = c := by
  simp [keyColors, Color.mem_all]

theorem mem_keysOf {key : Cell} :
    key ∈ f.keysOf c ↔ key ∈ f.cells ∧ key.tile = .key ∧ key.color = c := by
  simp [keysOf]

theorem keyGroups_eq (f : Arena) : f.keyGroups = f.keyColors.map fun c => (c, f.keysOf c) := by
  have keys (c : Color) : f.keys.filter (·.color = c) = f.keysOf c := by
    rw [keys, ofTile, List.filter_filter, keysOf]
    exact List.filter_congr fun key _ => Bool.and_comm _ _
  have present (c : Color) : (!(f.keysOf c).isEmpty) =
      f.cells.any fun key => key.tile = .key && key.color = c := by
    rw [Bool.eq_iff_iff]
    simp [keysOf, List.filter_eq_nil_iff]
  simp only [keyGroups, byColor, keys, List.filter_map, Function.comp_def, present, keyColors]

theorem formulas_keyColors (f : Arena) (a : Role) (withView : Bool) :
    Program.formulas (f.keyFormulas a withView) =
      f.keyColors.map fun c => (⟨a, .canPickUpKey c⟩, f.pickUpCondition a withView c) := by
  rw [formulas_keyFormulas, keyGroups_eq, List.map_map]
  rfl

theorem eval_pickUpCondition : (f.pickUpCondition a withView c).eval s known = true ↔
    s.flag (.hasKey a c) = false ∧ ∃ d, f.HasKeyAt c ((s.position a).toward d) ∧
      (withView = true → s.counter (.view a) = d.view) := by
  simp only [pickUpCondition, Expr.eval, nearKey, Expr.eval_anyOf, Bool.and_eq_true,
    List.any_eq_true, List.mem_flatMap, List.mem_map, Bool.not_eq_true', mem_keysOf]
  rw [and_comm]
  refine and_congr_right fun _ => ?_
  constructor
  · rintro ⟨_, ⟨key, ⟨hk, tile, color⟩, d, -, rfl⟩, reached⟩
    obtain ⟨ahead, facing⟩ := (eval_reaches _ _ _ _).mp reached
    exact ⟨d, ⟨key, hk, tile, color, ahead.symm⟩, facing⟩
  · rintro ⟨d, ⟨key, hk, tile, color, ahead⟩, facing⟩
    exact ⟨_, ⟨key, ⟨hk, tile, color⟩, d, d.mem_all, rfl⟩,
      (eval_reaches _ _ _ _).mpr ⟨ahead.symm, facing⟩⟩

/-- A key is reached in one direction at most. -/
theorem reaches_unique {key : Position} {d e : Direction}
    (hd : (a.reaches withView key d).eval s known = true)
    (he : (a.reaches withView key e).eval s known = true) : d = e := by
  obtain ⟨stepd, -⟩ := (eval_reaches _ _ _ _).mp hd
  obtain ⟨stepe, -⟩ := (eval_reaches _ _ _ _).mp he
  exact Position.toward_inj.mp (stepd.trans stepe.symm)

theorem grouped_pickUpCondition : (f.pickUpCondition a withView c).grouped = true := by
  have near : (nearKey a withView (c, f.keysOf c)).grouped = true := by
    refine Expr.grouped_anyOf fun e he => ?_
    obtain ⟨key, -, he⟩ := List.mem_flatMap.mp he
    obtain ⟨d, -, rfl⟩ := List.mem_map.mp he
    cases withView <;> rfl
  simp [pickUpCondition, Expr.grouped, Expr.rank, near]

theorem symbols_reaches (key : Position) (d : Direction) :
    (a.reaches withView key d).symbols ⊆
      [.counter (.column a), .counter (.row a), .counter (.view a)] := by
  cases withView <;> simp [Role.reaches, Expr.symbols, Term.symbols]

theorem spelled_pickUpCondition (plain : a.isPlain = true) :
    ∀ x ∈ (f.pickUpCondition a withView c).symbols, x.Spelled := by
  simp only [pickUpCondition, Expr.symbols, List.forall_mem_append, List.forall_mem_singleton]
  refine ⟨fun x hx => ?_, Symbol.spelled_hasKey plain c⟩
  rw [nearKey, Expr.symbols_anyOf] at hx
  obtain ⟨e, he, hx⟩ := List.mem_flatMap.mp hx
  obtain ⟨key, -, he⟩ := List.mem_flatMap.mp he
  obtain ⟨d, -, rfl⟩ := List.mem_map.mp he
  exact Symbol.spelled_counters plain x (symbols_reaches key.position d hx)

end Arena

/-- The formulas for picking up keys. Each color that keys have has one, and it asks for no key of
the color being held and for one of them a step away: with a view, the step that the agent
faces. -/
theorem keys_reached_by_facing (f : Arena) (a : Role) (withView : Bool) :
    (Program.formulas (f.keyFormulas a withView) =
        f.keyColors.map fun c => (⟨a, .canPickUpKey c⟩, f.pickUpCondition a withView c)) ∧
      f.keyColors.Nodup ∧
      (∀ c, c ∈ f.keyColors ↔ ∃ key ∈ f.cells, key.tile = .key ∧ key.color = c) ∧
      (∀ (c : Color) (s : State) (known : Facts), withView = true →
        0 ≤ s.counter (.view a) → s.counter (.view a) ≤ 3 →
        ∃ d : Direction, s.counter (.view a) = d.view ∧
          (∀ e : Direction, s.counter (.view a) = e.view → e = d) ∧
          ((f.pickUpCondition a withView c).eval s known = true ↔
            s.flag (.hasKey a c) = false ∧ f.HasKeyAt c ((s.position a).toward d))) ∧
      (∀ (c : Color) (s : State) (known : Facts), withView = false →
        ((f.pickUpCondition a withView c).eval s known = true ↔
          s.flag (.hasKey a c) = false ∧ ∃ p, (s.position a).Beside p ∧ f.HasKeyAt c p)) ∧
      (∀ s known key d e, (a.reaches withView key d).eval s known = true →
        (a.reaches withView key e).eval s known = true → d = e) ∧
      (a.isPlain = true → ∀ c (v : Valuation),
        v.read (f.pickUpCondition a withView c).render.toList =
          some ((f.pickUpCondition a withView c).eval v.state v.facts)) := by
  refine ⟨f.formulas_keyColors a withView, ?_, fun c => Arena.mem_keyColors, ?_, ?_, ?_, ?_⟩
  · exact List.Nodup.filter _ (by decide)
  · intro c s known sees low high
    obtain ⟨d, facing⟩ := Direction.exists_view low high
    have unique (e : Direction) (he : s.counter (.view a) = e.view) : e = d :=
      Direction.view_inj.mp (he.symm.trans facing)
    refine ⟨d, facing, unique, ?_⟩
    rw [Arena.eval_pickUpCondition]
    refine and_congr_right fun _ => ⟨?_, fun key => ⟨d, key, fun _ => facing⟩⟩
    rintro ⟨e, key, ahead⟩
    exact unique e (ahead sees) ▸ key
  · intro c s known blind
    rw [Arena.eval_pickUpCondition]
    refine and_congr_right fun _ => ⟨?_, ?_⟩
    · rintro ⟨d, key, -⟩
      exact ⟨_, Position.beside_iff.mpr ⟨d, rfl⟩, key⟩
    · rintro ⟨p, near, key⟩
      obtain ⟨d, rfl⟩ := Position.beside_iff.mp near
      exact ⟨d, key, fun sees => by rw [blind] at sees; cases sees⟩
  · exact fun s known key d e => Arena.reaches_unique
  · intro plain c v
    exact Valuation.read_render Arena.grouped_pickUpCondition
      (Arena.spelled_pickUpCondition plain) fun x _ => v.agrees_state x

def keyRoom : List Cell :=
  (Position.rectangle 3 5).map fun p =>
    ⟨p, if p = ⟨2, 3⟩ then .agent else if p = ⟨2, 2⟩ ∨ p = ⟨2, 4⟩ then .key else .wall,
      if p = ⟨2, 4⟩ then .blue else .red⟩

def keyRoomWest : Valuation where
  number name := if name = "xAgent" then 3 else 2
  truth _ := false

theorem keys_reached_by_facing_west :
    ∃ f, Arena.build keyRoom [] {} [] = .ok f ∧ f.keyColors = [.red, .blue] ∧
      Role.lead.isPlain = true ∧
      keyRoomWest.read (f.pickUpCondition Role.lead true .red).render.toList = some true ∧
      keyRoomWest.read (f.pickUpCondition Role.lead true .blue).render.toList = some false := by
  obtain ⟨f, hb, cells, colors⟩ : ∃ f, Arena.build keyRoom [] {} [] = .ok f ∧ f.cells = keyRoom ∧
      f.keyColors = [.red, .blue] :=
    ⟨_, rfl, rfl, rfl⟩
  have plain : Role.lead.isPlain = true := by decide
  obtain ⟨-, -, -, facing, -, -, text⟩ := keys_reached_by_facing f Role.lead true
  have value (c : Color) : (f.pickUpCondition Role.lead true c).eval keyRoomWest.state
      keyRoomWest.facts = true ↔ f.HasKeyAt c ⟨2, 2⟩ := by
    obtain ⟨d, -, unique, holds⟩ := facing c keyRoomWest.state keyRoomWest.facts rfl (by decide)
      (by decide)
    obtain rfl := unique .west rfl
    exact holds.trans (and_iff_right rfl)
  have red : f.HasKeyAt .red ⟨2, 2⟩ := by
    rw [Arena.HasKeyAt, cells]
    decide
  have blue : ¬ f.HasKeyAt .blue ⟨2, 2⟩ := by
    rw [Arena.HasKeyAt, cells]
    decide
  refine ⟨f, hb, colors, plain, ?_, ?_⟩
  · rw [text plain, (value .red).mpr red]
  · rw [text plain, Bool.eq_false_iff.mpr fun h => blue ((value .blue).mp h)]

end TileWorld
