import TileWorld.Proofs.KeyReach

/-!
# Positions as texts

Where an agent stands is written as one clause for each position. Read as a condition, the text
holds exactly at these positions, and the positions can be read off it one by one
(`standsOn_faithful`).
-/

namespace TileWorld

-- ---------------------------------------------------------------------------
-- Clauses
-- ---------------------------------------------------------------------------

theorem Text.cut_unique {x : Char} {u v : List Char} (hu : x ∉ u) (hv : x ∉ v)
    {after after' : List Char} (h : u ++ x :: after = v ++ x :: after') :
    u = v ∧ after = after' := by
  induction u generalizing v with
  | nil =>
    cases v with
    | nil => exact ⟨rfl, (List.cons.inj h).2⟩
    | cons d v => exact absurd (List.cons.inj h).1 (List.ne_of_not_mem_cons hv)
  | cons c u ih =>
    cases v with
    | nil => exact absurd (List.cons.inj h).1.symm (List.ne_of_not_mem_cons hu)
    | cons d v =>
      obtain ⟨rfl, rest⟩ := List.cons.inj h
      have hu' := List.not_mem_of_not_mem_cons hu
      obtain ⟨rfl, same⟩ := ih hu' (List.not_mem_of_not_mem_cons hv) rest
      exact ⟨rfl, same⟩

theorem repr_unique {x : Char} (hx : Text.isWord x = false ∧ x ≠ '+' ∧ x ≠ '-') {m n : Int}
    {after after' : List Char}
    (h : m.repr.toList ++ x :: after = n.repr.toList ++ x :: after') : m = n ∧ after = after' := by
  have absent (k : Int) : x ∉ k.repr.toList := by
    intro hk
    have spelled : ∀ y ∈ (Term.constant k).symbols, y.Spelled := by simp [Term.symbols]
    rcases Valuation.mem_term spelled hk with word | plus | minus
    · rw [hx.1] at word
      cases word
    · exact hx.2.1 plus
    · exact hx.2.2 minus
  obtain ⟨same, rest⟩ := Text.cut_unique (absent m) (absent n) h
  have v : Valuation := ⟨fun _ => 0, fun _ => false⟩
  have value := v.term?_int m
  rw [same, v.term?_int] at value
  exact ⟨(Option.some.inj value).symm, rest⟩

namespace Role

variable {a : Role} {p q : Position}

theorem render_isAtPosition (a : Role) (p : Position) :
    (Expr.isAtPosition a p).render = a.clause p := by
  apply String.ext
  simp [Expr.isAtPosition, Expr.isAt, Expr.isValue, Expr.render, Term.render, Term.ofCounter,
    Counter.name, clause]

/-- Whatever follows a clause, its position and the rest can be told. -/
theorem clause_unique {u v : List Char}
    (h : (a.clause p).toList ++ u = (a.clause q).toList ++ v) : p = q ∧ u = v := by
  have parts (p : Position) (rest : List Char) : (a.clause p).toList ++ rest =
      ("(x" ++ a ++ "=").toList ++ (p.column.repr.toList ++ '&' ::
        (("y" ++ a ++ "=").toList ++ (p.row.repr.toList ++ ')' :: rest))) := by
    simp [clause]
  rw [parts, parts] at h
  obtain ⟨columns, after⟩ := repr_unique (by decide) (List.append_cancel_left h)
  obtain ⟨rows, rest⟩ := repr_unique (by decide) (List.append_cancel_left after)
  exact ⟨congrArg₂ Position.mk rows columns, rest⟩

end Role

-- ---------------------------------------------------------------------------
-- Lists of clauses
-- ---------------------------------------------------------------------------

namespace Expr

theorem render_anyOf {es : List Expr} (full : es ≠ []) :
    (anyOf es).render = String.intercalate " | " (es.map render) := by
  induction es with
  | nil => exact absurd rfl full
  | cons e es ih =>
    cases es with
    | nil => rfl
    | cons e' es =>
      change e.render ++ " | " ++ (anyOf (e' :: es)).render = _
      rw [ih (List.cons_ne_nil e' es)]
      exact (String.intercalate_cons_cons ..).symm

def clausesAfter (a : Role) : List Position → List Char
  | [] => []
  | ps => " | ".toList ++ (isAtAny a ps).render.toList

theorem render_isAtAny_cons (a : Role) (p : Position) (ps : List Position) :
    (isAtAny a (p :: ps)).render.toList = (a.clause p).toList ++ clausesAfter a ps := by
  cases ps with
  | nil => simp [isAtAny, anyOf, clausesAfter, Role.render_isAtPosition]
  | cons q ps => simp [isAtAny, anyOf, clausesAfter, render, Role.render_isAtPosition]

theorem render_isAtAny_inj {a : Role} {ps qs : List Position} :
    (isAtAny a ps).render = (isAtAny a qs).render ↔ ps = qs := by
  refine ⟨fun h => ?_, fun h => by rw [h]⟩
  have text := congrArg String.toList h
  -- No clause starts like the word for the empty list.
  have empty (q : Position) (qs : List Position) :
      (isAtAny a []).render.toList ≠ (isAtAny a (q :: qs)).render.toList := by
    rw [render_isAtAny_cons]
    simp [isAtAny, anyOf, render, Role.clause]
  induction ps generalizing qs with
  | nil =>
    cases qs with
    | nil => rfl
    | cons q qs => exact absurd text (empty q qs)
  | cons p ps ih =>
    cases qs with
    | nil => exact absurd text.symm (empty p ps)
    | cons q qs =>
      rw [render_isAtAny_cons, render_isAtAny_cons] at text
      obtain ⟨rfl, rest⟩ := Role.clause_unique text
      cases ps with
      | nil =>
        cases qs with
        | nil => rfl
        | cons => cases rest
      | cons p' ps =>
        cases qs with
        | nil => cases rest
        | cons q' qs =>
          have tail := List.append_cancel_left rest
          rw [ih (String.toList_inj.mp tail) tail]

end Expr

namespace Role

theorem clause_ne_empty (a : Role) (p : Position) : a.clause p ≠ "" := by
  intro h
  have text := congrArg String.toList h
  simp [clause] at text

/-- Once there is a text, every clause is set off from it. -/
theorem foldl_withClause {text : String} (full : text ≠ "") (clauses : List String) :
    clauses.foldl withClause text = String.intercalate " | " (text :: clauses) := by
  induction clauses generalizing text with
  | nil => exact String.toList_inj.mp (by simp)
  | cons clause clauses ih =>
    have step : withClause text clause = text ++ " | " ++ clause := by
      rw [withClause, if_neg (by simpa using full)]
    have more : text ++ " | " ++ clause ≠ "" := by simp [full]
    rw [List.foldl_cons, step, ih more]
    refine String.toList_inj.mp ?_
    cases clauses <;> simp

theorem render_standsOn_cons (a : Role) (c : Cell) (cells : List Cell) :
    (a.standsOn (c :: cells)).render =
      String.intercalate " | " ((c :: cells).map fun c => a.clause c.position) := by
  rw [standsOn, Expr.isAtAny, Expr.render_anyOf (by simp), List.map_map, List.map_map]
  exact congrArg _ (List.map_congr_left fun c _ => a.render_isAtPosition c.position)

theorem render_standsOn (a : Role) (cells : List Cell) :
    (a.standsOn cells).render = a.disjunction cells := by
  cases cells with
  | nil => rfl
  | cons c cells =>
    have first := a.clause_ne_empty c.position
    have text := foldl_withClause first (cells.map fun c => a.clause c.position)
    have full : String.intercalate " | " ((c :: cells).map fun c => a.clause c.position) ≠ "" := by
      intro empty
      have letters := congrArg String.toList empty
      cases cells <;> simp [first] at letters
    rw [render_standsOn_cons, disjunction]
    change _ = if ((cells.map fun c => a.clause c.position).foldl withClause
      (a.clause c.position)).isEmpty then "false" else _
    rw [text, if_neg (by simpa using full)]
    exact text.symm

end Role

theorem read_standsOn {a : Role} (letters : a.toList.all Text.isWord = true) (cells : List Cell)
    (v : Valuation) : v.read (a.standsOn cells).render.toList = some (decide (∃ c ∈ cells,
      c.position.column = v.number ("x" ++ a) ∧ c.position.row = v.number ("y" ++ a))) := by
  have grouped : (a.standsOn cells).grouped = true :=
    Expr.grouped_anyOf (List.forall_mem_map.mpr fun _ _ => rfl)
  have spelled : ∀ x ∈ (a.standsOn cells).symbols, x.Spelled := by
    intro x hx
    have own : x = .counter (.column a) ∨ x = .counter (.row a) := by
      simp only [Role.standsOn, Expr.isAtAny, Expr.symbols_anyOf, List.mem_flatMap,
        List.mem_map] at hx
      obtain ⟨_, ⟨p, -, rfl⟩, hx⟩ := hx
      simpa [Expr.isAtPosition, Expr.isAt, Expr.isValue, Expr.symbols, Term.symbols,
        Term.ofCounter] using hx
    rcases own with rfl | rfl
    · exact Symbol.isIdentifier_append (a := "x") (by decide) letters
    · exact Symbol.isIdentifier_append (a := "y") (by decide) letters
  rw [Valuation.read_render grouped spelled fun x _ => v.agrees_state x, Option.some.injEq,
    Bool.eq_iff_iff, eval_standsOn, decide_eq_true_eq, List.mem_map]
  refine exists_congr fun c => and_congr_right fun _ => ?_
  have here : v.state.position a = ⟨v.number ("y" ++ a), v.number ("x" ++ a)⟩ := rfl
  rw [here]
  constructor
  · intro h
    rw [h]
    exact ⟨rfl, rfl⟩
  · rintro ⟨column, row⟩
    rw [← column, ← row]

/-- Where an agent stands, as a text. Collected clause by clause, it is `false` or the clauses of
the cells one after the other. For a name of letters, digits and underscores the text is a
condition, which holds exactly where some cell has the column and row that the agent's variables
have. Cells at different positions or in a different order have a different text. -/
theorem standsOn_faithful (a : Role) (cells : List Cell) :
    (a.standsOn cells).render = a.disjunction cells ∧ (a.standsOn []).render = "false" ∧
      (cells ≠ [] → (a.standsOn cells).render = String.intercalate " | " (cells.map fun c =>
        "(x" ++ a ++ "=" ++ c.position.column.repr ++ "&y" ++ a ++ "=" ++ c.position.row.repr ++
          ")")) ∧
      (a.toList.all Text.isWord = true → ∀ v : Valuation,
        v.read (a.standsOn cells).render.toList = some (decide (∃ c ∈ cells,
          c.position.column = v.number ("x" ++ a) ∧ c.position.row = v.number ("y" ++ a)))) ∧
      ∀ others : List Cell, (a.standsOn cells).render = (a.standsOn others).render ↔
        cells.map (·.position) = others.map (·.position) := by
  refine ⟨a.render_standsOn cells, rfl, fun full => ?_,
    fun letters v => read_standsOn letters cells v, fun others => Expr.render_isAtAny_inj⟩
  obtain ⟨c, cells, rfl⟩ := List.exists_cons_of_ne_nil full
  exact a.render_standsOn_cons c cells

theorem standsOn_faithful_pair :
    ∃ cells : List Cell, cells.map (·.position) = [⟨2, 3⟩, ⟨-1, 0⟩] ∧
      (Role.standsOn "Agent" cells).render = "(xAgent=3&yAgent=2) | (xAgent=0&yAgent=-1)" ∧
      Valuation.read ⟨fun name => if name = "xAgent" then 0 else -1, fun _ => false⟩
        (Role.standsOn "Agent" cells).render.toList = some true ∧
      (Role.standsOn "Agent" cells).render ≠ (Role.standsOn "Agent" cells.reverse).render := by
  obtain ⟨-, -, text, read, same⟩ := standsOn_faithful "Agent"
    [⟨⟨2, 3⟩, .goal, .green⟩, ⟨⟨-1, 0⟩, .floor, .red⟩]
  refine ⟨[⟨⟨2, 3⟩, .goal, .green⟩, ⟨⟨-1, 0⟩, .floor, .red⟩], rfl, ?_, ?_, fun h => ?_⟩
  · rw [text (by simp)]
    decide
  · rw [read (by decide)]
    decide
  · exact absurd ((same _).mp h) (by decide)

end TileWorld
