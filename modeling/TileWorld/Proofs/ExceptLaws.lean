import Mathlib.Data.List.Forall2

/-!
# Computations that can fail

When a computation succeeds, its parts do, with results that fit together (`bind_eq_ok`,
`mapM_eq_ok`, `forM_eq_ok`). When a check of a list fails, it is at the first element that does
not pass (`forM_eq_error`), and a fold fails after the elements before (`foldlM_eq_error`). The
same is said of computations that also change a state (`run_bind_eq_ok`, `run_mapM_eq_ok`).
Two computations made of matching parts match (`Matching`).
-/

namespace TileWorld

variable {ε ε' α β : Type}

theorem bind_eq_ok {x : Except ε α} {f : α → Except ε β} {b : β} :
    x >>= f = .ok b ↔ ∃ a, x = .ok a ∧ f a = .ok b := by
  cases x <;> simp [bind, Except.bind]

theorem bind_eq_error {x : Except ε α} {f : α → Except ε β} {e : ε} :
    x >>= f = .error e ↔ x = .error e ∨ ∃ a, x = .ok a ∧ f a = .error e := by
  cases x <;> simp [bind, Except.bind]

theorem pure_eq_ok {a b : α} : (pure a : Except ε α) = .ok b ↔ a = b := by
  simp [pure, Except.pure]

theorem pure_eq_error {a : α} {e : ε} : (pure a : Except ε α) = .error e ↔ False := by
  simp [pure, Except.pure]

theorem mapError_eq_ok {g : ε → ε'} {x : Except ε α} {a : α} :
    x.mapError g = .ok a ↔ x = .ok a := by
  constructor
  · intro h
    cases x with
    | error e => cases h
    | ok b => exact congrArg Except.ok (Except.ok.inj h)
  · rintro rfl
    rfl

theorem mapError_eq_error {g : ε → ε'} {x : Except ε α} {e : ε'} :
    x.mapError g = .error e ↔ ∃ e', x = .error e' ∧ g e' = e := by
  constructor
  · intro h
    cases x with
    | error e' => exact ⟨e', rfl, Except.error.inj h⟩
    | ok b => cases h
  · rintro ⟨e', rfl, rfl⟩
    rfl

theorem mapM_eq_ok {f : α → Except ε β} {l : List α} {r : List β} :
    l.mapM f = .ok r ↔ List.Forall₂ (fun a b => f a = .ok b) l r := by
  induction l generalizing r with
  | nil => rw [List.mapM_nil, pure_eq_ok, List.forall₂_nil_left_iff, eq_comm]
  | cons a l ih =>
    simp only [List.mapM_cons, bind_eq_ok, pure_eq_ok, ih, List.forall₂_cons_left_iff]
    constructor
    · rintro ⟨b, hb, bs, hbs, rfl⟩
      exact ⟨b, bs, hb, hbs, rfl⟩
    · rintro ⟨b, bs, hb, hbs, rfl⟩
      exact ⟨b, hb, bs, hbs, rfl⟩

/-- A traversal that asks of every element whether it is fit, and then cannot fail. -/
theorem mapM_eq_ok_map {f : α → Except ε β} {fit : α → Prop} {g : α → β} {l : List α} {r : List β}
    (h : ∀ a ∈ l, ∀ b, f a = .ok b ↔ fit a ∧ b = g a) :
    l.mapM f = .ok r ↔ (∀ a ∈ l, fit a) ∧ r = l.map g := by
  rw [mapM_eq_ok]
  induction l generalizing r with
  | nil => simp
  | cons a l ih =>
    have rest := fun r => ih (r := r) fun b hb => h b (List.mem_cons_of_mem _ hb)
    simp only [List.forall₂_cons_left_iff, h a List.mem_cons_self, rest, List.forall_mem_cons,
      List.map_cons]
    constructor
    · rintro ⟨b, bs, ⟨ha, rfl⟩, ⟨hl, rfl⟩, rfl⟩
      exact ⟨⟨ha, hl⟩, rfl⟩
    · rintro ⟨⟨ha, hl⟩, rfl⟩
      exact ⟨_, _, ⟨ha, rfl⟩, ⟨hl, rfl⟩, rfl⟩

theorem forM_eq_ok {f : α → Except ε Unit} {l : List α} :
    l.forM f = .ok () ↔ ∀ a ∈ l, f a = .ok () := by
  induction l with
  | nil => simp [List.forM, pure_eq_ok]
  | cons a l ih =>
    simp only [List.forM, bind_eq_ok, ih, List.forall_mem_cons]
    constructor
    · rintro ⟨_, ha, hl⟩
      exact ⟨ha, hl⟩
    · rintro ⟨ha, hl⟩
      exact ⟨(), ha, hl⟩

theorem forM_eq_error {f : α → Except ε Unit} {l : List α} {e : ε} :
    l.forM f = .error e ↔
      ∃ before a after, l = before ++ a :: after ∧ (∀ b ∈ before, f b = .ok ()) ∧
        f a = .error e := by
  induction l with
  | nil => simp [List.forM, pure_eq_error]
  | cons a l ih =>
    simp only [List.forM, bind_eq_error, ih]
    constructor
    · rintro (ha | ⟨_, ha, before, b, after, rfl, hbefore, hb⟩)
      · exact ⟨[], a, l, rfl, by simp, ha⟩
      · exact ⟨a :: before, b, after, rfl, by simpa [ha] using hbefore, hb⟩
    · rintro ⟨before, b, after, hl, hbefore, hb⟩
      cases before with
      | nil =>
        cases hl
        exact .inl hb
      | cons c before =>
        cases hl
        exact .inr ⟨(), hbefore a (by simp), before, b, after, rfl,
          fun d hd => hbefore d (by simp [hd]), hb⟩

theorem foldlM_eq_error {f : β → α → Except ε β} {l : List α} {b : β} {e : ε} :
    l.foldlM f b = .error e ↔
      ∃ before a after b', l = before ++ a :: after ∧ before.foldlM f b = .ok b' ∧
        f b' a = .error e := by
  induction l generalizing b with
  | nil => simp [pure_eq_error]
  | cons a l ih =>
    simp only [List.foldlM_cons, bind_eq_error, ih]
    constructor
    · rintro (ha | ⟨b', ha, before, c, after, b'', rfl, hbefore, hc⟩)
      · exact ⟨[], a, l, b, rfl, rfl, ha⟩
      · exact ⟨a :: before, c, after, b'', rfl, bind_eq_ok.mpr ⟨b', ha, hbefore⟩, hc⟩
    · rintro ⟨before, c, after, b'', hl, hbefore, hc⟩
      cases before with
      | nil =>
        cases hl
        cases pure_eq_ok.mp hbefore
        exact .inl hc
      | cons d before =>
        cases hl
        obtain ⟨b', ha, hbefore⟩ := bind_eq_ok.mp hbefore
        exact .inr ⟨b', ha, before, c, after, b'', rfl, hbefore, hc⟩

-- ---------------------------------------------------------------------------
-- Computations with a state
-- ---------------------------------------------------------------------------

section State

variable {σ : Type} {s t : σ}

theorem run_bind (x : ExceptT ε (StateM σ) α) (next : α → ExceptT ε (StateM σ) β) (s : σ) :
    (x >>= next).run.run s = match x.run.run s with
      | (.ok a, t) => (next a).run.run t
      | (.error e, t) => (.error e, t) := by
  simp only [bind, ExceptT.bind, ExceptT.mk, ExceptT.run, StateT.run, StateT.bind]
  cases x s with
  | mk result t => cases result <;> rfl

theorem run_bind_eq_ok {x : ExceptT ε (StateM σ) α} {next : α → ExceptT ε (StateM σ) β} {b : β} :
    (x >>= next).run.run s = (.ok b, t) ↔
      ∃ a u, x.run.run s = (.ok a, u) ∧ (next a).run.run u = (.ok b, t) := by
  rw [run_bind]
  cases x.run.run s with
  | mk result u =>
    constructor
    · cases result with
      | error e => intro h; cases h
      | ok a => exact fun h => ⟨a, u, rfl, h⟩
    · rintro ⟨a, v, ⟨⟩, h⟩
      exact h

theorem run_pure (a : α) (s : σ) : (pure a : ExceptT ε (StateM σ) α).run.run s = (.ok a, s) := rfl

theorem run_lift (x : Except ε α) (s : σ) :
    (liftM x : ExceptT ε (StateM σ) α).run.run s = (x, s) := rfl

theorem run_pure_eq_ok {a b : α} :
    (pure a : ExceptT ε (StateM σ) α).run.run s = (.ok b, t) ↔ a = b ∧ s = t := by
  change ((.ok a, s) : Except ε α × σ) = (.ok b, t) ↔ _
  rw [Prod.mk.injEq, Except.ok.injEq]

theorem run_lift_eq_ok {x : Except ε α} {a : α} :
    (liftM x : ExceptT ε (StateM σ) α).run.run s = (.ok a, t) ↔ x = .ok a ∧ s = t := by
  change ((x, s) : Except ε α × σ) = (.ok a, t) ↔ _
  rw [Prod.mk.injEq]

theorem run_eq_ok_congr {x : ExceptT ε (StateM σ) α} {a b : α} {u : σ}
    (h : x.run.run s = (.ok a, t)) : x.run.run s = (.ok b, u) ↔ b = a ∧ u = t := by
  rw [h]
  change ((.ok a, t) : Except ε α × σ) = (.ok b, u) ↔ _
  rw [Prod.mk.injEq, Except.ok.injEq, eq_comm, @eq_comm _ t]

theorem run_fst_eq_ok {x : ExceptT ε (StateM σ) α} {a : α} :
    (x.run.run s).1 = .ok a ↔ ∃ t, x.run.run s = (.ok a, t) := by
  constructor
  · exact fun h => ⟨_, Prod.ext h rfl⟩
  · rintro ⟨t, h⟩
    rw [h]

theorem run_mapM {g : α → ExceptT ε (StateM σ) β} {h : α → β} {step : σ → α → σ}
    (each : ∀ a s, (g a).run.run s = (.ok (h a), step s a)) (l : List α) (s : σ) :
    (l.mapM g).run.run s = (.ok (l.map h), l.foldl step s) := by
  induction l generalizing s with
  | nil => rfl
  | cons a l ih =>
    simp only [List.mapM_cons, run_bind, each, ih, run_pure, List.map_cons, List.foldl_cons]

theorem run_mapM_eq_ok {g : α → ExceptT ε (StateM σ) β} {fit : α → Prop} {h : α → β}
    {step : σ → α → σ} {l : List α} {bs : List β}
    (each : ∀ a ∈ l, ∀ s b t, (g a).run.run s = (.ok b, t) ↔ fit a ∧ b = h a ∧ t = step s a) :
    (l.mapM g).run.run s = (.ok bs, t) ↔
      (∀ a ∈ l, fit a) ∧ bs = l.map h ∧ t = l.foldl step s := by
  induction l generalizing s t bs with
  | nil =>
    rw [List.mapM_nil, run_pure_eq_ok, eq_comm, @eq_comm _ s]
    simp
  | cons a l ih =>
    have rest := fun s t bs => @ih s t bs fun b hb => each b (List.mem_cons_of_mem _ hb)
    simp only [List.mapM_cons, run_bind_eq_ok, run_pure_eq_ok, each a List.mem_cons_self, rest,
      List.forall_mem_cons, List.map_cons, List.foldl_cons]
    constructor
    · rintro ⟨_, _, ⟨ha, rfl, rfl⟩, _, _, ⟨hl, rfl, rfl⟩, rfl, rfl⟩
      exact ⟨⟨ha, hl⟩, rfl, rfl⟩
    · rintro ⟨⟨ha, hl⟩, rfl, rfl⟩
      exact ⟨_, _, ⟨ha, rfl, rfl⟩, _, _, ⟨hl, rfl, rfl⟩, rfl, rfl⟩

end State

-- ---------------------------------------------------------------------------
-- Two computations
-- ---------------------------------------------------------------------------

/-- Two computations fail with the same fault or succeed with related results. -/
inductive Matching (R : α → β → Prop) : Except ε α → Except ε β → Prop
  | ok {a : α} {b : β} (h : R a b) : Matching R (.ok a) (.ok b)
  | error (e : ε) : Matching R (.error e) (.error e)

namespace Matching

variable {γ δ : Type} {R : α → β → Prop} {S : γ → δ → Prop} {x : Except ε α} {y : Except ε β}

theorem bind {k : α → Except ε γ} {l : β → Except ε δ} (h : Matching R x y)
    (next : ∀ a b, R a b → Matching S (k a) (l b)) : Matching S (x >>= k) (y >>= l) := by
  cases h with
  | ok h => exact next _ _ h
  | error e => exact .error e

theorem bind_eq {k : α → Except ε γ} {l : β → Except ε γ} (h : Matching R x y)
    (next : ∀ a b, R a b → k a = l b) : x >>= k = y >>= l := by
  cases h with
  | ok h => exact next _ _ h
  | error e => rfl

theorem mapError {g : ε → ε'} (h : Matching R x y) : Matching R (x.mapError g) (y.mapError g) := by
  cases h with
  | ok h => exact .ok h
  | error e => exact .error (g e)

theorem imp {T : α → β → Prop} (h : Matching R x y) (weaker : ∀ a b, R a b → T a b) :
    Matching T x y := by
  cases h with
  | ok h => exact .ok (weaker _ _ h)
  | error e => exact .error e

theorem exists_ok {a : α} (h : Matching R (.ok a) y) : ∃ b, y = .ok b ∧ R a b := by
  cases h with
  | ok h => exact ⟨_, rfl, h⟩

theorem of_eq (x : Except ε α) : Matching Eq x x := by
  cases x with
  | ok a => exact .ok rfl
  | error e => exact .error e

theorem foldlM {k : α → γ → Except ε α} {l : β → δ → Except ε β} {as : List γ} {bs : List δ}
    (items : List.Forall₂ S as bs)
    (next : ∀ a b c d, R a b → S c d → Matching R (k a c) (l b d)) {a : α} {b : β} (h : R a b) :
    Matching R (as.foldlM k a) (bs.foldlM l b) := by
  induction items generalizing a b with
  | nil => exact .ok h
  | cons hs _ ih => exact (next a b _ _ h hs).bind fun a' b' h' => ih h'

end Matching

-- ---------------------------------------------------------------------------
-- Lists that are related one by one
-- ---------------------------------------------------------------------------

variable {γ : Type} {as : List α} {bs : List β}

theorem map_eq_of_forall₂ {k : α → γ} {l : β → γ} (h : List.Forall₂ (fun a b => k a = l b) as bs) :
    as.map k = bs.map l := by
  rw [← List.forall₂_eq_eq_eq]
  exact List.forall₂_map_left_iff.mpr (List.forall₂_map_right_iff.mpr h)

theorem forall₂_map {R : α → β → Prop} {l : List γ} {k : γ → α} {m : γ → β}
    (h : ∀ x ∈ l, R (k x) (m x)) : List.Forall₂ R (l.map k) (l.map m) :=
  List.forall₂_map_left_iff.mpr (List.forall₂_map_right_iff.mpr (List.forall₂_same.mpr h))

theorem mapM_eq_of_forall₂ {m : Type → Type} [Monad m] [LawfulMonad m] {k : α → m γ} {l : β → m γ}
    (h : List.Forall₂ (fun a b => k a = l b) as bs) : as.mapM k = bs.mapM l := by
  induction h with
  | nil => rfl
  | cons h _ ih => rw [List.mapM_cons, List.mapM_cons, h, ih]

theorem forM_eq_of_forall₂ {k : α → Except ε Unit} {l : β → Except ε Unit}
    (h : List.Forall₂ (fun a b => k a = l b) as bs) : as.forM k = bs.forM l := by
  induction h with
  | nil => rfl
  | cons h _ ih => simp only [List.forM, h, ih]

end TileWorld
