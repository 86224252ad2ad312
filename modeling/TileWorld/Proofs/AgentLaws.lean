import Mathlib.Data.List.Perm.Subperm
import Mathlib.Data.String.Basic
import TileWorld.Proofs.BoardLaws

/-!
# Agents that take part

The agents of an arena are the lead and the adversaries that the settings include, in strict
order of their names (`enlistAll_ok`); the lead comes first (`enlistAll_head`). Enlisting fails
only at the first adversary whose color an earlier one has (`enlistAll_error`).
-/

namespace TileWorld

namespace Role

/-- Everyone who can take part: the lead, and an adversary of each color. -/
def cast : List Role := lead :: Color.all.map Color.title

theorem title_mem_cast (c : Color) : c.title ∈ cast :=
  List.mem_cons_of_mem _ (List.mem_map_of_mem (Color.mem_all c))

theorem lead_lt_title (c : Color) : lead < c.title := by
  cases c <;> decide

end Role

namespace Arena

variable {name : Role} {p : Position} {agents agents' : List (Role × Position)}

def Sorted (agents : List (Role × Position)) : Prop := agents.Pairwise (·.1 < ·.1)

-- ---------------------------------------------------------------------------
-- One agent
-- ---------------------------------------------------------------------------

theorem enlist_perm (h : enlist name p agents = .ok agents') :
    agents'.Perm ((name, p) :: agents) := by
  fun_induction enlist name p agents generalizing agents' with
  | case1 => cases h; exact .refl _
  | case2 => cases h
  | case3 => cases h; exact .refl _
  | case4 other rest _ _ ih =>
    obtain ⟨rest', hr, h⟩ := bind_eq_ok.mp h
    cases pure_eq_ok.mp h
    exact ((ih hr).cons other).trans (.swap (name, p) other rest)

theorem enlist_sorted (hs : Sorted agents) (h : enlist name p agents = .ok agents') :
    Sorted agents' := by
  fun_induction enlist name p agents generalizing agents' with
  | case1 => cases h; exact List.pairwise_singleton _ _
  | case2 => cases h
  | case3 other rest _ hlt =>
    cases h
    refine List.Pairwise.cons ?_ hs
    intro other' hm
    rcases List.mem_cons.mp hm with rfl | hm
    · exact hlt
    · exact hlt.trans (List.rel_of_pairwise_cons hs hm)
  | case4 other rest hne hlt ih =>
    obtain ⟨rest', hr, h⟩ := bind_eq_ok.mp h
    cases pure_eq_ok.mp h
    refine List.Pairwise.cons ?_ (ih hs.of_cons hr)
    intro other' hm
    rcases List.mem_cons.mp ((enlist_perm hr).subset hm) with rfl | hm
    · exact lt_of_le_of_ne (not_lt.mp hlt) (Ne.symm hne)
    · exact List.rel_of_pairwise_cons hs hm

theorem enlist_total (h : name ∉ agents.map (·.1)) :
    ∃ agents', enlist name p agents = .ok agents' := by
  fun_induction enlist name p agents with
  | case1 => exact ⟨_, rfl⟩
  | case2 other rest heq => exact absurd heq (by simp_all)
  | case3 => exact ⟨_, rfl⟩
  | case4 other rest _ _ ih =>
    obtain ⟨rest', hr⟩ := ih (by simp_all)
    exact ⟨other :: rest', bind_eq_ok.mpr ⟨rest', hr, rfl⟩⟩

theorem enlist_error {e : GridFault} (h : enlist name p agents = .error e) :
    e = .repeatedAgent name ∧ name ∈ agents.map (·.1) := by
  fun_induction enlist name p agents with
  | case1 => cases h
  | case2 other rest heq =>
    cases h
    exact ⟨rfl, by simp [heq]⟩
  | case3 => cases h
  | case4 other rest _ _ ih =>
    rcases bind_eq_error.mp h with h | ⟨rest', -, h⟩
    · exact ⟨(ih h).1, List.mem_cons_of_mem _ (ih h).2⟩
    · cases h

-- ---------------------------------------------------------------------------
-- All agents
-- ---------------------------------------------------------------------------

def entry (c : Cell) : Role × Position := (c.color.title, c.position)

theorem enlistEach_ok {cells : List Cell} (hs : Sorted agents)
    (h : cells.foldlM (fun agents c => enlist c.color.title c.position agents) agents =
      .ok agents') :
    Sorted agents' ∧ agents'.Perm (cells.map entry ++ agents) := by
  induction cells generalizing agents with
  | nil =>
    cases pure_eq_ok.mp h
    exact ⟨hs, .refl _⟩
  | cons c cells ih =>
    obtain ⟨agents₁, h₁, h⟩ := bind_eq_ok.mp h
    obtain ⟨hs', hp⟩ := ih (enlist_sorted hs h₁) h
    refine ⟨hs', hp.trans (((enlist_perm h₁).append_left _).trans ?_)⟩
    exact List.perm_middle

theorem enlistEach_total {cells : List Cell}
    (hn : (cells.map entry ++ agents).Pairwise (·.1 ≠ ·.1)) :
    ∃ agents', cells.foldlM (fun agents c => enlist c.color.title c.position agents) agents =
      .ok agents' := by
  induction cells generalizing agents with
  | nil => exact ⟨agents, rfl⟩
  | cons c cells ih =>
    have new : c.color.title ∉ agents.map (·.1) := by
      intro hm
      obtain ⟨agent, ha, heq⟩ := List.mem_map.mp hm
      exact List.rel_of_pairwise_cons hn (List.mem_append_right _ ha) heq.symm
    obtain ⟨agents₁, h₁⟩ := enlist_total (p := c.position) new
    have moved : (cells.map entry ++ agents₁).Perm ((c :: cells).map entry ++ agents) :=
      ((enlist_perm h₁).append_left _).trans List.perm_middle
    obtain ⟨agents', h⟩ := ih ((moved.pairwise_iff Ne.symm).mpr hn)
    exact ⟨agents', bind_eq_ok.mpr ⟨agents₁, h₁, h⟩⟩

variable {settings : Settings} {agent : Cell} {cells : List Cell}

def rivals (settings : Settings) (cells : List Cell) : List Cell :=
  cells.filter fun c => c.tile = .adversary && settings.includes c.color.title

theorem enlistAll_eq : enlistAll settings agent (cells.filter (·.tile = .adversary)) =
    (rivals settings cells).foldlM (fun agents c => enlist c.color.title c.position agents)
      [(Role.lead, agent.position)] := by
  simp only [enlistAll, rivals, List.filter_filter, Bool.and_comm]

theorem enlistAll_ok
    (h : enlistAll settings agent (cells.filter (·.tile = .adversary)) = .ok agents) :
    Sorted agents ∧
      agents.Perm ((rivals settings cells).map entry ++ [(Role.lead, agent.position)]) :=
  enlistEach_ok (List.pairwise_singleton _ _) (enlistAll_eq ▸ h)

theorem enlistAll_total (h : (rivals settings cells).Pairwise (·.color ≠ ·.color)) :
    ∃ agents, enlistAll settings agent (cells.filter (·.tile = .adversary)) = .ok agents := by
  rw [enlistAll_eq]
  apply enlistEach_total
  rw [List.pairwise_append]
  refine ⟨?_, List.pairwise_singleton _ _, ?_⟩
  · refine List.pairwise_map.mpr (h.imp ?_)
    exact fun hne heq => hne (Color.title_injective heq)
  · simp only [List.mem_map, List.mem_singleton]
    rintro _ ⟨c, -, rfl⟩ _ rfl
    exact (Role.lead_lt_title c.color).ne'

theorem enlistEach_colors
    (h : cells.foldlM (fun agents c => enlist c.color.title c.position agents)
      [(Role.lead, p)] = .ok agents) : cells.Pairwise (·.color ≠ ·.color) := by
  obtain ⟨hs, hp⟩ := enlistEach_ok (List.pairwise_singleton _ _) h
  have apart : (cells.map entry ++ [(Role.lead, p)]).Pairwise (·.1 ≠ ·.1) :=
    (hp.pairwise_iff Ne.symm).mp (hs.imp ne_of_lt)
  have titles := List.pairwise_map.mp (List.pairwise_append.mp apart).1
  exact titles.imp fun hne heq => hne (congrArg Color.title heq)

/-- Enlisting fails at the first adversary whose color an earlier one has. -/
theorem enlistAll_error {e : GridFault}
    (h : enlistAll settings agent (cells.filter (·.tile = .adversary)) = .error e) :
    ∃ before c after, rivals settings cells = before ++ c :: after ∧
      before.Pairwise (·.color ≠ ·.color) ∧ (∃ b ∈ before, b.color = c.color) ∧
      e = .repeatedAgent c.color.title := by
  rw [enlistAll_eq, foldlM_eq_error] at h
  obtain ⟨before, c, after, agents, hl, hb, he⟩ := h
  obtain ⟨rfl, hm⟩ := enlist_error he
  obtain ⟨-, hp⟩ := enlistEach_ok (List.pairwise_singleton _ _) hb
  refine ⟨before, c, after, hl, enlistEach_colors hb, ?_, rfl⟩
  obtain ⟨other, ho, heq⟩ := List.mem_map.mp hm
  rcases List.mem_append.mp (hp.subset ho) with ho | ho
  · obtain ⟨b, hb, rfl⟩ := List.mem_map.mp ho
    exact ⟨b, hb, Color.title_injective heq⟩
  · cases List.mem_singleton.mp ho
    exact absurd heq (Role.lead_lt_title c.color).ne

-- ---------------------------------------------------------------------------
-- The names
-- ---------------------------------------------------------------------------

theorem enlistAll_names
    (h : enlistAll settings agent (cells.filter (·.tile = .adversary)) = .ok agents) (a : Role) :
    a ∈ agents.map (·.1) ↔ a = Role.lead ∨ ∃ c ∈ rivals settings cells, c.color.title = a := by
  rw [((enlistAll_ok h).2.map _).mem_iff]
  simp [entry, or_comm]

theorem enlistAll_cast
    (h : enlistAll settings agent (cells.filter (·.tile = .adversary)) = .ok agents) :
    agents.map (·.1) ⊆ Role.cast := by
  intro a ha
  rcases (enlistAll_names h a).mp ha with rfl | ⟨c, -, rfl⟩
  · exact List.mem_cons_self
  · exact Role.title_mem_cast c.color

theorem enlistAll_head
    (h : enlistAll settings agent (cells.filter (·.tile = .adversary)) = .ok agents) :
    ∃ others, agents = (Role.lead, agent.position) :: others := by
  obtain ⟨hs, hp⟩ := enlistAll_ok h
  have hlead : (Role.lead, agent.position) ∈ agents := hp.mem_iff.mpr (by simp)
  cases agents with
  | nil => cases hlead
  | cons first others =>
    rcases List.mem_cons.mp hlead with rfl | hlead
    · exact ⟨others, rfl⟩
    · -- Nothing that takes part stands before the lead in the order of names.
      have before := List.rel_of_pairwise_cons hs hlead
      rcases List.mem_append.mp (hp.subset List.mem_cons_self) with hf | hf
      · obtain ⟨c, -, rfl⟩ := List.mem_map.mp hf
        exact absurd before (Role.lead_lt_title c.color).asymm
      · cases List.mem_singleton.mp hf
        exact absurd before (lt_irrefl _)

/-- There are no more agents than roles. -/
theorem enlistAll_length
    (h : enlistAll settings agent (cells.filter (·.tile = .adversary)) = .ok agents) :
    agents.length ≤ 8 := by
  have names : (agents.map (·.1)).Nodup := List.pairwise_map.mpr ((enlistAll_ok h).1.imp ne_of_lt)
  have count := (List.subperm_of_subset names (enlistAll_cast h)).length_le
  simpa [Role.cast, Color.all] using count

end Arena

end TileWorld
