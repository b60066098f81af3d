import PageWarden.Guard
import PageWarden.Proofs.Memory
/-!
# Guards — what placing and lifting do

A guard is placed on a free page or not at all, and no page that was
mapped is touched by the attempt (`place_eq_some`, `rightsAt_place`);
lifting one touches no other page (`rightsAt_lift`). Of a record nothing
but the guard fields changes: `Record.bare` is the record without them,
and every operation on guards leaves it as it is.
-/

namespace PageWarden

namespace Record

/-- The record without its guards. -/
def bare (r : Record) : Record := { r with guardBelow := none, guardAbove := none }

@[simp] theorem bare_bare (r : Record) : r.bare.bare = r.bare := rfl

/-- Page `n` is one of the mapping's whole pages. -/
def Covers (r : Record) (n : Nat) : Prop := PageIn r.base (r.stop pageSize) n

instance (r : Record) (n : Nat) : Decidable (r.Covers n) :=
  inferInstanceAs (Decidable (PageIn _ _ _))

@[simp] theorem covers_bare (r : Record) (n : Nat) : r.bare.Covers n ↔ r.Covers n := Iff.rfl

/-- Records that are the same but for guards cover the same pages. -/
theorem covers_congr {r s : Record} (h : r.bare = s.bare) (n : Nat) :
    r.Covers n ↔ s.Covers n := by
  have hcovers : r.bare.Covers n ↔ s.bare.Covers n := by rw [h]
  exact hcovers

/-- Records that are the same but for guards have the same history. -/
theorem granted_congr {r s : Record} (h : r.bare = s.bare) : r.granted = s.granted := by
  have hgranted : r.bare.granted = s.bare.granted := by rw [h]
  exact hgranted

end Record

namespace Guard

variable {m : Machine} {address n : Nat}

/-- The page a guard takes. -/
theorem pageIn_page (h : Aligned address) :
    PageIn address (address + roundUp pageSize pageSize) n ↔ n * pageSize = address := by
  simp only [PageIn, Aligned, roundUp, pageSize] at *
  omega

/-- A guard is asked for without replacing anything. -/
theorem fixed_request (address : Nat) : (request address).flags.fixed = false := by
  show MapFlags.guardPage.fixed = false
  decide

/-- What a placement answers is the address asked for, or nothing. -/
theorem place_fst (m : Machine) (address : Nat) :
    (place m address).1 = none ∨ (place m address).1 = some address := by
  unfold place
  split
  · split
    · rename_i hgot
      exact Or.inr (congrArg some hgot)
    · exact Or.inl rfl
  · exact Or.inl rfl

/-- **A guard that is placed takes a free page**, and only that. -/
theorem place_eq_some (h : (place m address).1 = some address) :
    Aligned address ∧ m.rightsAt (pageOf address) = none ∧
      ∀ n, (place m address).2.rightsAt n =
        if n * pageSize = address then some .noAccess else m.rightsAt n := by
  unfold place at h ⊢
  split at h
  · rename_i got m' hmap
    split at h
    · rename_i hgot
      subst hgot
      have ha := (Machine.aligned_of_map hmap).1
      refine ⟨ha, ?_, fun n => ?_⟩
      · refine Machine.rightsAt_of_map_of_not_fixed hmap (fixed_request _) ?_
        exact (pageIn_page ha).2 ((mul_pageSize_eq_iff ha).2 rfl)
      · simp only [if_true, Machine.rightsAt_tell]
        rw [Machine.rightsAt_map hmap]
        exact if_congr (pageIn_page ha) rfl rfl
    · cases h
  · cases h

/-- **An attempt to place a guard changes free pages only**, and all it
leaves there are fresh inaccessible ones. Where the system puts the page
elsewhere, it takes a free page there too. -/
theorem pageAt_place (m : Machine) (address n : Nat) :
    (place m address).2.pageAt n = m.pageAt n ∨
      m.pageAt n = none ∧ (place m address).2.pageAt n = some (.fresh .noAccess) := by
  unfold place
  split
  · rename_i got m' hmap
    have hm' : m'.pageAt n = m.pageAt n ∨
        m.pageAt n = none ∧ m'.pageAt n = some (.fresh .noAccess) := by
      rw [Machine.pageAt_map hmap]
      split
      · rename_i hin
        have hfree := Machine.rightsAt_of_map_of_not_fixed hmap (fixed_request _) hin
        exact Or.inr ⟨Machine.rightsAt_eq_none_iff.1 hfree, rfl⟩
      · exact Or.inl rfl
    split
    · exact hm'
    · rcases hunmap : m'.unmap got pageSize with ⟨errno | ⟨⟩, m''⟩
      · have hsame := congrFun (Machine.pageAt_of_space (Machine.space_of_unmap_error hunmap)) n
        show m''.pageAt n = _ ∨ _ ∧ m''.pageAt n = _
        rw [hsame]
        exact hm'
      · show m''.pageAt n = _ ∨ _ ∧ m''.pageAt n = _
        rw [Machine.pageAt_unmap hunmap]
        split
        · rename_i hin
          have hfree := Machine.rightsAt_of_map_of_not_fixed hmap (fixed_request _) hin
          exact Or.inl (Machine.rightsAt_eq_none_iff.1 hfree).symm
        · exact hm'
  · rename_i errno m' hmap
    exact Or.inl (congrFun (Machine.pageAt_of_space (Machine.space_of_map_error hmap)) n)

/-- **An attempt to place a guard leaves mapped pages alone.** -/
theorem rightsAt_place {ρ : Rights} (h : m.rightsAt n = some ρ) :
    (place m address).2.rightsAt n = some ρ := by
  rcases pageAt_place m address n with hsame | ⟨hfree, -⟩
  · rw [Machine.rightsAt_congr hsame, h]
  · rw [Machine.rightsAt_eq, hfree] at h
    cases h

/-- **A placement takes a free page as the guard, or answers nothing.** -/
theorem place_cases (m : Machine) (address : Nat) :
    (place m address).1 = none ∨
      ∃ n₀, (place m address).1 = some (n₀ * pageSize) ∧ m.rightsAt n₀ = none ∧
        ((place m address).2.rightsAt n₀).isSome := by
  rcases place_fst m address with hnone | hsome
  · exact Or.inl hnone
  · obtain ⟨ha, hfree, hafter⟩ := place_eq_some hsome
    have hpage := pageOf_mul_pageSize ha
    refine Or.inr ⟨pageOf address, by rw [hpage, hsome], hfree, ?_⟩
    rw [hafter, if_pos hpage]
    rfl

/-- **Lifting a guard takes its page, or nothing.** -/
theorem pageAt_lift_cases (m : Machine) (address n : Nat) :
    (lift m address).pageAt n = m.pageAt n ∨
      n * pageSize = address ∧ (lift m address).pageAt n = none := by
  unfold lift
  rcases hunmap : m.unmap address pageSize with ⟨errno | ⟨⟩, m'⟩
  · exact Or.inl (congrFun (Machine.pageAt_of_space (Machine.space_of_unmap_error hunmap)) n)
  · show m'.pageAt n = _ ∨ _ ∧ m'.pageAt n = _
    rw [Machine.pageAt_unmap hunmap]
    split
    · rename_i hin
      exact Or.inr ⟨(pageIn_page (Machine.aligned_of_unmap hunmap).1).1 hin, rfl⟩
    · exact Or.inl rfl

/-- **So it touches no other page**, down to what is written there. -/
theorem pageAt_lift_of_ne (h : n * pageSize ≠ address) :
    (lift m address).pageAt n = m.pageAt n :=
  (pageAt_lift_cases m address n).resolve_right fun hpage => h hpage.1

/-- It changes no other page's rights. -/
theorem rightsAt_lift (h : n * pageSize ≠ address) :
    (lift m address).rightsAt n = m.rightsAt n :=
  Machine.rightsAt_congr (pageAt_lift_of_ne h)

/-- What a page allows after an attempt to place a guard it allowed before,
or it is nothing. -/
theorem rightsAt_of_place {ρ : Rights} (h : (place m address).2.rightsAt n = some ρ) :
    m.rightsAt n = some ρ ∨ ρ = .noAccess := by
  rcases pageAt_place m address n with hsame | ⟨-, hfresh⟩
  · rw [Machine.rightsAt_congr hsame] at h
    exact Or.inl h
  · rw [Machine.rightsAt_eq, hfresh] at h
    exact Or.inr (Option.some.inj h).symm

/-- What a page allows after a guard is lifted it allowed before. -/
theorem rightsAt_of_lift {ρ : Rights} (h : (lift m address).rightsAt n = some ρ) :
    m.rightsAt n = some ρ := by
  rcases pageAt_lift_cases m address n with hsame | ⟨-, hnone⟩
  · rw [← Machine.rightsAt_congr hsame, h]
  · rw [Machine.rightsAt_eq, hnone] at h
    cases h

/-- A placement that answers nothing leaves no page behind, where no
unmapping is scheduled to fail. -/
theorem rightsAt_place_of_none (hm : m.faults .unmap = []) (h : (place m address).1 = none) :
    (place m address).2.rightsAt n = m.rightsAt n := by
  unfold place at h ⊢
  split at h
  · rename_i got m' hmap
    split at h
    · cases h
    · rename_i hgot
      have ha := (Machine.aligned_of_map hmap).1
      have hm' : m'.faults .unmap = [] := by
        have hfaults := Machine.faults_map_unmap m (request address)
        rw [hmap] at hfaults
        exact hfaults.trans hm
      have hok := Machine.unmap_of_aligned hm' ha pageSize_pos
      rcases hunmap : m'.unmap got pageSize with ⟨errno | ⟨⟩, m''⟩
      · rw [hunmap] at hok
        cases hok
      · simp only [if_neg hgot, Machine.rightsAt_tell]
        rw [Machine.rightsAt_unmap hunmap, Machine.rightsAt_map hmap]
        -- the page that came and went was free
        split
        · rename_i hin
          exact (Machine.rightsAt_of_map_of_not_fixed hmap (fixed_request _) hin).symm
        · rename_i hout
          exact if_neg hout
  · rename_i errno m' hmap
    rw [Machine.rightsAt_tell, Machine.rightsAt, Machine.space_of_map_error hmap, Machine.rightsAt]

/-- A guard that is lifted is gone, where no unmapping is scheduled to
fail. -/
theorem rightsAt_lift_page (hm : m.faults .unmap = []) (h : n * pageSize = address) :
    (lift m address).rightsAt n = none := by
  have ha : Aligned address := h ▸ aligned_mul_pageSize n
  have hok := Machine.unmap_of_aligned hm ha pageSize_pos
  unfold lift
  rcases hunmap : m.unmap address pageSize with ⟨errno | ⟨⟩, m'⟩
  · rw [hunmap] at hok
    cases hok
  · simp only [Machine.rightsAt_tell]
    rw [Machine.rightsAt_unmap hunmap, if_pos]
    exact (pageIn_page ha).2 h

/-- So what is mapped after a lift was mapped before, and not there. -/
theorem isSome_of_lift (hm : m.faults .unmap = []) (h : ((lift m address).rightsAt n).isSome) :
    n * pageSize ≠ address ∧ (m.rightsAt n).isSome := by
  constructor
  · intro hpage
    rw [rightsAt_lift_page hm hpage] at h
    cases h
  · obtain ⟨ρ, hρ⟩ := Option.isSome_iff_exists.1 h
    rw [rightsAt_of_lift hρ]
    rfl

/-- What is mapped after a placement is the guard, or was mapped before. -/
theorem isSome_of_place (hm : m.faults .unmap = [])
    (h : ((place m address).2.rightsAt n).isSome) :
    (place m address).1 = some (n * pageSize) ∨ (m.rightsAt n).isSome := by
  rcases place_fst m address with hnone | hsome
  · rw [rightsAt_place_of_none hm hnone] at h
    exact Or.inr h
  · obtain ⟨-, -, hpage⟩ := place_eq_some hsome
    rw [hpage] at h
    split at h
    · rename_i hn
      exact Or.inl (hsome.trans (congrArg some hn.symm))
    · exact Or.inr h

/-! ## Keys -/

/-- No guard has a key: a placement changes no page's key. -/
theorem keyAt_place (m : Machine) (address n : Nat) :
    (place m address).2.keyAt n = m.keyAt n := by
  rcases pageAt_place m address n with hsame | ⟨hfree, hfresh⟩
  · exact Machine.keyAt_congr hsame
  · rw [Machine.keyAt, hfresh, Machine.keyAt, hfree]
    rfl

/-- Lifting a guard tags no page. -/
theorem keyAt_of_lift {κ : Nat} (h : (lift m address).keyAt n = some κ) : m.keyAt n = some κ := by
  rcases pageAt_lift_cases m address n with hsame | ⟨-, hnone⟩
  · rw [← Machine.keyAt_congr hsame, h]
  · rw [Machine.keyAt, hnone] at h
    cases h

/-! ## The record -/

@[simp] theorem bare_placeBelow (m : Machine) (r : Record) :
    (placeBelow m r).1.bare = r.bare := by
  unfold placeBelow
  split <;> rfl

@[simp] theorem bare_placeAbove (m : Machine) (r : Record) :
    (placeAbove m r).1.bare = r.bare := by
  unfold placeAbove
  split <;> rfl

@[simp] theorem bare_placeAll (m : Machine) (r : Record) : (placeAll m r).1.bare = r.bare := by
  rw [placeAll, bare_placeAbove, bare_placeBelow]

/-- The record without its guard below. -/
@[simp] theorem removeBelow_fst (m : Machine) (r : Record) :
    (removeBelow m r).1 = { r with guardBelow := none } := by
  unfold removeBelow
  split
  · rfl
  · rename_i hnone
    rw [← hnone]

/-- The record without its guard above. -/
@[simp] theorem removeAbove_fst (m : Machine) (r : Record) :
    (removeAbove m r).1 = { r with guardAbove := none } := by
  unfold removeAbove
  split
  · rfl
  · rename_i hnone
    rw [← hnone]

/-- The record without its guards. -/
@[simp] theorem removeAll_fst (m : Machine) (r : Record) : (removeAll m r).1 = r.bare := by
  rw [removeAll, removeAbove_fst, removeBelow_fst]
  rfl

/-- Without guards there is nothing to remove. -/
theorem removeAll_of_bare {r : Record} (h : r.bare = r) (m : Machine) : removeAll m r = (r, m) := by
  rw [← h]
  rfl

/-! ## Its pages -/

/-- Removing the guard below touches no other page. -/
theorem rightsAt_removeBelow {r : Record} (h : r.guardBelow ≠ some (n * pageSize)) :
    (removeBelow m r).2.rightsAt n = m.rightsAt n := by
  unfold removeBelow
  split
  · rename_i address hguard
    refine rightsAt_lift fun heq => h ?_
    rw [hguard, heq]
  · rfl

/-- Removing the guard above touches no other page. -/
theorem rightsAt_removeAbove {r : Record} (h : r.guardAbove ≠ some (n * pageSize)) :
    (removeAbove m r).2.rightsAt n = m.rightsAt n := by
  unfold removeAbove
  split
  · rename_i address hguard
    refine rightsAt_lift fun heq => h ?_
    rw [hguard, heq]
  · rfl

/-- Removing both guards touches no other page. -/
theorem rightsAt_removeAll {r : Record} (hbelow : r.guardBelow ≠ some (n * pageSize))
    (habove : r.guardAbove ≠ some (n * pageSize)) :
    (removeAll m r).2.rightsAt n = m.rightsAt n := by
  unfold removeAll
  simp only
  rw [rightsAt_removeAbove, rightsAt_removeBelow hbelow]
  rw [removeBelow_fst]
  exact habove

/-- **Guarding the page below takes a free page, or none**, and leaves
mapped pages alone. -/
theorem placeBelow_cases (m : Machine) (r : Record) :
    (∀ n ρ, m.rightsAt n = some ρ → (placeBelow m r).2.rightsAt n = some ρ) ∧
      ((placeBelow m r).1 = r ∨
        ∃ n₀, (placeBelow m r).1 = { r with guardBelow := some (n₀ * pageSize) } ∧
          m.rightsAt n₀ = none ∧ ((placeBelow m r).2.rightsAt n₀).isSome) := by
  unfold placeBelow
  split
  · exact ⟨fun _ _ h => h, Or.inl rfl⟩
  · rename_i hopen
    have hnone : r.guardBelow = none := by
      rw [Bool.or_eq_true, not_or, Option.not_isSome_iff_eq_none] at hopen
      exact hopen.1
    refine ⟨fun _ _ h => rightsAt_place h, ?_⟩
    rcases place_cases m (pageFloor (r.base - 1) pageSize) with hp | ⟨n₀, hp, hfree, hnew⟩
    · refine Or.inl ?_
      simp only
      rw [hp, ← hnone]
    · refine Or.inr ⟨n₀, ?_, hfree, hnew⟩
      simp only
      rw [hp]

/-- **Guarding the page above takes a free page, or none**, and leaves
mapped pages alone. -/
theorem placeAbove_cases (m : Machine) (r : Record) :
    (∀ n ρ, m.rightsAt n = some ρ → (placeAbove m r).2.rightsAt n = some ρ) ∧
      ((placeAbove m r).1 = r ∨
        ∃ n₀, (placeAbove m r).1 = { r with guardAbove := some (n₀ * pageSize) } ∧
          m.rightsAt n₀ = none ∧ ((placeAbove m r).2.rightsAt n₀).isSome) := by
  unfold placeAbove
  split
  · exact ⟨fun _ _ h => h, Or.inl rfl⟩
  · rename_i hopen
    have hnone : r.guardAbove = none := Option.not_isSome_iff_eq_none.1 hopen
    refine ⟨fun _ _ h => rightsAt_place h, ?_⟩
    rcases place_cases m (r.stop pageSize) with hp | ⟨n₀, hp, hfree, hnew⟩
    · refine Or.inl ?_
      simp only
      rw [hp, ← hnone]
    · refine Or.inr ⟨n₀, ?_, hfree, hnew⟩
      simp only
      rw [hp]

end Guard

end PageWarden
