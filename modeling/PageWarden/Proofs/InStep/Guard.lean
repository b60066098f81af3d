import PageWarden.Proofs.InStep
/-!
# In step — guards

Removing a guard gives up a page that nobody else holds, and placing one
claims a page that is free; either way records and memory stay in step.
Guards are placed only while no page is exempt.
-/

namespace PageWarden

namespace Guard

variable {m : Machine} {r : Record} {p : Part} {n : Nat}

/-- Placing a guard below gives up no page. -/
theorem holds_placeBelow (m : Machine) (hp : r.Holds p n) : (placeBelow m r).1.Holds p n := by
  unfold placeBelow
  split
  · exact hp
  · rename_i hopen
    rw [Bool.or_eq_true, not_or, Option.not_isSome_iff_eq_none] at hopen
    cases p with
    | body => exact hp
    | below => cases hopen.1.symm.trans hp
    | above => exact hp

/-- Nor does placing one above. -/
theorem holds_placeAbove (m : Machine) (hp : r.Holds p n) : (placeAbove m r).1.Holds p n := by
  unfold placeAbove
  split
  · exact hp
  · rename_i hopen
    rw [Option.not_isSome_iff_eq_none] at hopen
    cases p with
    | body => exact hp
    | below => exact hp
    | above => cases hopen.symm.trans hp

/-- What is mapped once the page below is guarded is held by the record, or
was mapped before. -/
theorem isSome_of_placeBelow (hm : m.faults .unmap = [])
    (h : ((placeBelow m r).2.rightsAt n).isSome) :
    (placeBelow m r).1.Holds .below n ∨ (m.rightsAt n).isSome := by
  unfold placeBelow at h ⊢
  split at h
  · exact Or.inr h
  · rename_i hopen
    rw [if_neg hopen]
    exact isSome_of_place hm h

/-- So it is once the page above is. -/
theorem isSome_of_placeAbove (hm : m.faults .unmap = [])
    (h : ((placeAbove m r).2.rightsAt n).isSome) :
    (placeAbove m r).1.Holds .above n ∨ (m.rightsAt n).isSome := by
  unfold placeAbove at h ⊢
  split at h
  · exact Or.inr h
  · rename_i hopen
    rw [if_neg hopen]
    exact isSome_of_place hm h

/-- What is mapped once the guard below is removed was mapped before, and
is not that guard. -/
theorem isSome_of_removeBelow (hm : m.faults .unmap = [])
    (h : ((removeBelow m r).2.rightsAt n).isSome) :
    ¬ r.Holds .below n ∧ (m.rightsAt n).isSome := by
  unfold removeBelow at h
  split at h
  · rename_i address hguard
    obtain ⟨hne, hmapped⟩ := isSome_of_lift hm h
    exact ⟨fun hp => hne (Option.some.inj (hp.symm.trans hguard)), hmapped⟩
  · rename_i hnone
    exact ⟨fun hp => (nomatch hnone.symm.trans hp), h⟩

/-- So it is once the guard above is. -/
theorem isSome_of_removeAbove (hm : m.faults .unmap = [])
    (h : ((removeAbove m r).2.rightsAt n).isSome) :
    ¬ r.Holds .above n ∧ (m.rightsAt n).isSome := by
  unfold removeAbove at h
  split at h
  · rename_i address hguard
    obtain ⟨hne, hmapped⟩ := isSome_of_lift hm h
    exact ⟨fun hp => hne (Option.some.inj (hp.symm.trans hguard)), hmapped⟩
  · rename_i hnone
    exact ⟨fun hp => (nomatch hnone.symm.trans hp), h⟩

end Guard

namespace InStep

variable {X : Nat → Prop} {V : View} {m : Machine} {h : Handle} {r : Record}

/-- The guard below may be removed. -/
theorem removeBelow (hin : InStep X V m.rightsAt) (hr : V h = some r) :
    InStep X (Function.update V h (some (Guard.removeBelow m r).1))
      (Guard.removeBelow m r).2.rightsAt := by
  rw [Guard.removeBelow_fst]
  refine hin.replace hr ?_ fun n _ hall => Guard.rightsAt_removeBelow fun hguard => ?_
  · rintro s ⟨⟩
    intro p n hp
    cases p with
    | body => exact hp
    | below => cases hp
    | above => exact hp
  · obtain ⟨s, hs, hp⟩ := hall .below hguard
    cases hs
    cases hp

/-- The guard above may be removed. -/
theorem removeAbove (hin : InStep X V m.rightsAt) (hr : V h = some r) :
    InStep X (Function.update V h (some (Guard.removeAbove m r).1))
      (Guard.removeAbove m r).2.rightsAt := by
  rw [Guard.removeAbove_fst]
  refine hin.replace hr ?_ fun n _ hall => Guard.rightsAt_removeAbove fun hguard => ?_
  · rintro s ⟨⟩
    intro p n hp
    cases p with
    | body => exact hp
    | below => exact hp
    | above => cases hp
  · obtain ⟨s, hs, hp⟩ := hall .above hguard
    cases hs
    cases hp

/-- Both guards may be removed. -/
theorem removeAll (hin : InStep X V m.rightsAt) (hr : V h = some r) :
    InStep X (Function.update V h (some (Guard.removeAll m r).1))
      (Guard.removeAll m r).2.rightsAt := by
  have habove := (hin.removeBelow hr).removeAbove (Function.update_self h _ V)
  rw [Function.update_idem] at habove
  exact habove

/-- A record with one more guard holds one more page. -/
theorem holds_guardBelow {n₀ n : Nat} {p : Part}
    (hp : ({ r with guardBelow := some (n₀ * pageSize) } : Record).Holds p n) :
    r.Holds p n ∨ p = .below ∧ n = n₀ := by
  cases p with
  | body => exact Or.inl hp
  | below => exact Or.inr ⟨rfl, Nat.eq_of_mul_eq_mul_right pageSize_pos (Option.some.inj hp).symm⟩
  | above => exact Or.inl hp

/-- So does one with one more guard above. -/
theorem holds_guardAbove {n₀ n : Nat} {p : Part}
    (hp : ({ r with guardAbove := some (n₀ * pageSize) } : Record).Holds p n) :
    r.Holds p n ∨ p = .above ∧ n = n₀ := by
  cases p with
  | body => exact Or.inl hp
  | below => exact Or.inl hp
  | above => exact Or.inr ⟨rfl, Nat.eq_of_mul_eq_mul_right pageSize_pos (Option.some.inj hp).symm⟩

/-- The page below may be guarded. -/
theorem placeBelow (hin : InStep Nowhere V m.rightsAt) (hr : V h = some r) :
    InStep Nowhere (Function.update V h (some (Guard.placeBelow m r).1))
      (Guard.placeBelow m r).2.rightsAt := by
  obtain ⟨hold, hcases⟩ := Guard.placeBelow_cases m r
  have hstay : ∀ n, (m.rightsAt n).isSome → ((Guard.placeBelow m r).2.rightsAt n).isSome := by
    intro n hn
    obtain ⟨ρ, hρ⟩ := Option.isSome_iff_exists.1 hn
    rw [hold n ρ hρ]
    rfl
  rcases hcases with hsame | ⟨n₀, hplaced, hfree, hnew⟩
  · rw [hsame, Function.update_eq_self_iff.2 hr.symm]
    exact hin.grow hstay
  · rw [hplaced]
    exact hin.claim hr (g := .below) (fun _ _ => holds_guardBelow) hfree hnew hstay

/-- The page above may be guarded. -/
theorem placeAbove (hin : InStep Nowhere V m.rightsAt) (hr : V h = some r) :
    InStep Nowhere (Function.update V h (some (Guard.placeAbove m r).1))
      (Guard.placeAbove m r).2.rightsAt := by
  obtain ⟨hold, hcases⟩ := Guard.placeAbove_cases m r
  have hstay : ∀ n, (m.rightsAt n).isSome → ((Guard.placeAbove m r).2.rightsAt n).isSome := by
    intro n hn
    obtain ⟨ρ, hρ⟩ := Option.isSome_iff_exists.1 hn
    rw [hold n ρ hρ]
    rfl
  rcases hcases with hsame | ⟨n₀, hplaced, hfree, hnew⟩
  · rw [hsame, Function.update_eq_self_iff.2 hr.symm]
    exact hin.grow hstay
  · rw [hplaced]
    exact hin.claim hr (g := .above) (fun _ _ => holds_guardAbove) hfree hnew hstay

end InStep

end PageWarden
