import PageWarden.Proofs.Calls
/-!
# Memory — keys, and calls that cannot fail

The key that is allocated next is known beforehand (`keyAlloc_cases`); no
number is used twice. Where nothing is scheduled to fail, a range that is
mapped can be protected and tagged.
-/

namespace PageWarden

namespace Machine

variable {m m' : Machine}

/-! ## Calls that cannot fail -/

/-- A mapped range can be protected, where nothing is scheduled to fail. -/
theorem protect_of_mapped {address length : Nat} (hm : m.faults = .never) (ha : Aligned address)
    (hmapped : ∀ n, PageIn address (address + roundUp length pageSize) n → (m.rightsAt n).isSome)
    (rights : Rights) : ∃ m', m.protect address length rights = (.ok (), m') := by
  have hall : m.space.table.allMapped (pageOf address) (pagesFor length) = true :=
    PageTable.allMapped_iff.2 fun n hn => by
      rw [← isSome_rightsAt]
      exact hmapped n ((inRange_iff_pageIn ha).1 hn)
  have hok : (m.protect address length rights).1 = .ok () := by
    rw [protect, perform_of_unscheduled (by rw [hm]; rfl), Space.protect, if_neg (not_not.2 ha),
      if_neg (not_not.2 hall)]
  exact ⟨_, Prod.ext hok rfl⟩

/-- It can be tagged with an allocated key as well. -/
theorem keyProtect_of_mapped {address length key : Nat} (hm : m.faults = .never)
    (hcalls : m.platform.hasKeyCalls = true) (hkey : m.space.keyRights key ≠ none)
    (ha : Aligned address)
    (hmapped : ∀ n, PageIn address (address + roundUp length pageSize) n → (m.rightsAt n).isSome)
    (rights : Rights) : ∃ m', m.keyProtect address length rights key = (.ok (), m') := by
  have hall : m.space.table.allMapped (pageOf address) (pagesFor length) = true :=
    PageTable.allMapped_iff.2 fun n hn => by
      rw [← isSome_rightsAt]
      exact hmapped n ((inRange_iff_pageIn ha).1 hn)
  have hok : (m.keyProtect address length rights key).1 = .ok () := by
    rw [keyProtect, if_pos hcalls, perform_of_unscheduled (by rw [hm]; rfl), Space.keyProtect,
      if_neg hkey]
    split
    · rfl
    · rw [if_neg (not_or.2 ⟨not_not.2 ha, not_not.2 hall⟩)]
  exact ⟨_, Prod.ext hok rfl⟩

/-! ## The numbers of keys -/

/-- **A key is allocated and is the next one, or there is none to be had.** -/
theorem keyAlloc_cases (m : Machine) (rights : KeyRights) :
    (∃ errno m', m.keyAlloc rights = (.error errno, m') ∧ m'.space = m.space ∧
        (m.faults = .never → errno = .nosys ∨ errno = .nospc)) ∨
      ∃ m', m.keyAlloc rights = (.ok m.space.nextKey, m') ∧ m.platform.hasKeyCalls = true ∧
        m'.platform = m.platform ∧
        m'.space = { m.space with
          nextKey := m.space.nextKey + 1
          keys := m.space.keys ++ [(m.space.nextKey, rights)] } := by
  unfold keyAlloc
  split
  · rename_i hcalls
    rcases h : m.perform .keyAlloc (fun s => s.keyAlloc rights) (.keyAlloc rights) with
      ⟨errno | key, m'⟩
    · refine Or.inl ⟨errno, m', rfl, ?_, fun hm => ?_⟩
      · rcases perform_error h with hs | hs
        · exact hs
        · simp only [Space.keyAlloc] at hs
          split at hs
          · exact (congrArg Prod.snd hs).symm
          · split at hs
            · exact (congrArg Prod.snd hs).symm
            · cases hs
      · have hs := perform_of_unscheduled (m := m) (p := .keyAlloc) (by rw [hm]; rfl)
          (fun s => s.keyAlloc rights) (.keyAlloc rights)
        rw [h] at hs
        simp only [Space.keyAlloc] at hs
        split at hs
        · exact Or.inl (Except.error.inj hs)
        · split at hs
          · exact Or.inr (Except.error.inj hs)
          · cases hs
    · have hs := perform_ok h
      have hplatform : (m.perform .keyAlloc (fun s => s.keyAlloc rights)
          (.keyAlloc rights)).2.platform = m.platform := rfl
      rw [h] at hplatform
      simp only [Space.keyAlloc] at hs
      split at hs
      · cases hs
      · split at hs
        · cases hs
        · obtain ⟨hkey, hspace⟩ := Prod.mk.inj hs
          cases hkey
          exact Or.inr ⟨m', rfl, hcalls, hplatform, hspace.symm⟩
  · exact Or.inl ⟨Errno.nosys, m, rfl, rfl, fun _ => Or.inl rfl⟩

/-- An allocated key can be used. -/
theorem keyRights_of_keyAlloc {rights : KeyRights} {key : Nat}
    (h : m.keyAlloc rights = (.ok key, m')) : m'.space.keyRights key ≠ none := by
  rcases m.keyAlloc_cases rights with ⟨errno, m₁, halloc, -⟩ | ⟨m₁, halloc, -, -, hspace⟩
  · rw [halloc] at h
    cases h
  · rw [halloc] at h
    cases h
    rw [hspace, Space.keyRights, List.lookup_append]
    simp

end Machine

end PageWarden
