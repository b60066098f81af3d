import PageWarden.Proofs.Memory
/-!
# Memory — the whole of it

A space is its pages and the rest: the keys, and whether the program has
stopped. Two spaces with the same rest (`Space.unpaged`) and the same
pages are the same (`Space.eq_of_unpaged`). Mapping, unmapping and
changing protection leave the rest alone, and so does writing bytes where
all of them are mapped (`unpaged_write`), which then changes each page in
exactly those bytes (`pageAt_write`).
-/

namespace PageWarden

namespace Space

/-- The space without its pages. -/
def unpaged (s : Space) : Space := { s with table := .empty }

/-- **A space is its pages and the rest.** -/
theorem eq_of_unpaged {s s' : Space} (hrest : s'.unpaged = s.unpaged)
    (hpage : ∀ n, s'.table.get? n = s.table.get? n) : s' = s := by
  have hback : ∀ s : Space, s = { s.unpaged with table := s.table } := fun _ => rfl
  rw [hback s', hback s, hrest, PageTable.ext_get? hpage]

/-- Its keys are among the rest. -/
theorem keys_of_unpaged {s s' : Space} (h : s'.unpaged = s.unpaged) : s'.keys = s.keys := by
  have hkeys : s'.unpaged.keys = s.unpaged.keys := by rw [h]
  exact hkeys

/-- So is the number of the next one. -/
theorem nextKey_of_unpaged {s s' : Space} (h : s'.unpaged = s.unpaged) :
    s'.nextKey = s.nextKey := by
  have hnext : s'.unpaged.nextKey = s.unpaged.nextKey := by rw [h]
  exact hnext

/-- And so is whether the program has stopped. -/
theorem crashed_of_unpaged {s s' : Space} (h : s'.unpaged = s.unpaged) :
    s'.crashed = s.crashed := by
  have hcrashed : s'.unpaged.crashed = s.unpaged.crashed := by rw [h]
  exact hcrashed

/-- The byte at a page's offset lies among the pages that are touched, if
it is one of the range's. -/
theorem inRange_touched {address length n : Nat} {i : Fin pageSize}
    (h : address ≤ n * pageSize + i ∧ n * pageSize + i < address + length) :
    PageTable.InRange (pageOf address) (touched address length) n := by
  have hi := i.isLt
  have hlen : length ≠ 0 := by omega
  unfold touched
  rw [if_neg hlen]
  simp only [PageTable.InRange, pageOf, pageSize] at *
  omega

/-- The pages that the bytes of a range touch are pages of the range, or of
any longer one. -/
theorem pageIn_of_inRange_touched {address length size n : Nat} (ha : Aligned address)
    (hle : length ≤ size) (hn : PageTable.InRange (pageOf address) (touched address length) n) :
    PageIn address (address + roundUp size pageSize) n := by
  have hspan := le_roundUp size
  unfold touched at hn
  split at hn
  · simp only [PageTable.InRange] at hn
    omega
  · simp only [PageTable.InRange, PageIn, Aligned, pageOf, pageSize] at *
    omega

end Space

namespace Machine

variable {m m' : Machine}

/-- What an action leaves of the rest of a space, a call leaves of it. -/
theorem unpaged_perform {α : Type} (m : Machine) (p : Primitive)
    {act : Space → Except Errno α × Space} (entry : Except Errno α → Call)
    (hact : ∀ s, (act s).2.unpaged = s.unpaged) :
    (m.perform p act entry).2.space.unpaged = m.space.unpaged := by
  rcases perform_cases m p act entry with ⟨_, -, hs⟩ | ⟨-, hs⟩
  · rw [hs]
  · rw [hs, hact]

/-- Mapping changes pages only. -/
theorem unpaged_map (m : Machine) (q : MapRequest) :
    (m.map q).2.space.unpaged = m.space.unpaged := by
  refine unpaged_perform m _ _ fun s => ?_
  split
  · rfl
  · unfold Space.map
    split
    · rfl
    · split <;> rfl

/-- So does unmapping. -/
theorem unpaged_unmap (m : Machine) (address length : Nat) :
    (m.unmap address length).2.space.unpaged = m.space.unpaged := by
  refine unpaged_perform m _ _ fun s => ?_
  unfold Space.unmap
  split <;> rfl

/-- So does a change of protection. -/
theorem unpaged_protect (m : Machine) (address length : Nat) (rights : Rights) :
    (m.protect address length rights).2.space.unpaged = m.space.unpaged := by
  refine unpaged_perform m _ _ fun s => ?_
  unfold Space.protect
  split
  · rfl
  · split <;> rfl

/-- So does tagging. -/
theorem unpaged_keyProtect (m : Machine) (address length : Nat) (rights : Rights) (key : Nat) :
    (m.keyProtect address length rights key).2.space.unpaged = m.space.unpaged := by
  unfold keyProtect
  split
  · refine unpaged_perform m _ _ fun s => ?_
    unfold Space.keyProtect
    split
    · rfl
    · split
      · rfl
      · split <;> rfl
  · rfl

/-! ## Writing -/

section Write

variable {address length : Nat} {source : Nat → UInt8}
variable (h : m'.space = m.space.write address length source)
variable (hmapped : ∀ n, PageTable.InRange (pageOf address) (Space.touched address length) n →
  (m.pageAt n).isSome = true)

include h hmapped

/-- What is written where everything is mapped is an update of the table. -/
theorem space_write :
    m'.space = { m.space with
      table := m.space.table.update (pageOf address) (Space.touched address length) fun n p =>
        { p with bytes := fun i =>
            if address ≤ n * pageSize + i ∧ n * pageSize + i < address + length then
              source (n * pageSize + i - address)
            else p.bytes i } } := by
  rw [h, Space.write, if_pos (PageTable.allMapped_iff.2 hmapped)]

/-- Writing to mapped pages does not stop the program. -/
theorem unpaged_write : m'.space.unpaged = m.space.unpaged := by
  rw [space_write h hmapped]
  rfl

/-- **Writing to mapped pages changes the bytes of the range**, and nothing
else. -/
theorem pageAt_write (n : Nat) :
    m'.pageAt n = (m.pageAt n).map fun p =>
      { p with bytes := fun i =>
          if address ≤ n * pageSize + i ∧ n * pageSize + i < address + length then
            source (n * pageSize + i - address)
          else p.bytes i } := by
  simp only [pageAt, space_write h hmapped, PageTable.get?_update]
  split
  · rfl
  · -- a page that is not touched has no byte of the range
    rename_i hout
    have hbytes : ∀ i : Fin pageSize,
        ¬ (address ≤ n * pageSize + i ∧ n * pageSize + i < address + length) :=
      fun i hi => hout (Space.inRange_touched hi)
    simp only [hbytes, if_false, Option.map_id']

/-- So a page outside of the range, or of a longer one, is what it was. -/
theorem pageAt_write_of_not_pageIn {size n : Nat} (ha : Aligned address) (hle : length ≤ size)
    (hn : ¬ PageIn address (address + roundUp size pageSize) n) : m'.pageAt n = m.pageAt n := by
  have hspan := le_roundUp size
  have hbytes : ∀ i : Fin pageSize,
      ¬ (address ≤ n * pageSize + i ∧ n * pageSize + i < address + length) := by
    intro i hi
    have hlt := i.isLt
    simp only [PageIn, Aligned, roundUp, pageSize] at *
    omega
  rw [pageAt_write h hmapped]
  simp only [hbytes, if_false, Option.map_id']

end Write

/-- What is written where not everything is mapped stops the program. -/
theorem space_write_of_gap {address length : Nat} {source : Nat → UInt8}
    (h : m'.space = m.space.write address length source)
    (hgap : ¬ ∀ n, PageTable.InRange (pageOf address) (Space.touched address length) n →
      (m.pageAt n).isSome = true) :
    m'.space = { m.space with crashed := true } := by
  rw [h, Space.write, if_neg fun hall => hgap (PageTable.allMapped_iff.1 hall)]

end Machine

end PageWarden
