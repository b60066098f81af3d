import PageWarden.Proofs.Flank
import PageWarden.Proofs.Guard.Page
import PageWarden.Proofs.Memory.Whole
/-!
# Guards — placing them is harmless, and removing them takes it back

A guard goes on a free page or nowhere, on the systems that know how to
bind an address as on those that do not: these may put the page anywhere,
and a page that lies elsewhere is unmapped before anything else is asked
for. So an attempt shows in the memory as the guard it answers with and in
no other way (`pageAt_place_eq`), whatever faults are scheduled for
mapping.

For a record without guards this says what guarding it comes to, page by
page (`pageAt_placeAll`). Its guards lie on free pages, so unmapping them
again restores the space (`placeAll_reversible`).
-/

namespace PageWarden

namespace Guard

variable {m : Machine} {r : Record} {address n : Nat}

/-! ## The rest of the space -/

/-- An attempt to place a guard changes pages only. -/
theorem unpaged_place (m : Machine) (address : Nat) :
    (place m address).2.space.unpaged = m.space.unpaged := by
  have hmap := Machine.unpaged_map m (request address)
  unfold place
  split <;> rename_i hq <;> rw [hq] at hmap
  · split
    · exact hmap
    · exact (Machine.unpaged_unmap _ _ _).trans hmap
  · exact hmap

/-- So does lifting one. -/
theorem unpaged_lift (m : Machine) (address : Nat) :
    (lift m address).space.unpaged = m.space.unpaged := by
  have hunmap := Machine.unpaged_unmap m address pageSize
  unfold lift
  split <;> rename_i hq <;> rw [hq] at hunmap <;> exact hunmap

/-- So does guarding a record. -/
theorem unpaged_placeAll (m : Machine) (r : Record) :
    (placeAll m r).2.space.unpaged = m.space.unpaged := by
  have hbelow : (placeBelow m r).2.space.unpaged = m.space.unpaged := by
    unfold placeBelow
    split
    · rfl
    · exact unpaged_place _ _
  have habove : ∀ m r, (placeAbove m r).2.space.unpaged = m.space.unpaged := by
    intro m r
    unfold placeAbove
    split
    · rfl
    · exact unpaged_place _ _
  exact (habove _ _).trans hbelow

/-- So does removing its guards. -/
theorem unpaged_removeAll (m : Machine) (r : Record) :
    (removeAll m r).2.space.unpaged = m.space.unpaged := by
  rw [removeAll_snd]
  induction r.guards generalizing m with
  | nil => rfl
  | cons g rest ih => exact (ih _).trans (unpaged_lift m g)

/-! ## Placing -/

/-- **A guard that is placed lies where it was asked for**, on a page that
was free. -/
theorem of_place_eq_some {g : Nat} (h : (place m address).1 = some g) :
    g = address ∧ Aligned g ∧ m.pageAt (pageOf g) = none := by
  rcases place_fst m address with hnone | hsome
  · rw [hnone] at h
    cases h
  · obtain ⟨ha, hfree, -⟩ := place_eq_some hsome
    obtain rfl : address = g := Option.some.inj (hsome.symm.trans h)
    exact ⟨rfl, ha, Machine.rightsAt_eq_none_iff.1 hfree⟩

/-- A guard is placed exactly if its page is free, where the call passes. -/
theorem place_eq_some_iff (hm : m.Passes .map 1)
    (hknown : m.platform.honoursNoReplace = true ∨ address ≠ 0) (ha : Aligned address) :
    (place m address).1 = some address ↔ m.pageAt (pageOf address) = none :=
  ⟨fun h => (of_place_eq_some h).2.2,
    fun h => (place_eq_some_iff_chosen hm ha).2 (choosePage_of_free hknown ha h)⟩

/-- **An attempt to place a guard shows in the guard it answers with**, and
in no other page, where no unmapping is scheduled to fail. -/
theorem pageAt_place_eq (hm : m.faults .unmap = []) (address n : Nat) :
    (place m address).2.pageAt n =
      if (place m address).1 = some (n * pageSize) then some (.fresh .noAccess)
      else m.pageAt n := by
  split
  · rename_i hn
    obtain ⟨rfl, -, -⟩ := of_place_eq_some hn
    rw [pageAt_place_of_placed hn, if_pos rfl]
  · rename_i hn
    exact pageAt_place_of_ne hm hn

/-! ## Guarding a record -/

/-- **Guarding below shows in the guard alone**, and the guard takes a free
page. -/
theorem placeBelow_shows (hm : m.faults .unmap = []) (hnone : r.guardBelow = none) :
    (∀ n, (placeBelow m r).2.pageAt n =
        if (placeBelow m r).1.guardBelow = some (n * pageSize) then some (.fresh .noAccess)
        else m.pageAt n) ∧
      ∀ g, (placeBelow m r).1.guardBelow = some g → m.pageAt (pageOf g) = none := by
  unfold placeBelow
  split
  · simp only [hnone]
    exact ⟨fun n => (if_neg nofun).symm, nofun⟩
  · exact ⟨pageAt_place_eq hm _, fun g hg => (of_place_eq_some hg).2.2⟩

/-- **Guarding above shows in the guard alone**, and the guard takes a free
page. -/
theorem placeAbove_shows (hm : m.faults .unmap = []) (hnone : r.guardAbove = none) :
    (∀ n, (placeAbove m r).2.pageAt n =
        if (placeAbove m r).1.guardAbove = some (n * pageSize) then some (.fresh .noAccess)
        else m.pageAt n) ∧
      ∀ g, (placeAbove m r).1.guardAbove = some g → m.pageAt (pageOf g) = none := by
  rw [placeAbove_eq hnone]
  exact ⟨pageAt_place_eq hm _, fun g hg => (of_place_eq_some hg).2.2⟩

/-- Guarding below leaves the guard above alone. -/
theorem guardAbove_placeBelow (m : Machine) (r : Record) :
    (placeBelow m r).1.guardAbove = r.guardAbove := by
  unfold placeBelow
  split <;> rfl

/-- Guarding above leaves the guard below alone. -/
theorem guardBelow_placeAbove (m : Machine) (r : Record) :
    (placeAbove m r).1.guardBelow = r.guardBelow := by
  unfold placeAbove
  split <;> rfl

section Bare

variable (hm : m.faults .unmap = []) (hbare : r.bare = r)

include hm hbare

/-- **Guarding a record shows in its guards alone**: each of them takes a
free page. -/
theorem placeAll_shows :
    (∀ n, (placeAll m r).2.pageAt n =
        if n * pageSize ∈ (placeAll m r).1.guards then some (.fresh .noAccess)
        else m.pageAt n) ∧
      ∀ g ∈ (placeAll m r).1.guards, m.pageAt (pageOf g) = none := by
  have hnone : r.guardBelow = none ∧ r.guardAbove = none := by
    rw [← hbare]
    exact ⟨rfl, rfl⟩
  have hm' : (placeBelow m r).2.faults .unmap = [] :=
    (upkeep_placeBelow m r).calls.unscheduled hm
  obtain ⟨hbelow, hfree⟩ := placeBelow_shows hm hnone.1
  obtain ⟨habove, hfree'⟩ :=
    placeAbove_shows hm' ((guardAbove_placeBelow m r).trans hnone.2)
  refine ⟨fun n => ?_, fun g hg => ?_⟩
  · show (placeAbove _ _).2.pageAt n = _
    rw [habove, hbelow]
    simp only [placeAll, Record.mem_guards, guardBelow_placeAbove]
    by_cases ha : (placeAbove (placeBelow m r).2 (placeBelow m r).1).1.guardAbove =
        some (n * pageSize)
    · rw [if_pos ha, if_pos (Or.inr ha)]
    · rw [if_neg ha]
      exact if_congr (by simp only [ha, or_false]) rfl rfl
  · rcases Record.mem_guards.1 hg with hg | hg
    · exact hfree g ((guardBelow_placeAbove _ _).symm.trans hg)
    · -- the guard below, if it was placed, freed no page
      have hstill := hfree' g hg
      rw [hbelow] at hstill
      split at hstill
      · cases hstill
      · exact hstill

/-- **A guard is what is inaccessible now and was free.** -/
theorem mem_guards_placeAll_iff {a : Nat} (ha : Aligned a) :
    a ∈ (placeAll m r).1.guards ↔ m.pageAt (pageOf a) = none ∧
      (placeAll m r).2.pageAt (pageOf a) = some (.fresh .noAccess) := by
  obtain ⟨hpage, hfree⟩ := placeAll_shows hm hbare
  rw [hpage, pageOf_mul_pageSize ha]
  constructor
  · intro hg
    exact ⟨hfree a hg, if_pos hg⟩
  · rintro ⟨hnone, hfresh⟩
    by_contra hout
    rw [if_neg hout, hnone] at hfresh
    cases hfresh

/-- **Removing the guards restores the space.** -/
theorem space_removeAll_placeAll :
    (removeAll (placeAll m r).2 (placeAll m r).1).2.space = m.space := by
  obtain ⟨hpage, hfree⟩ := placeAll_shows hm hbare
  have hm' : (placeAll m r).2.faults .unmap = [] := (upkeep_placeAll m r).calls.unscheduled hm
  refine Space.eq_of_unpaged ((unpaged_removeAll _ _).trans (unpaged_placeAll m r)) fun n => ?_
  show (removeAll _ _).2.pageAt n = m.pageAt n
  rw [removeAll_snd, pageAt_foldl_lift (Machine.passes_of_unscheduled hm' _)]
  split
  · rename_i hg
    have hgone := hfree _ hg
    rw [pageOf_start] at hgone
    exact hgone.symm
  · rename_i hout
    rw [hpage, if_neg hout]

end Bare

/-! ## Its flanks -/

/-- The page below an address that begins on a page begins on one. -/
theorem aligned_below {a b : Nat} (hb : Aligned b) (h : a + pageSize = b) : Aligned a := by
  simp only [Aligned, pageSize] at hb h ⊢
  omega

section Flanks

variable (hs : r.Shaped) (hbare : r.bare = r)

include hs hbare

/-- The guards of a record that had none flank it. -/
theorem flanked_placeAll (m : Machine) : (placeAll m r).1.Flanked :=
  flanked_placeAbove (flanked_placeBelow (Record.flanked_of_bare hbare) hs m) _

/-- The one below lies on the page below the record, -/
theorem add_pageSize_of_guardBelow {g : Nat} (hg : (placeAll m r).1.guardBelow = some g) :
    g + pageSize = r.base := by
  have hbase : (placeAll m r).1.bare.base = r.bare.base := by rw [bare_placeAll]
  exact ((flanked_placeAll hs hbare m).below hg).trans hbase

/-- and the one above on the first page past it. -/
theorem eq_stop_of_guardAbove {g : Nat} (hg : (placeAll m r).1.guardAbove = some g) :
    g = r.stop pageSize := by
  have hstop : (placeAll m r).1.bare.stop pageSize = r.bare.stop pageSize := by rw [bare_placeAll]
  exact ((flanked_placeAll hs hbare m).above hg).trans hstop

/-- **So a guard below is a guard on the page below**, -/
theorem guardBelow_placeAll_iff_mem {a : Nat} :
    (placeAll m r).1.guardBelow = some a ↔
      a + pageSize = r.base ∧ a ∈ (placeAll m r).1.guards := by
  refine ⟨fun ha => ⟨add_pageSize_of_guardBelow hs hbare ha, Record.mem_guards.2 (Or.inl ha)⟩, ?_⟩
  rintro ⟨hat, ha⟩
  refine (Record.mem_guards.1 ha).resolve_right fun habove => ?_
  have hstop := eq_stop_of_guardAbove hs hbare habove
  have hle : r.base ≤ r.stop pageSize := Nat.le_add_right _ _
  have hpos := pageSize_pos
  omega

/-- **and a guard above one on the first page past it.** -/
theorem guardAbove_placeAll_iff_mem {a : Nat} :
    (placeAll m r).1.guardAbove = some a ↔
      a = r.stop pageSize ∧ a ∈ (placeAll m r).1.guards := by
  refine ⟨fun ha => ⟨eq_stop_of_guardAbove hs hbare ha, Record.mem_guards.2 (Or.inr ha)⟩, ?_⟩
  rintro ⟨hat, ha⟩
  refine (Record.mem_guards.1 ha).resolve_left fun hbelow => ?_
  have hbase := add_pageSize_of_guardBelow hs hbare hbelow
  have hle : r.base ≤ r.stop pageSize := Nat.le_add_right _ _
  have hpos := pageSize_pos
  omega

end Flanks

/-- **Guarding a record is harmless, and removing its guards takes it back.**
On every system, under every schedule of faults for mapping: no page that
was mapped changes; a page that is mapped now and was not lies on a flank
of the record, as its guard; a guard field is set exactly where a flank
was free and is now inaccessible; the record keeps everything but its
guards; and removing them again restores record and space.

Both flanks are meant to end below 2^64. Beside the topmost page they do
not, and there the program stops on overflow (`Pages`). -/
theorem placeAll_reversible (hm : m.faults .unmap = []) (hs : r.Shaped) (hbare : r.bare = r) :
    let placed := placeAll m r
    let removed := removeAll placed.2 placed.1
    (∀ n p, m.pageAt n = some p → placed.2.pageAt n = some p) ∧
      (∀ n, m.pageAt n = none → placed.2.pageAt n ≠ none →
        (n * pageSize + pageSize = r.base ∨ n * pageSize = r.stop pageSize) ∧
          n * pageSize ∈ placed.1.guards) ∧
      (∀ a, placed.1.guardBelow = some a ↔
        a + pageSize = r.base ∧ m.pageAt (pageOf a) = none ∧
          placed.2.pageAt (pageOf a) = some (.fresh .noAccess)) ∧
      (∀ a, placed.1.guardAbove = some a ↔
        a = r.stop pageSize ∧ m.pageAt (pageOf a) = none ∧
          placed.2.pageAt (pageOf a) = some (.fresh .noAccess)) ∧
      placed.1.bare = r ∧ removed.1 = r ∧ removed.2.space = m.space := by
  intro placed removed
  obtain ⟨hpage, hfree⟩ := placeAll_shows hm hbare
  have hsame : placed.1.bare = r := (bare_placeAll m r).trans hbare
  refine ⟨fun n p hp => ?_, fun n hn hmapped => ?_, fun a => ?_, fun a => ?_, hsame,
    (removeAll_fst _ _).trans hsame, space_removeAll_placeAll hm hbare⟩
  · rw [hpage, if_neg, hp]
    intro hg
    have hgone := hfree _ hg
    rw [pageOf_start, hp] at hgone
    cases hgone
  · have hg : n * pageSize ∈ placed.1.guards := by
      by_contra hout
      exact hmapped ((hpage n).trans ((if_neg hout).trans hn))
    exact ⟨(Record.mem_guards.1 hg).imp (add_pageSize_of_guardBelow hs hbare)
      (eq_stop_of_guardAbove hs hbare), hg⟩
  · refine (guardBelow_placeAll_iff_mem hs hbare).trans (and_congr_right fun hat => ?_)
    exact mem_guards_placeAll_iff hm hbare (aligned_below hs.1 hat)
  · refine (guardAbove_placeAll_iff_mem hs hbare).trans (and_congr_right fun hat => ?_)
    exact mem_guards_placeAll_iff hm hbare (hat ▸ hs.1.add_roundUp r.length)

/-- A system that takes binding addresses for hints, where three pages are
mapped and the first calls of mapping come to `calls`. -/
def hinting (calls : List (Option Errno)) : Machine where
  space := { table := ⟨[(2, .fresh .read), (3, .fresh .read), (4, .fresh .exec)], by decide⟩ }
  platform := { honoursNoReplace := false }
  faults := Faults.never.set .map calls

/-- Of a record on the first two of them, the guard below is placed and
the one above is put elsewhere and goes again; or the first is refused
and so is neither there. -/
theorem placeAll_reversible_hinting :
    let r := Record.fresh 0x2000 5000 .read
    (placeAll (hinting []) r).1.guards = [0x1000] ∧
      (removeAll (placeAll (hinting []) r).2 (placeAll (hinting []) r).1).2.space =
        (hinting []).space ∧
      (placeAll (hinting [some Errno.nomem]) r).1.guards = [] ∧
      ∀ n p, (hinting [some Errno.nomem]).pageAt n = some p →
        (placeAll (hinting [some Errno.nomem]) r).2.pageAt n = some p :=
  have hs : (Record.fresh 0x2000 5000 .read).Shaped := ⟨by decide, by decide⟩
  ⟨by decide +kernel, (placeAll_reversible rfl hs rfl).2.2.2.2.2.2, by decide +kernel,
    (placeAll_reversible rfl hs rfl).1⟩

end Guard

end PageWarden
