import PageWarden.Proofs.AllOrNothing
/-!
# Creating — what a new mapping leaves of memory

Once the machine has mapped a range for memory without a file, the records
that reach into the range give it up, a record of its own gets its guards,
and the memory is overwritten if the configuration asks for that. Of these
steps only the last is about the range: a carve unmaps guards and nothing
else, and none of the range, since those are forgotten first
(`pageAt_carve_cases`); and a guard takes a page that was free.

So the pages of the range are what was asked for, and every other page is
what it was, unless it is a guard that went or one that came
(`create_fills`). Nothing has to be known of the records for that, neither
that their ranges are well formed and disjoint, nor where their guards
lie.
-/

namespace PageWarden

/-- **Some record has page `n` for a guard.** -/
def Store.Guards (s : Store) (n : Nat) : Prop :=
  ∃ h r, s.get? h = some r ∧ n * pageSize ∈ r.guards

/-- The listing tells which pages are guards. -/
theorem Store.guards_iff {s : Store} {n : Nat} :
    s.Guards n ↔ ∃ e ∈ s.entries, n * pageSize ∈ e.2.guards := by
  simp [Guards, ← mem_entries_iff]

/-- The bytes of page `n` of `length` bytes at `a` that were overwritten,
and of the zeros behind them. -/
def poisonBytes (a length n : Nat) : Fin pageSize → UInt8 :=
  fun i => if n * pageSize + i < a + length then poisonByte else 0

namespace Warden

/-- **The memory at `a` is as requested**, and the rest of memory as it was,
but for guards. -/
structure Fills (w : Warden) (q : MapRequest) (a : Nat) (v : Warden) : Prop where
  /-- The pages of the range have the rights that were asked for and no key.
  They are overwritten up to the length, or they are zero. -/
  pages : ∀ n, PageIn a (a + roundUp q.length pageSize) n →
    v.machine.pageAt n = some ⟨q.rights, none,
      if w.config.poisonOnAllocation = true ∧ q.rights.has .write = true
      then poisonBytes a q.length n else fun _ => 0⟩
  /-- A page outside of it that is no guard, before or after, is what it was. -/
  frame : ∀ n, ¬ PageIn a (a + roundUp q.length pageSize) n → ¬ w.store.Guards n →
    ¬ v.store.Guards n → v.machine.pageAt n = w.machine.pageAt n
  /-- A guard can only go or come. -/
  guards : ∀ n, ¬ PageIn a (a + roundUp q.length pageSize) n →
    v.machine.pageAt n = w.machine.pageAt n ∨
      w.store.Guards n ∧ v.machine.pageAt n = none ∨
      v.store.Guards n ∧ v.machine.pageAt n = some (.fresh .noAccess)
  /-- And the program goes on. -/
  running : v.machine.space.crashed = w.machine.space.crashed

end Warden

namespace Machine

/-- To fill a range is to write to it. -/
theorem space_fill (m : Machine) (address length : Nat) (byte : UInt8) :
    (m.fill address length byte).space = m.space.write address length fun _ => byte :=
  rfl

/-- What follows up a request does not stop the program. -/
theorem Upkeep.crashed {m m' : Machine} (h : Upkeep m m') :
    m'.space.crashed = m.space.crashed := by
  induction h with
  | refl => rfl
  | tell _ _ ih => exact ih
  | place _ a ih => exact (Space.crashed_of_unpaged (Guard.unpaged_place _ a)).trans ih
  | lift _ a ih => exact (Space.crashed_of_unpaged (Guard.unpaged_lift _ a)).trans ih
  | keyFree _ κ ih =>
    unfold Machine.keyFree
    split <;> exact ih

end Machine

/-! ## Guards that are lifted -/

namespace Guard

variable {m : Machine} {r : Record} {n : Nat}

/-- Lifting guards takes pages of theirs away, or nothing. -/
theorem pageAt_foldl_lift_cases (guards : List Nat) (m : Machine) (n : Nat) :
    (guards.foldl lift m).pageAt n = m.pageAt n ∨
      n * pageSize ∈ guards ∧ (guards.foldl lift m).pageAt n = none := by
  induction guards generalizing m with
  | nil => exact Or.inl rfl
  | cons g rest ih =>
    rw [List.foldl_cons]
    rcases ih (lift m g) with hsame | ⟨hmem, hnone⟩
    · rw [hsame]
      rcases pageAt_lift_cases m g n with hkept | ⟨hg, hgone⟩
      · exact Or.inl hkept
      · exact Or.inr ⟨List.mem_cons.2 (Or.inl hg), hgone⟩
    · exact Or.inr ⟨List.mem_cons_of_mem g hmem, hnone⟩

/-- Removing the guard below is lifting it. -/
theorem removeBelow_snd (m : Machine) (r : Record) :
    (removeBelow m r).2 = r.guardBelow.toList.foldl lift m := by
  unfold removeBelow
  split <;> rename_i hguard <;> rw [hguard] <;> rfl

/-- So it is with the one above. -/
theorem removeAbove_snd (m : Machine) (r : Record) :
    (removeAbove m r).2 = r.guardAbove.toList.foldl lift m := by
  unfold removeAbove
  split <;> rename_i hguard <;> rw [hguard] <;> rfl

end Guard

namespace Record

variable {r s : Record} {start stop g n : Nat}

/-- A part of a record has no guards but those of the record. -/
theorem PartOf.mem_guards (hs : r.PartOf start stop s) (hg : g ∈ s.guards) : g ∈ r.guards := by
  rw [Record.mem_guards] at hg ⊢
  rcases hs with ⟨-, rfl⟩ | ⟨-, rfl⟩
  · exact hg.imp_right nofun
  · exact hg.imp_left nofun

/-- A record that forgets the guards in a range has those outside of it. -/
theorem mem_guards_of_forgetWithin (hg : n * pageSize ∈ (r.forgetWithin start stop).guards) :
    n * pageSize ∈ r.guards ∧ ¬ PageIn start stop n := by
  have hpart : ∀ {p}, p ≠ .body → (r.forgetWithin start stop).Holds p n →
      r.Holds p n ∧ ¬ PageIn start stop n := fun hp hheld =>
    ⟨holds_of_forgetWithin hheld, not_pageIn_of_holds_forgetWithin hheld hp⟩
  rcases mem_guards.1 hg with hbelow | habove
  · exact (hpart (p := .below) nofun hbelow).imp_left fun h => mem_guards.2 (Or.inl h)
  · exact (hpart (p := .above) nofun habove).imp_left fun h => mem_guards.2 (Or.inr h)

end Record

/-! ## Carving -/

namespace Warden

variable {w v : Warden} {h : Handle} {r : Record} {start stop n : Nat}

/-- Guards that are forgotten are those of the range. -/
theorem guards_of_forgetGuards (hg : (w.forgetGuards start stop).store.Guards n) :
    w.store.Guards n ∧ ¬ PageIn start stop n := by
  obtain ⟨k, s, hs, hg⟩ := hg
  rw [get?_forgetGuards] at hs
  obtain ⟨r, hr, rfl⟩ := Option.map_eq_some_iff.1 hs
  obtain ⟨hmem, hout⟩ := Record.mem_guards_of_forgetWithin hg
  exact ⟨⟨k, r, hr, hmem⟩, hout⟩

/-- A cut adds no guard. -/
theorem guards_of_cut (hr : w.store.get? h = some r)
    (hg : (w.cut h start stop false).store.Guards n) : w.store.Guards n := by
  obtain ⟨k, s, hs, hg⟩ := hg
  have hpart : (r.forgetWithin start stop).PartOf start stop s → w.store.Guards n := fun hs =>
    ⟨h, r, hr, (Record.mem_guards_of_forgetWithin (hs.mem_guards hg)).1⟩
  rcases get?_cut_cases hr hs with ⟨-, hs⟩ | ⟨-, hs⟩ | ⟨-, -, hs⟩
  · exact hpart (Record.partOf_iff.2 (Or.inl hs))
  · exact hpart (Record.partOf_iff.2 (Or.inr hs))
  · exact ⟨k, s, hs, hg⟩

/-- **A cut takes away guards of its record, or no page at all.** -/
theorem pageAt_cut_cases (hr : w.store.get? h = some r) (n : Nat) :
    (w.cut h start stop false).machine.pageAt n = w.machine.pageAt n ∨
      n * pageSize ∈ (r.forgetWithin start stop).guards ∧
        (w.cut h start stop false).machine.pageAt n = none := by
  unfold cut
  simp only [hr]
  split
  · split
    · -- it lies in the range
      obtain ⟨t, ht⟩ := Store.exists_remove_of_get? hr
      unfold dropRecord
      simp only [ht]
      show (releaseKey _ _).machine.pageAt n = _ ∨ _ ∧ (releaseKey _ _).machine.pageAt n = none
      rw [pageAt_releaseKey, Guard.removeAll_snd]
      exact Guard.pageAt_foldl_lift_cases _ _ n
    · -- it reaches out above
      rw [trimHead_eq]
      show (Guard.removeBelow _ _).2.pageAt n = _ ∨ _ ∧ (Guard.removeBelow _ _).2.pageAt n = none
      rw [Guard.removeBelow_snd]
      exact (Guard.pageAt_foldl_lift_cases _ _ n).imp_right
        (And.imp_left fun hg => List.mem_append_left _ hg)
  · split
    · -- it reaches out below
      rw [trimTail_eq]
      show (Guard.removeAbove _ _).2.pageAt n = _ ∨ _ ∧ (Guard.removeAbove _ _).2.pageAt n = none
      rw [Guard.removeAbove_snd]
      exact (Guard.pageAt_foldl_lift_cases _ _ n).imp_right
        (And.imp_left fun hg => List.mem_append_right _ hg)
    · -- it reaches out on both sides, and both guards stay
      rw [splitRecord_eq]
      exact Or.inl rfl

/-- **A carve takes away guards that lie outside of its range, or no page at
all.** -/
theorem pageAt_carve_cases (w : Warden) (start stop : Nat) (keep : Option Handle) (n : Nat) :
    (w.carve start stop keep).machine.pageAt n = w.machine.pageAt n ∨
      ¬ PageIn start stop n ∧ w.store.Guards n ∧
        (w.carve start stop keep).machine.pageAt n = none := by
  -- a guard that can still be lifted was one before, and was not forgotten
  refine (carve_induction (motive := fun _ v =>
    (v.store.Guards n → w.store.Guards n ∧ ¬ PageIn start stop n) ∧
      (v.machine.pageAt n = w.machine.pageAt n ∨
        ¬ PageIn start stop n ∧ w.store.Guards n ∧ v.machine.pageAt n = none))
    ⟨guards_of_forgetGuards, Or.inl rfl⟩ ?_).2
  intro v h r _ ⟨hguards, hpage⟩ hr _ _
  refine ⟨fun hg => hguards (guards_of_cut (w := v.tell _) hr hg), ?_⟩
  rcases pageAt_cut_cases (w := v.tell _) hr n with hsame | ⟨hg, hgone⟩
  · rw [hsame]
    exact hpage
  · obtain ⟨hguard, hout⟩ := hguards ⟨h, r, hr, (Record.mem_guards_of_forgetWithin hg).1⟩
    exact Or.inr ⟨hout, hguard, hgone⟩

/-! ## Following a mapping up -/

section Mapped

variable {q : MapRequest} {a : Nat} {m : Machine} (hmap : w.machine.map q = (.ok a, m))

include hmap

/-- What was mapped is there, as it is mapped. -/
theorem pageAt_of_mapped (hn : PageIn a (a + roundUp q.length pageSize) n) :
    m.pageAt n = some (.fresh q.rights) :=
  (Machine.pageAt_map hmap n).trans (if_pos hn)

variable (hm : w.machine.faults .unmap = []) (hq : q.isAnonymous = true)

include hm hq

/-- **The follow-up of a mapping changes no page but guards**, and those lie
outside of the mapping. -/
theorem pageAt_settle_cases (n : Nat) :
    (settle { w with machine := m } q a).machine.pageAt n = m.pageAt n ∨
      ¬ PageIn a (a + roundUp q.length pageSize) n ∧
        (w.store.Guards n ∧ (settle { w with machine := m } q a).machine.pageAt n = none ∨
          (settle { w with machine := m } q a).store.Guards n ∧
            (settle { w with machine := m } q a).machine.pageAt n = some (.fresh .noAccess)) := by
  have hm' : m.faults .unmap = [] := (Machine.calls_of_map hmap).unscheduled hm
  unfold settle
  rw [hq]
  split
  · rw [if_pos rfl, track_eq]
    have hcarve := pageAt_carve_cases { w with machine := m } a (a + roundUp q.length pageSize)
      none n
    have hunmaps := (upkeep_carve { w with machine := m } a (a + roundUp q.length pageSize)
      none).calls.unscheduled hm'
    generalize carve { w with machine := m } a (a + roundUp q.length pageSize) none = u
      at hcarve hunmaps
    obtain ⟨r, -, -, hstore, hfree, hpage, -⟩ :=
      enroll_shows (r := .fresh a q.length q.rights) hunmaps (Machine.aligned_of_map hmap) rfl
    show (u.enroll _).machine.pageAt n = _ ∨
      _ ∧ (_ ∧ (u.enroll _).machine.pageAt n = none ∨
        (u.enroll _).store.Guards n ∧ (u.enroll _).machine.pageAt n = _)
    rw [hpage, hstore]
    split
    · -- a page that takes a guard was free, and so it is not one of the mapping
      rename_i hg
      have hnone : u.machine.pageAt n = none := by
        have hgone := hfree _ hg
        rwa [pageOf_start] at hgone
      have hguards : (u.store.insert r).2.Guards n :=
        ⟨_, r, by rw [Store.get?_insert, if_pos rfl], hg⟩
      refine Or.inr ⟨fun hin => ?_, Or.inr ⟨hguards, rfl⟩⟩
      rcases hcarve with hsame | ⟨hout, -⟩
      · have hfresh : m.pageAt n = some (.fresh q.rights) := pageAt_of_mapped hmap hin
        rw [hnone] at hsame
        cases hsame.trans hfresh
      · exact hout hin
    · exact hcarve.imp_right (And.imp_right Or.inl)
  · exact Or.inl rfl

/-- So the range is as it was mapped, -/
theorem pageAt_settle_of_pageIn (hn : PageIn a (a + roundUp q.length pageSize) n) :
    (settle { w with machine := m } q a).machine.pageAt n = some (.fresh q.rights) :=
  ((pageAt_settle_cases hmap hm hq n).resolve_right fun hout => hout.1 hn).trans
    (pageAt_of_mapped hmap hn)

/-- and beyond it only guards differ from before. -/
theorem pageAt_settle_of_not_pageIn (hn : ¬ PageIn a (a + roundUp q.length pageSize) n) :
    (settle { w with machine := m } q a).machine.pageAt n = w.machine.pageAt n ∨
      w.store.Guards n ∧ (settle { w with machine := m } q a).machine.pageAt n = none ∨
      (settle { w with machine := m } q a).store.Guards n ∧
        (settle { w with machine := m } q a).machine.pageAt n = some (.fresh .noAccess) := by
  have hold : m.pageAt n = w.machine.pageAt n := (Machine.pageAt_map hmap n).trans (if_neg hn)
  rw [← hold]
  exact (pageAt_settle_cases hmap hm hq n).imp_right And.right

omit hm hq in
/-- Neither the mapping nor its follow-up stops the program. -/
theorem crashed_settle :
    (settle { w with machine := m } q a).machine.space.crashed = w.machine.space.crashed := by
  have hrest := Machine.unpaged_map w.machine q
  rw [hmap] at hrest
  exact (upkeep_settle { w with machine := m } q a).crashed.trans
    (Space.crashed_of_unpaged hrest)

end Mapped

/-! ## Overwriting -/

section Poisoned

variable {q : MapRequest} {a : Nat} (hq : q.isAnonymous = true) (ha : Aligned a)
variable (hmapped : ∀ n, PageIn a (a + roundUp q.length pageSize) n →
  w.machine.pageAt n = some (.fresh q.rights))

include ha hmapped

/-- The pages that are overwritten are mapped. -/
theorem isSome_of_touched
    (hn : PageTable.InRange (pageOf a) (Space.touched a q.length) n) :
    (w.machine.pageAt n).isSome = true := by
  rw [hmapped n (Space.pageIn_of_inRange_touched ha (Nat.le_refl _) hn)]
  rfl

/-- Overwriting what is mapped does not stop the program. -/
theorem crashed_poison : (w.poison q a).machine.space.crashed = w.machine.space.crashed := by
  unfold poison
  split
  · exact Space.crashed_of_unpaged (Machine.unpaged_write (Machine.space_fill _ _ _ _)
      fun k => isSome_of_touched ha hmapped)
  · rfl

/-- Outside of the range nothing is overwritten, -/
theorem pageAt_poison_of_not_pageIn
    (hn : ¬ PageIn a (a + roundUp q.length pageSize) n) :
    (w.poison q a).machine.pageAt n = w.machine.pageAt n := by
  unfold poison
  split
  · exact Machine.pageAt_write_of_not_pageIn (Machine.space_fill _ _ _ _)
      (fun k => isSome_of_touched ha hmapped) ha (Nat.le_refl _) hn
  · rfl

include hq

/-- and in it fresh pages are, up to the length. -/
theorem pageAt_poison_of_pageIn (hn : PageIn a (a + roundUp q.length pageSize) n) :
    (w.poison q a).machine.pageAt n = some ⟨q.rights, none,
      if w.config.poisonOnAllocation = true ∧ q.rights.has .write = true
      then poisonBytes a q.length n else fun _ => 0⟩ := by
  have hstart : ∀ i : Fin pageSize, a ≤ n * pageSize + i := fun i => Nat.le_add_right_of_le hn.1
  unfold poison
  simp only [hq, Bool.true_and, Config.poisons, Bool.and_eq_true]
  split
  · show (w.machine.fill a q.length poisonByte).pageAt n = _
    rw [Machine.pageAt_write (Machine.space_fill _ _ _ _) fun k => isSome_of_touched ha hmapped,
      hmapped n hn]
    simp only [Option.map_some, Page.fresh, hstart, true_and]
    rfl
  · exact hmapped n hn

end Poisoned

/-! ## The request -/

/-- **A creation that succeeds leaves its range as requested** and overwritten
if that is asked for, and no other page changes but for guards, whatever
the range lies on and whatever records there are. -/
theorem create_fills {q : MapRequest} {a : Nat} (hm : w.machine.faults .unmap = [])
    (hq : q.isAnonymous = true) (h : w.create q = (.ok a, v)) : w.Fills q a v := by
  rw [create_eq] at h
  split at h
  · cases h
  · rcases hmap : w.machine.map q with ⟨errno | b, m⟩ <;> rw [hmap] at h
    · cases h
    · obtain ⟨rfl, rfl⟩ : b = a ∧ poison (settle { w with machine := m } q b) q b = v := by
        cases h
        exact ⟨rfl, rfl⟩
      have ha := (Machine.aligned_of_map hmap).1
      have hconfig : (settle { w with machine := m } q b).config = w.config := config_settle _ q b
      have hrunning := crashed_settle hmap
      have hfresh := fun n => pageAt_settle_of_pageIn (n := n) hmap hm hq
      have houtside := fun n => pageAt_settle_of_not_pageIn (n := n) hmap hm hq
      generalize settle { w with machine := m } q b = u at *
      have hguards : ∀ n, ¬ PageIn b (b + roundUp q.length pageSize) n →
          (u.poison q b).machine.pageAt n = w.machine.pageAt n ∨
            w.store.Guards n ∧ (u.poison q b).machine.pageAt n = none ∨
            (u.poison q b).store.Guards n ∧
              (u.poison q b).machine.pageAt n = some (.fresh .noAccess) := by
        intro n hn
        rw [pageAt_poison_of_not_pageIn ha hfresh hn, (alike_poison u q b).store]
        exact houtside n hn
      refine ⟨fun n hn => ?_, fun n hn hbefore hafter => ?_, hguards,
        (crashed_poison ha hfresh).trans hrunning⟩
      · rw [← hconfig]
        exact pageAt_poison_of_pageIn hq ha hfresh hn
      · refine (hguards n hn).resolve_right ?_
        rintro (⟨hguard, -⟩ | ⟨hguard, -⟩)
        · exact hbefore hguard
        · exact hafter hguard

/-- The neighbours of before, with what is mapped from now on overwritten. -/
def poisoning : Warden :=
  { neighbours with config := { neighbours.config with poisonOnAllocation := true } }

/-- Two pages to write, at the first two of their code. -/
def overCode : MapRequest :=
  ⟨0x7effffff9000, 5000, .readWrite, MapFlags.privateAnonymous.union .fixedAddress, -1, 0⟩

/-- The two pages hold 5000 bytes of poison, the page of code behind them is
what it was, and the guard below goes and comes back. -/
theorem overCode_filled :
    (poisoning.create overCode).1 = .ok 0x7effffff9000 ∧
      (poisoning.create overCode).2.machine.pageAt (pageOf 0x7effffffa000) =
        some ⟨.readWrite, none, poisonBytes 0x7effffff9000 5000 (pageOf 0x7effffffa000)⟩ ∧
      (poisoning.create overCode).2.machine.pageAt (pageOf 0x7effffffb000) =
        poisoning.machine.pageAt (pageOf 0x7effffffb000) ∧
      poisoning.store.Guards (pageOf 0x7effffff8000) ∧
      (poisoning.create overCode).2.store.Guards (pageOf 0x7effffff8000) := by
  have hok : (poisoning.create overCode).1 = .ok 0x7effffff9000 := rfl
  have hfills : poisoning.Fills overCode 0x7effffff9000 (poisoning.create overCode).2 :=
    create_fills rfl rfl (Prod.ext hok rfl)
  refine ⟨hok, ?_, hfills.frame _ (by decide) ?_ ?_, Store.guards_iff.2 (by decide +kernel),
    Store.guards_iff.2 (by decide +kernel)⟩
  · rw [hfills.pages _ (by decide), if_pos ⟨rfl, by decide⟩]
    rfl
  · rw [Store.guards_iff]
    decide +kernel
  · rw [Store.guards_iff]
    decide +kernel

end Warden

end PageWarden
