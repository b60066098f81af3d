import PageWarden.Proofs.Calls
/-!
# Guards — when placing and lifting succeed

Placing and lifting are best effort, and under faults or on a system that
does not know the binding flag all that can be said is what they leave
alone. Where no fault is due (`Machine.Passes`) more is true, page by
page. Lifting a guard takes exactly its page (`pageAt_lift`); and on a
system that knows the flag a guard that is asked for on a free page is
placed there (`place_of_free`).
-/

namespace PageWarden

namespace Machine

variable {m m' : Machine} {p : Primitive} {count : Nat}

/-- The next `count` calls of `p` meet no fault. -/
def Passes (m : Machine) (p : Primitive) (count : Nat) : Prop :=
  ∀ e ∈ (m.faults p).take count, e = none

/-- Where nothing is scheduled, every call passes. -/
theorem passes_of_unscheduled (h : m.faults p = []) (count : Nat) : m.Passes p count := by
  intro e he
  rw [h, List.take_nil] at he
  cases he

/-- Fewer calls pass as well. -/
theorem Passes.mono {count' : Nat} (h : m.Passes p count) (hle : count' ≤ count) :
    m.Passes p count' :=
  fun e he => h e (List.take_subset_take_left _ hle he)

/-- What passes is decided by the schedule. -/
theorem Passes.congr (h : m.Passes p count) (hf : m'.faults p = m.faults p) :
    m'.Passes p count := by
  unfold Passes
  rw [hf]
  exact h

/-- A call uses up the first entry of its own schedule. -/
theorem faults_perform_self {α : Type} (m : Machine) (p : Primitive)
    (act : Space → Except Errno α × Space) (entry : Except Errno α → Call) :
    (m.perform p act entry).2.faults p = (m.faults p).tail := by
  simp only [perform, Faults.next]
  split
  · rename_i hnil
    show m.faults p = (m.faults p).tail
    rw [hnil, List.tail_nil]
  · rename_i hcons
    rw [hcons]
    exact if_pos rfl

/-- After one call that was due to pass, the others are. -/
theorem Passes.tail (h : m.Passes p (count + 1)) (hf : m'.faults p = (m.faults p).tail) :
    m'.Passes p count := by
  intro e he
  refine h e ?_
  rw [hf] at he
  cases hlist : m.faults p with
  | nil =>
    rw [hlist, List.tail_nil, List.take_nil] at he
    cases he
  | cons fault rest =>
    rw [hlist] at he
    exact List.mem_cons_of_mem _ he

/-- **A call that is due to pass does what its action says.** -/
theorem perform_of_passes {α : Type} (hm : m.Passes p 1) (act : Space → Except Errno α × Space)
    (entry : Except Errno α → Call) :
    (m.perform p act entry).1 = (act m.space).1 ∧
      (m.perform p act entry).2.space = (act m.space).2 := by
  have hdue : (m.faults.next p).1 = none := by
    unfold Faults.next
    split
    · rfl
    · rename_i fault rest hcons
      refine hm fault ?_
      rw [hcons]
      exact List.mem_cons_self
  simp only [perform, hdue, and_self]

end Machine

/-- The guards of a record, the one below first. -/
def Record.guards (r : Record) : List Nat := r.guardBelow.toList ++ r.guardAbove.toList

theorem Record.mem_guards {r : Record} {g : Nat} :
    g ∈ r.guards ↔ r.guardBelow = some g ∨ r.guardAbove = some g := by
  simp [guards]

namespace Guard

variable {m m' : Machine} {address n : Nat}

/-! ## Lifting -/

/-- **A guard that can be lifted is gone**, and nothing else is. -/
theorem pageAt_lift (hm : m.Passes .unmap 1) (n : Nat) :
    (lift m address).pageAt n = if n * pageSize = address then none else m.pageAt n := by
  split
  · rename_i hn
    have ha : Aligned address := hn ▸ aligned_mul_pageSize n
    have hgood : ¬ (¬ Aligned address ∨ pageSize = 0) := by
      rintro (hodd | hzero)
      · exact hodd ha
      · exact absurd hzero (Nat.ne_of_gt pageSize_pos)
    have hok : (m.unmap address pageSize).1 = .ok () := by
      rw [Machine.unmap, (Machine.perform_of_passes hm _ _).1, Space.unmap, if_neg hgood]
    unfold lift
    rcases hunmap : m.unmap address pageSize with ⟨errno | ⟨⟩, m'⟩
    · rw [hunmap] at hok
      cases hok
    · show m'.pageAt n = none
      rw [Machine.pageAt_unmap hunmap]
      exact if_pos ((pageIn_page ha).2 hn)
  · rename_i hn
    exact pageAt_lift_of_ne hn

/-- A lift is one call of unmapping. -/
theorem faults_lift (m : Machine) (address : Nat) :
    (lift m address).faults .unmap = (m.faults .unmap).tail := by
  have hcall := Machine.faults_perform_self m .unmap
    (fun s => s.unmap address pageSize) (.unmap address pageSize)
  unfold lift
  split <;> rename_i hunmap <;> rw [← hcall] <;> exact (congrArg (fun c => c.2.faults .unmap) hunmap).symm

/-- And of nothing else. -/
theorem faults_lift_of_ne (m : Machine) (address : Nat) {p : Primitive} (hp : p ≠ .unmap) :
    (lift m address).faults p = m.faults p := by
  have hcall := Machine.faults_perform m (fun s => s.unmap address pageSize)
    (.unmap address pageSize) hp
  unfold lift
  split <;> rename_i hunmap <;> rw [← hcall] <;> exact (congrArg (fun c => c.2.faults p) hunmap).symm

/-- Removing both guards of a record is lifting them, below first. -/
theorem removeAll_snd (m : Machine) (r : Record) : (removeAll m r).2 = r.guards.foldl lift m := by
  obtain ⟨base, length, granted, current, below, above, executeOnly⟩ := r
  cases below <;> cases above <;> rfl

/-- **Guards that can be lifted are gone**, and nothing else is. -/
theorem pageAt_foldl_lift {guards : List Nat} (hm : m.Passes .unmap guards.length) (n : Nat) :
    (guards.foldl lift m).pageAt n = if n * pageSize ∈ guards then none else m.pageAt n := by
  induction guards generalizing m with
  | nil => rfl
  | cons g rest ih =>
    have hrest := Machine.Passes.tail hm (faults_lift m g)
    have hfirst := hm.mono (Nat.succ_le_of_lt (Nat.succ_pos rest.length))
    rw [List.foldl_cons, ih hrest, pageAt_lift hfirst]
    by_cases hn : n * pageSize = g <;> by_cases hrest : n * pageSize ∈ rest <;> simp [hn, hrest]

/-- Lifting uses up schedules of unmapping alone. -/
theorem faults_foldl_lift (guards : List Nat) (m : Machine) {p : Primitive} (hp : p ≠ .unmap) :
    (guards.foldl lift m).faults p = m.faults p := by
  induction guards generalizing m with
  | nil => rfl
  | cons g rest ih => rw [List.foldl_cons, ih, faults_lift_of_ne m g hp]

/-- **The guard below that can be removed is gone**, and nothing else is. -/
theorem pageAt_removeBelow {r : Record} (hm : m.Passes .unmap 1) (n : Nat) :
    (removeBelow m r).2.pageAt n =
      if r.guardBelow = some (n * pageSize) then none else m.pageAt n := by
  unfold removeBelow
  split
  · rename_i g hguard
    show (lift m g).pageAt n = _
    rw [pageAt_lift hm, hguard]
    exact if_congr (by rw [Option.some.injEq, eq_comm]) rfl rfl
  · rename_i hnone
    rw [hnone]
    rfl

/-- **So is the guard above.** -/
theorem pageAt_removeAbove {r : Record} (hm : m.Passes .unmap 1) (n : Nat) :
    (removeAbove m r).2.pageAt n =
      if r.guardAbove = some (n * pageSize) then none else m.pageAt n := by
  unfold removeAbove
  split
  · rename_i g hguard
    show (lift m g).pageAt n = _
    rw [pageAt_lift hm, hguard]
    exact if_congr (by rw [Option.some.injEq, eq_comm]) rfl rfl
  · rename_i hnone
    rw [hnone]
    rfl

/-! ## Placing -/

/-- A guard has no file behind it. -/
theorem isAnonymous_request (address : Nat) : (request address).isAnonymous = true := by
  show MapFlags.guardPage.anonymous = true
  decide

/-- Its address is binding where the system knows the flag. -/
theorem noReplace_request (hknown : m.platform.honoursNoReplace = true) (address : Nat) :
    (m.seenFlags (request address).flags).noReplace = true := by
  unfold Machine.seenFlags
  rw [if_pos hknown]
  show MapFlags.guardPage.noReplace = true
  decide

/-- A free page is chosen for the guard that is asked for there. Where the
system takes the address for a hint, it must not be zero. -/
theorem choosePage_of_free (hknown : m.platform.honoursNoReplace = true ∨ address ≠ 0)
    (ha : Aligned address) (hfree : m.pageAt (pageOf address) = none) :
    m.space.choosePage address (pagesFor pageSize) (m.seenFlags (request address).flags) =
      .ok (pageOf address) := by
  have hroom : m.space.table.isFree (pageOf address) (pagesFor pageSize) = true := by
    rw [PageTable.isFree_iff]
    intro k hk
    have hkey : k = pageOf address := by
      simp only [PageTable.InRange, pagesFor, pageSize] at hk
      omega
    rw [hkey]
    exact hfree
  unfold Space.choosePage
  by_cases hbound : m.platform.honoursNoReplace = true
  · rw [if_pos (noReplace_request hbound address), if_neg (not_not_intro ha), if_pos hroom]
  · have hseen : m.seenFlags (request address).flags = MapFlags.guardPage.withoutNoReplace :=
      if_neg hbound
    have hhint : MapFlags.guardPage.withoutNoReplace.noReplace = false ∧
        MapFlags.guardPage.withoutNoReplace.fixed = false := by decide
    rw [hseen, hhint.1, hhint.2, if_neg Bool.false_ne_true, if_neg Bool.false_ne_true,
      if_pos ⟨hknown.resolve_left hbound, ha, hroom⟩]

/-- **A guard is placed exactly if its page is chosen** for it, where the
call passes. -/
theorem place_eq_some_iff_chosen (hm : m.Passes .map 1) (ha : Aligned address) :
    (place m address).1 = some address ↔
      m.space.choosePage address (pagesFor pageSize) (m.seenFlags (request address).flags) =
        .ok (pageOf address) := by
  have hfile : m.fileError (request address) = none := by
    unfold Machine.fileError
    split
    · rfl
    · rw [if_pos (isAnonymous_request address)]
  have hmap : (m.map (request address)).1 =
      (m.space.map address pageSize .noAccess (m.seenFlags (request address).flags)).1 := by
    rw [Machine.map, (Machine.perform_of_passes hm _ _).1, hfile]
    rfl
  rw [Space.map, if_neg (Nat.ne_of_gt pageSize_pos)] at hmap
  unfold place
  generalize m.map (request address) = mapped at hmap ⊢
  generalize m.space.choosePage address (pagesFor pageSize)
    (m.seenFlags (request address).flags) = chosen at hmap ⊢
  rcases mapped with ⟨errno | got, m'⟩ <;> rcases chosen with e | first <;> cases hmap
  · constructor <;> intro hplaced <;> cases hplaced
  · -- the page starts at the address exactly if it is the page of the address
    have hstart : first * pageSize = address ↔ first = pageOf address := by
      rw [mul_pageSize_eq_iff ha]
    rw [Except.ok.injEq, ← hstart]
    simp only
    split
    · rename_i hgot
      exact ⟨fun _ => hgot, fun _ => congrArg some hgot⟩
    · rename_i hgot
      exact iff_of_false (Option.some_ne_none address).symm hgot

/-- **A guard that is placed takes its page**, and no other. -/
theorem pageAt_place_of_placed (h : (place m address).1 = some address) (n : Nat) :
    (place m address).2.pageAt n =
      if n * pageSize = address then some (.fresh .noAccess) else m.pageAt n := by
  obtain ⟨ha, hfree, hrights⟩ := place_eq_some h
  have hn := hrights n
  rcases pageAt_place m address n with hsame | ⟨hold, hfresh⟩
  · split
    · rename_i heq
      rw [if_pos heq, Machine.rightsAt_congr hsame, (mul_pageSize_eq_iff ha).1 heq, hfree] at hn
      cases hn
    · exact hsame
  · split
    · exact hfresh
    · rename_i hne
      rw [if_neg hne, Machine.rightsAt_eq, Machine.rightsAt_eq, hold, hfresh] at hn
      cases hn

/-- To place a guard is one call of mapping. -/
theorem faults_place (m : Machine) (address : Nat) :
    (place m address).2.faults .map = (m.faults .map).tail := by
  have hcall : (m.map (request address)).2.faults .map = (m.faults .map).tail :=
    Machine.faults_perform_self m .map _ _
  unfold place
  generalize m.map (request address) = mapped at hcall ⊢
  rcases mapped with ⟨errno | got, m'⟩
  · exact hcall
  · simp only
    split
    · exact hcall
    · have hother : Primitive.map ≠ Primitive.unmap := by decide
      have hunmap := Machine.faults_perform m' (fun s => s.unmap got pageSize)
        (.unmap got pageSize) hother
      exact hunmap.trans hcall

/-- **A guard that is asked for on a free page is placed**, by one call of
mapping. -/
theorem place_of_free (hknown : m.platform.honoursNoReplace = true) (hm : m.Passes .map 1)
    (ha : Aligned address) (hfree : m.pageAt (pageOf address) = none) :
    (place m address).1 = some address ∧
      (∀ n, (place m address).2.pageAt n =
        if n * pageSize = address then some (.fresh .noAccess) else m.pageAt n) ∧
      (place m address).2.faults .map = (m.faults .map).tail := by
  have hplaced := (place_eq_some_iff_chosen hm ha).2 (choosePage_of_free (Or.inl hknown) ha hfree)
  exact ⟨hplaced, pageAt_place_of_placed hplaced, faults_place m address⟩

/-- **A guard that is asked for leaves every other page as it was**, where no
unmapping is scheduled to fail: one that the system puts elsewhere goes
again. -/
theorem pageAt_place_of_ne (hm : m.faults .unmap = [])
    (h : (place m address).1 ≠ some (n * pageSize)) :
    (place m address).2.pageAt n = m.pageAt n := by
  rcases pageAt_place m address n with hsame | ⟨hfree, hfresh⟩
  · exact hsame
  · -- a page that is mapped now and was not is the guard
    have hmapped : ((place m address).2.rightsAt n).isSome := by
      rw [Machine.rightsAt_eq, hfresh]
      rfl
    rcases isSome_of_place hm hmapped with hguard | hold
    · exact absurd hguard h
    · rw [Machine.rightsAt_eq, hfree] at hold
      cases hold

/-! ## Guarding a record -/

variable {r : Record}

/-- Guarding the page below a record leaves every other page as it was. -/
theorem pageAt_placeBelow (hm : m.faults .unmap = [])
    (h : (placeBelow m r).1.guardBelow ≠ some (n * pageSize)) :
    (placeBelow m r).2.pageAt n = m.pageAt n := by
  unfold placeBelow at h ⊢
  split
  · rfl
  · rename_i hopen
    rw [if_neg hopen] at h
    exact pageAt_place_of_ne hm h

/-- So does guarding the page above. -/
theorem pageAt_placeAbove (hm : m.faults .unmap = [])
    (h : (placeAbove m r).1.guardAbove ≠ some (n * pageSize)) :
    (placeAbove m r).2.pageAt n = m.pageAt n := by
  unfold placeAbove at h ⊢
  split
  · rfl
  · rename_i hopen
    rw [if_neg hopen] at h
    exact pageAt_place_of_ne hm h

/-- What guarding an unguarded record below comes to. -/
theorem placeBelow_eq (hbase : Aligned r.base) (hnone : r.guardBelow = none) {g : Nat}
    (hg : g + pageSize = r.base) :
    placeBelow m r = ({ r with guardBelow := (place m g).1 }, (place m g).2) := by
  have hroom : ¬ (r.guardBelow.isSome || decide (r.base < pageSize)) = true := by
    rw [hnone, Bool.or_eq_true, decide_eq_true_eq, not_or]
    exact ⟨Bool.false_ne_true, by omega⟩
  have hfloor : pageFloor (r.base - 1) pageSize = g := by
    simp only [pageFloor, Aligned, pageSize] at *
    omega
  unfold placeBelow
  rw [if_neg hroom, hfloor]

/-- What guarding an unguarded record above comes to. -/
theorem placeAbove_eq (hnone : r.guardAbove = none) :
    placeAbove m r =
      ({ r with guardAbove := (place m (r.stop pageSize)).1 }, (place m (r.stop pageSize)).2) := by
  unfold placeAbove
  rw [hnone]
  rfl

end Guard

end PageWarden
