import PageWarden.Proofs.ExecuteOnly
/-!
# Bookkeeping — what every operation keeps

The configuration never changes (`config_perform`), memory changes by
calls alone (`calls_perform`) of which all but the request itself are
upkeep, without the mapping cache no record is ever
made (`get?_perform_of_not_cache`), and every record starts on a page and
is not empty (`shaped_perform`). Lifting and putting back guards shows in
the guard fields only.
-/

namespace PageWarden

/-- The end of a range of whole pages is aligned. -/
theorem Aligned.add_roundUp {address : Nat} (h : Aligned address) (length : Nat) :
    Aligned (address + roundUp length pageSize) := by
  simp only [Aligned, roundUp, pageSize] at *
  omega

namespace Warden

variable {w : Warden} {h : Handle} {r : Record}

/-! ## Guards around a move -/

/-- Lifting guards, as a change of the store and of the machine. -/
theorem liftGuards_of_get? (hr : w.store.get? h = some r) :
    (w.liftGuards h).store.get? = Function.update w.store.get? h (some r.bare) ∧
      (w.liftGuards h).machine = (Guard.removeAll w.machine r).2 := by
  unfold liftGuards
  rw [hr]
  simp only [Guard.removeAll_fst, and_true]
  exact Store.get?_modify_eq_update hr _

@[simp] theorem config_liftGuards (w : Warden) (h : Handle) :
    (w.liftGuards h).config = w.config := by
  unfold liftGuards
  split <;> rfl

@[simp] theorem config_lifted (w : Warden) (address : Nat) :
    (w.lifted address).config = w.config := by
  unfold lifted
  split
  · rfl
  · exact config_liftGuards _ _

/-- Before a move the record it is about loses its guards. -/
theorem lifted_of_find? {address : Nat} (hfind : w.store.find? address = some h)
    (hr : w.store.get? h = some r) :
    (w.lifted address).store.get? = Function.update w.store.get? h (some r.bare) ∧
      (w.lifted address).machine = (Guard.removeAll w.machine r).2 := by
  unfold lifted
  rw [hfind]
  exact liftGuards_of_get? hr

/-- Where no record is found, no guard is lifted. -/
theorem lifted_of_not_find? {address : Nat} (hfind : w.store.find? address = none) :
    w.lifted address = w := by
  unfold lifted
  rw [hfind]

/-- The record that a move is about is still there. -/
theorem live_lifted (w : Warden) (address : Nat) :
    (w.lifted address).Live (w.store.find? address) := by
  intro k hk
  obtain ⟨r, hr, -⟩ := Store.get?_of_find? hk.symm
  rw [(lifted_of_find? hk.symm hr).1, Function.update_self]
  rfl

/-- Lifting guards does not show, guards aside. -/
theorem bare?_lifted (w : Warden) (address : Nat) :
    (w.lifted address).store.bare? = w.store.bare? := by
  unfold lifted
  split
  · rfl
  · unfold liftGuards
    split
    · rfl
    · rename_i r hr
      refine Store.bare?_modify_of_bare hr ?_
      rw [Guard.removeAll_fst, Record.bare_bare]

/-- Nor does putting them back. -/
theorem bare?_restore (w : Warden) (handle : Option Handle) (below above : Bool) :
    (w.restore handle below above).store.bare? = w.store.bare? := by
  unfold restore
  split
  · rfl
  · unfold restoreGuards
    split
    · rfl
    · rename_i r hr
      refine Store.bare?_modify_of_bare hr ?_
      cases below <;> cases above <;> simp

@[simp] theorem config_restore (w : Warden) (handle : Option Handle) (below above : Bool) :
    (w.restore handle below above).config = w.config := by
  unfold restore
  split
  · rfl
  · unfold restoreGuards
    split <;> rfl

/-- A record that follows its mapping, as a change of the store and of the
machine. -/
theorem follow_of_get? (hr : w.store.get? h = some r) (q : MoveRequest) (moved : Nat) :
    ∃ m, m.rightsAt = w.machine.rightsAt ∧
      (w.follow h q moved).store.get? = Function.update w.store.get? h
        (some (Guard.rehome m r moved q.newLength w.config.guardPagesActive).1) ∧
      (w.follow h q moved).machine.rightsAt =
        (Guard.rehome m r moved q.newLength w.config.guardPagesActive).2.rightsAt := by
  unfold follow
  simp only [hr]
  split
  · exact ⟨w.machine, rfl, Store.get?_modify_eq_update hr _, rfl⟩
  · exact ⟨w.machine.tell _, rfl, Store.get?_modify_eq_update hr _, rfl⟩

/-- A record that follows its mapping, guards aside. -/
theorem bare?_follow (hr : w.store.get? h = some r) (q : MoveRequest) (moved : Nat) :
    (w.follow h q moved).store.bare? =
      Function.update w.store.bare? h
        (some { r.bare with base := moved, length := q.newLength }) := by
  obtain ⟨m, -, hview, -⟩ := follow_of_get? hr q moved
  have hhome : (Guard.rehome m r moved q.newLength w.config.guardPagesActive).1.bare =
      { r.bare with base := moved, length := q.newLength } := by
    unfold Guard.rehome
    simp only
    split
    · rw [Guard.bare_placeAll, Guard.removeAll_fst]
      rfl
    · rw [Guard.removeAll_fst]
      rfl
  funext k
  rw [Store.bare?, hview, Function.update_apply, Function.update_apply]
  split
  · exact congrArg some hhome
  · rfl

@[simp] theorem config_follow (w : Warden) (h : Handle) (q : MoveRequest) (moved : Nat) :
    (w.follow h q moved).config = w.config := by
  unfold follow
  split
  · rfl
  · simp only [config_tell]
    split <;> rfl

/-! ## The configuration -/

@[simp] theorem config_settle (w : Warden) (q : MapRequest) (address : Nat) :
    (w.settle q address).config = w.config := by
  unfold settle
  split
  · split
    · exact config_track _ _ _ _
    · exact config_carve _ _ _ _
  · rfl

@[simp] theorem config_vacate (w : Warden) (address length : Nat) :
    (w.vacate address length).config = w.config := by
  unfold vacate
  simp only
  split
  · exact config_carve _ _ _ _
  · rw [config_cut, config_carve]

@[simp] theorem config_note (w : Warden) (address length : Nat) (rights : Rights) :
    (w.note address length rights).config = w.config := by
  unfold note
  split
  · rfl
  · unfold noteProtection
    split
    · rfl
    · simp only [config_tell]
      split <;> rfl

@[simp] theorem config_resettle (w : Warden) (handle : Option Handle) (q : MoveRequest)
    (moved : Nat) : (w.resettle handle q moved).config = w.config := by
  unfold resettle
  split
  · exact config_carve _ _ _ _
  · rw [config_follow, config_carve]

/-- **No operation changes the configuration.** -/
theorem config_perform (w : Warden) (op : Operation) : (w.perform op).2.config = w.config := by
  cases op with
  | create q =>
    show (w.create q).2.config = w.config
    rcases w.create_cases q with ⟨-, h⟩ | ⟨a, m, -, -, h⟩
    · exact h.config
    · rw [h.config, config_settle]
  | remove a l =>
    show (w.remove a l).2.config = w.config
    rcases w.remove_cases a l with ⟨-, h⟩ | ⟨m, -, -, h⟩
    · exact h.config
    · rw [h]
      split
      · exact config_vacate _ _ _
      · rfl
  | reprotect a l ρ =>
    show (w.reprotect a l ρ).2.config = w.config
    rcases w.reprotect_cases a l ρ with ⟨-, h⟩ | ⟨m, -, -, h⟩
    · exact h.config
    · rw [h, config_note]
  | relocate q =>
    show (w.relocate q).2.config = w.config
    cases hcache : w.config.useMappingCache with
    | false => exact (w.store_relocate_of_not_cache q hcache).2
    | true =>
      rcases w.relocate_cases q hcache with ⟨e, m, -, -, h⟩ | ⟨moved, m, -, -, h⟩
      · rw [h, config_restore]
        exact config_lifted w q.address
      · rw [h, config_resettle]
        exact config_lifted w q.address
  | makeExecuteOnly s c =>
    show (w.makeExecuteOnly s c).2.config = w.config
    rcases w.makeExecuteOnly_cases s c with ⟨-, -, h, -⟩ | ⟨_, _, _, -, -, -, -, -, -, -, h⟩
    · exact h
    · exact h.config
  | releaseExecuteOnly a l =>
    show (w.releaseExecuteOnly a l).2.config = w.config
    rcases w.releaseExecuteOnly_cases a l with
      ⟨-, h⟩ | ⟨_, _, _, _, _, _, -, -, -, -, -, -, -, -, h, -, -⟩
    · exact h.config
    · exact h
  | teardown => rfl

/-! ## Upkeep and calls -/

theorem upkeep_liftGuards (w : Warden) (h : Handle) :
    w.machine.Upkeep (w.liftGuards h).machine := by
  unfold liftGuards
  split
  · exact .refl
  · exact Guard.upkeep_removeAll _ _

theorem upkeep_lifted (w : Warden) (address : Nat) :
    w.machine.Upkeep (w.lifted address).machine := by
  unfold lifted
  split
  · exact .refl
  · exact upkeep_liftGuards _ _

theorem upkeep_restoreGuards (w : Warden) (h : Handle) (below above : Bool) :
    w.machine.Upkeep (w.restoreGuards h below above).machine := by
  unfold restoreGuards
  split
  · exact .refl
  · rename_i r _
    have hbelow : w.machine.Upkeep
        (if below then Guard.placeBelow w.machine r else (r, w.machine)).2 := by
      split
      · exact Guard.upkeep_placeBelow _ _
      · exact .refl
    simp only
    split
    · exact hbelow.trans (Guard.upkeep_placeAbove _ _)
    · exact hbelow

theorem upkeep_follow (w : Warden) (h : Handle) (q : MoveRequest) (moved : Nat) :
    w.machine.Upkeep (w.follow h q moved).machine := by
  unfold follow
  split
  · exact .refl
  · refine Machine.Upkeep.tell ?_ _
    simp only
    split
    · exact Guard.upkeep_rehome _ _ _ _ _
    · exact (Machine.Upkeep.refl.tell _).trans (Guard.upkeep_rehome _ _ _ _ _)

theorem upkeep_noteProtection (w : Warden) (h : Handle) (address length : Nat) (rights : Rights) :
    w.machine.Upkeep (w.noteProtection h address length rights).machine := by
  unfold noteProtection
  split
  · exact .refl
  · refine Machine.Upkeep.tell ?_ _
    simp only
    split
    · exact .refl
    · exact Machine.Upkeep.refl.tell _

theorem upkeep_settle (w : Warden) (q : MapRequest) (address : Nat) :
    w.machine.Upkeep (w.settle q address).machine := by
  have hcarve := upkeep_carve w address (address + roundUp q.length pageSize) none
  unfold settle
  split
  · split
    · exact (hcarve.trans (upkeep_enroll _ _)).tell _
    · exact hcarve
  · exact .refl

theorem upkeep_vacate (w : Warden) (address length : Nat) :
    w.machine.Upkeep (w.vacate address length).machine := by
  unfold vacate
  simp only
  split
  · exact upkeep_carve _ _ _ _
  · exact (upkeep_carve _ _ _ _).trans (upkeep_cut _ _ _ _ _)

theorem upkeep_note (w : Warden) (address length : Nat) (rights : Rights) :
    w.machine.Upkeep (w.note address length rights).machine := by
  unfold note
  split
  · exact .refl
  · exact upkeep_noteProtection _ _ _ _ _

theorem upkeep_restore (w : Warden) (handle : Option Handle) (below above : Bool) :
    w.machine.Upkeep (w.restore handle below above).machine := by
  unfold restore
  split
  · exact .refl
  · exact upkeep_restoreGuards _ _ _ _

theorem upkeep_resettle (w : Warden) (handle : Option Handle) (q : MoveRequest) (moved : Nat) :
    w.machine.Upkeep (w.resettle handle q moved).machine := by
  have hcarve := upkeep_carve w moved (moved + roundUp q.newLength pageSize) handle
  unfold resettle
  cases handle with
  | none => exact hcarve
  | some h => exact hcarve.trans (upkeep_follow _ _ _ _)

/-- Giving everything up is upkeep. -/
theorem upkeep_teardown (w : Warden) : w.machine.Upkeep w.teardown.machine := by
  have hkeys : ∀ (keys : List Nat) (m : Machine), m.Upkeep (keys.foldl Machine.keyFree m) := by
    intro keys
    induction keys with
    | nil => exact fun m => .refl
    | cons key keys ih => exact fun m => (Machine.Upkeep.refl.keyFree key).trans (ih _)
  exact (hkeys _ _).tell _

/-- **Every operation changes memory by calls alone.** -/
theorem calls_perform (w : Warden) (op : Operation) :
    w.machine.Calls (w.perform op).2.machine := by
  cases op with
  | create q =>
    show w.machine.Calls (w.create q).2.machine
    rcases w.create_cases q with ⟨-, h⟩ | ⟨a, m, hmap, -, h⟩
    · exact h.calls
    · have hmapped := Machine.calls_of_map hmap
      exact (hmapped.trans (upkeep_settle { w with machine := m } q a).calls).trans h.calls
  | remove a l =>
    show w.machine.Calls (w.remove a l).2.machine
    rcases w.remove_cases a l with ⟨-, h⟩ | ⟨m, hunmap, -, h⟩
    · exact h.calls
    · have hunmapped := Machine.calls_of_unmap hunmap
      rw [h]
      split
      · exact hunmapped.trans (upkeep_vacate { w with machine := m } a l).calls
      · exact hunmapped
  | reprotect a l ρ =>
    show w.machine.Calls (w.reprotect a l ρ).2.machine
    have hprotect := Machine.Calls.refl.protect (m := w.machine) a l ρ
    rcases w.reprotect_cases a l ρ with ⟨-, h⟩ | ⟨m, hm, -, h⟩
    · exact h.calls
    · rw [hm] at hprotect
      rw [h]
      exact hprotect.trans (upkeep_note { w with machine := m } a l ρ).calls
  | relocate q =>
    show w.machine.Calls (w.relocate q).2.machine
    cases hcache : w.config.useMappingCache with
    | false =>
      unfold relocate
      rw [hcache]
      simp only [Bool.false_eq_true, if_false]
      split <;> rename_i hmove <;> exact Machine.calls_of_move hmove
    | true =>
      have hlifted := (upkeep_lifted w q.address).calls
      rcases w.relocate_cases q hcache with ⟨e, m, hmove, -, h⟩ | ⟨moved, m, hmove, -, h⟩ <;>
        rw [h]
      · exact (hlifted.trans (Machine.calls_of_move hmove)).trans
          (upkeep_restore { w.lifted q.address with machine := m } _ _ _).calls
      · exact (hlifted.trans (Machine.calls_of_move hmove)).trans
          (upkeep_resettle { w.lifted q.address with machine := m } _ _ _).calls
  | makeExecuteOnly s c =>
    show w.machine.Calls (w.makeExecuteOnly s c).2.machine
    rcases w.makeExecuteOnly_cases s c with ⟨-, -, -, h, -⟩ | ⟨a, x, m, -, -, -, hm, -, -, -, h⟩
    · exact h
    · exact (hm.trans (upkeep_enroll { w with machine := m } _).calls).trans h.calls
  | releaseExecuteOnly a l =>
    show w.machine.Calls (w.releaseExecuteOnly a l).2.machine
    rcases w.releaseExecuteOnly_cases a l with
      ⟨-, h⟩ | ⟨_, r, _, m, o, m', -, -, -, -, hm, hunmap, -, -, -, h, -⟩
    · exact h.calls
    · have hguards : w.machine.Calls m := by
        rcases hm with rfl | ⟨e, rfl⟩
        · exact (Guard.upkeep_removeAll _ r).calls
        · exact ((Guard.upkeep_removeAll _ r).tell e).calls
      have hcalls := hguards.unmap r.base r.length
      rw [hunmap] at hcalls
      exact hcalls.trans h
  | teardown => exact (upkeep_teardown w).calls

/-- So does a run. -/
theorem calls_run (w : Warden) (ops : List Operation) :
    w.machine.Calls (w.run ops).machine := by
  induction ops generalizing w with
  | nil => exact .refl
  | cons op ops ih => exact (calls_perform w op).trans (ih (w.perform op).2)

/-- On a machine where nothing is scheduled to fail, nothing ever is. -/
theorem faults_run {w : Warden} (hw : w.machine.faults = .never) (ops : List Operation) :
    (w.run ops).machine.faults = .never :=
  (calls_run w ops).faults hw

/-! ## The shape of the records -/

/-- Changing one record to one that is well formed keeps all of them so. -/
theorem shaped_of_update {s t : Store} {q : Record} (hs : s.Shaped) (hq : q.Shaped)
    (ht : t.bare? = Function.update s.bare? h (some q)) : t.Shaped := by
  rw [Store.shaped_iff] at hs ⊢
  intro k o ho
  rw [ht, Function.update_apply] at ho
  split at ho
  · cases ho
    exact hq
  · exact hs k o ho

/-- Stores that are the same but for guards have the same shape. -/
theorem shaped_congr {s t : Store} (hs : s.Shaped) (ht : t.bare? = s.bare?) : t.Shaped := by
  rw [Store.shaped_iff] at hs ⊢
  rw [ht]
  exact hs

/-- Following up a mapping keeps records well formed. -/
theorem shaped_settle {q : MapRequest} {a : Nat} (hs : w.store.Shaped) (ha : Aligned a)
    (hlen : 0 < q.length) : (w.settle q a).store.Shaped := by
  unfold settle
  split
  · split
    · rw [(alike_track _ _ _ _).store]
      refine shaped_of_update (shaped_carve hs (ha.add_roundUp _) none) ?_ (bare?_enroll _ _)
      exact ⟨ha, hlen⟩
    · exact shaped_carve hs (ha.add_roundUp _) none
  · exact hs

/-- **A release that is followed up carves its range**, and cuts the record
it was found to be about, which is found as before and meets the range. -/
theorem vacate_cases {a l : Nat} (hs : w.store.Shaped) (ha : Aligned a) (hlen : 0 < l) :
    (w.store.find? a = none ∧ w.vacate a l = w.carve a (a + roundUp l pageSize) none) ∨
      ∃ h f, w.store.find? a = some h ∧ w.store.get? h = some f ∧
        (w.carve a (a + roundUp l pageSize) (some h)).store.get? h =
          some (f.forgetWithin a (a + roundUp l pageSize)) ∧
        (f.forgetWithin a (a + roundUp l pageSize)).Meets a (a + roundUp l pageSize) ∧
        w.vacate a l = (w.carve a (a + roundUp l pageSize) (some h)).cut h a
          (a + roundUp l pageSize) w.config.guardPagesActive := by
  unfold vacate
  cases hfind : w.store.find? a with
  | none => exact Or.inl ⟨rfl, rfl⟩
  | some h =>
    obtain ⟨f, hf, hcontains⟩ := Store.get?_of_find? hfind
    -- the first page of the range is one of the record's, so the record meets the range
    have hfirst := pageIn_first ha hlen
    have hcovers : f.Covers (pageOf a) := Record.covers_of_contains (hs h f hf) ha hcontains
    exact Or.inr ⟨h, f, rfl, hf, get?_carve_keep hf _ _, Record.meets_of_covers hcovers hfirst, rfl⟩

/-- Following up a release keeps records well formed. -/
theorem shaped_vacate {a l : Nat} (hs : w.store.Shaped) (ha : Aligned a) :
    (w.vacate a l).store.Shaped := by
  unfold vacate
  simp only
  split
  · exact shaped_carve hs (ha.add_roundUp _) none
  · exact shaped_cut (shaped_carve hs (ha.add_roundUp _) _) (ha.add_roundUp _) _ _

/-- Noting a protection keeps records well formed. -/
theorem shaped_note (hs : w.store.Shaped) (a l : Nat) (ρ : Rights) :
    (w.note a l ρ).store.Shaped := by
  unfold note
  split
  · exact hs
  · rename_i h _
    cases hr : w.store.get? h with
    | none =>
      unfold noteProtection
      rw [hr]
      exact hs
    | some r =>
      intro k q hq
      rw [(w.noteProtection_of_get? hr a l ρ).1, Function.update_apply] at hq
      split at hq
      · cases hq
        exact hs h r hr
      · exact hs k q hq

/-- Following up a move keeps records well formed. -/
theorem shaped_resettle {q : MoveRequest} {moved : Nat} {handle : Option Handle}
    (hs : w.store.Shaped) (ha : Aligned moved) (hlen : 0 < q.newLength) :
    (w.resettle handle q moved).store.Shaped := by
  have hcarved : (w.carve moved (moved + roundUp q.newLength pageSize) handle).store.Shaped :=
    shaped_carve hs (ha.add_roundUp q.newLength) handle
  unfold resettle
  split
  · exact hcarved
  · rename_i h
    cases hr : (w.carve moved (moved + roundUp q.newLength pageSize) (some h)).store.get? h with
    | none =>
      unfold follow
      simp only [hr]
      exact hcarved
    | some r =>
      refine shaped_of_update hcarved ?_ (bare?_follow hr q moved)
      exact ⟨ha, hlen⟩

/-- **Every operation keeps records well formed**, in every configuration
and under every fault. -/
theorem shaped_perform (hs : w.store.Shaped) (op : Operation) :
    (w.perform op).2.store.Shaped := by
  cases op with
  | create q =>
    show (w.create q).2.store.Shaped
    rcases w.create_cases q with ⟨-, h⟩ | ⟨a, m, hmap, -, h⟩
    · rw [h.store]
      exact hs
    · obtain ⟨ha, hlen⟩ := Machine.aligned_of_map hmap
      rw [h.store]
      exact shaped_settle hs ha hlen
  | remove a l =>
    show (w.remove a l).2.store.Shaped
    rcases w.remove_cases a l with ⟨-, h⟩ | ⟨m, hunmap, -, h⟩
    · rw [h.store]
      exact hs
    · rw [h]
      split
      · exact shaped_vacate hs (Machine.aligned_of_unmap hunmap).1
      · exact hs
  | reprotect a l ρ =>
    show (w.reprotect a l ρ).2.store.Shaped
    rcases w.reprotect_cases a l ρ with ⟨-, h⟩ | ⟨m, -, -, h⟩
    · rw [h.store]
      exact hs
    · rw [h]
      exact shaped_note (w := { w with machine := m }) hs a l ρ
  | relocate q =>
    show (w.relocate q).2.store.Shaped
    cases hcache : w.config.useMappingCache with
    | false =>
      rw [(w.store_relocate_of_not_cache q hcache).1]
      exact hs
    | true =>
      have hlifted := shaped_congr hs (bare?_lifted w q.address)
      rcases w.relocate_cases q hcache with ⟨e, m, -, -, h⟩ | ⟨moved, m, hmove, -, h⟩
      · rw [h]
        exact shaped_congr hlifted (bare?_restore _ _ _ _)
      · obtain ⟨-, ha, hlen⟩ := Machine.aligned_of_move hmove
        rw [h]
        exact shaped_resettle hlifted ha hlen
  | makeExecuteOnly s c =>
    show (w.makeExecuteOnly s c).2.store.Shaped
    rcases w.makeExecuteOnly_cases s c with ⟨-, h, -⟩ | ⟨a, x, m, -, ha, hlen, -, -, -, -, h⟩
    · rw [h]
      exact hs
    · rw [h.store]
      exact shaped_of_update hs ⟨ha, hlen⟩ (bare?_enroll _ _)
  | releaseExecuteOnly a l =>
    show (w.releaseExecuteOnly a l).2.store.Shaped
    rcases w.releaseExecuteOnly_cases a l with
      ⟨-, h⟩ | ⟨k, r, t, _, _, _, -, -, hremove, -, -, -, -, h, -⟩
    · rw [h.store]
      exact hs
    · rw [h]
      intro k' q hq
      rw [Store.get?_of_remove hremove] at hq
      split at hq
      · cases hq
      · exact hs k' q hq
  | teardown => exact fun k q hq => nomatch hq

/-- Well-formed records stay so over a run. -/
theorem shaped_run (hs : w.store.Shaped) (ops : List Operation) : (w.run ops).store.Shaped := by
  induction ops generalizing w with
  | nil => exact hs
  | cons op ops ih => exact ih (shaped_perform hs op)

/-- The configuration stays over a run. -/
theorem config_run (w : Warden) (ops : List Operation) : (w.run ops).config = w.config := by
  induction ops generalizing w with
  | nil => rfl
  | cons op ops ih => rw [run_cons, ih, config_perform]

/-! ## Without tracking -/

/-- Without the mapping cache an empty store stays empty. -/
theorem get?_perform_of_not_cache (hcache : w.config.useMappingCache = false)
    (hs : ∀ k, w.store.get? k = none) (op : Operation) (k : Handle) :
    (w.perform op).2.store.get? k = none := by
  cases op with
  | create q =>
    show (w.create q).2.store.get? k = none
    rcases w.create_cases q with ⟨-, h⟩ | ⟨a, m, -, -, h⟩
    · rw [h.store, hs]
    · rw [h.store]
      unfold settle
      simp only [hcache, Bool.false_eq_true, if_false]
      exact hs k
  | remove a l =>
    show (w.remove a l).2.store.get? k = none
    rcases w.remove_cases a l with ⟨-, h⟩ | ⟨m, -, -, h⟩
    · rw [h.store, hs]
    · rw [h, hcache]
      exact hs k
  | reprotect a l ρ =>
    show (w.reprotect a l ρ).2.store.get? k = none
    rcases w.reprotect_cases a l ρ with ⟨-, h⟩ | ⟨m, -, -, h⟩
    · rw [h.store, hs]
    · rw [h]
      unfold note found
      simp only [hcache, Bool.false_eq_true, if_false]
      exact hs k
  | relocate q =>
    show (w.relocate q).2.store.get? k = none
    rw [(w.store_relocate_of_not_cache q hcache).1, hs]
  | makeExecuteOnly s c =>
    show (w.makeExecuteOnly s c).2.store.get? k = none
    rcases w.makeExecuteOnly_cases s c with ⟨-, h, -⟩ | ⟨_, _, _, hon, -⟩
    · rw [h, hs]
    · rw [hcache] at hon
      cases hon
  | releaseExecuteOnly a l =>
    show (w.releaseExecuteOnly a l).2.store.get? k = none
    rcases w.releaseExecuteOnly_cases a l with ⟨-, h⟩ | ⟨_, _, _, _, _, _, hon, -⟩
    · rw [h.store, hs]
    · rw [hcache] at hon
      cases hon
  | teardown => rfl

/-- So it does over a run. -/
theorem get?_run_of_not_cache (hcache : w.config.useMappingCache = false)
    (hs : ∀ k, w.store.get? k = none) (ops : List Operation) (k : Handle) :
    (w.run ops).store.get? k = none := by
  induction ops generalizing w with
  | nil => exact hs k
  | cons op ops ih =>
    refine ih ?_ (get?_perform_of_not_cache hcache hs op)
    rw [config_perform]
    exact hcache

/-! ## The start of a run -/

/-- Where nothing is tracked, every record is well formed. -/
theorem shaped_of_empty (hempty : w.store = .empty) : w.store.Shaped := by
  intro k r hr
  rw [hempty] at hr
  cases hr

/-- Where nothing is tracked, no handle finds a record. -/
theorem get?_of_empty (hempty : w.store = .empty) (k : Handle) : w.store.get? k = none := by
  rw [hempty]
  rfl

/-- A warden of which nothing has been asked yet, before an empty space. -/
def start (config : Config) : Warden := { config, machine := { space := .empty } }

end Warden

end PageWarden
