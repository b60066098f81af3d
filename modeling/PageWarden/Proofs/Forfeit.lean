import PageWarden.Proofs.Account
/-!
# Forfeits — what a failed operation costs

The store is touched only after the primitive has succeeded: an operation
that fails leaves every record as it was, guards aside. There is one
exception (`Warden.Forfeits`). A release of execute-only memory takes the
record out of the store first, and if the machine then refuses to unmap
the pages, the record does not come back.

Where no unmapping is scheduled to fail nothing is forfeited
(`not_forfeits`), at any time of a run.
-/

namespace PageWarden

/-- What is told bears on no later unmapping. -/
theorem Machine.unmap_tell_fst (m : Machine) (e : Event) (address length : Nat) :
    ((m.tell e).unmap address length).1 = (m.unmap address length).1 := rfl

namespace Warden

variable {w : Warden} {op : Operation} {h : Handle} {f : Failure}

/-- The operation is a release of the execute-only memory under `h`, whose
pages the machine refuses to unmap once the guards are gone. -/
def Forfeits (w : Warden) (op : Operation) (h : Handle) : Prop :=
  ∃ address length r errno, op = .releaseExecuteOnly address length ∧
    w.config.useMappingCache = true ∧ w.store.find? address = some h ∧
    w.store.get? h = some r ∧ r.executeOnly.isSome ∧
    ((Guard.removeAll w.machine r).2.unmap r.base r.length).1 = .error errno

/-- **A forfeit costs the record**, and no other. -/
theorem perform_of_forfeits (hw : w.Forfeits op h) :
    (∃ f, (w.perform op).1 = .error f) ∧
      (w.perform op).2.store.get? = Function.update w.store.get? h none := by
  obtain ⟨address, length, r, errno, rfl, hcache, hfind, hr, hxo, hunmap⟩ := hw
  obtain ⟨t, hremove⟩ := Store.exists_remove_of_get? hr
  obtain ⟨m, hm, hstage⟩ := releaseExecuteOnly_of_found hcache hfind hremove hxo length
  have hrefused : (m.unmap r.base r.length).1 = .error errno := by
    rcases hm with rfl | ⟨e, -, rfl⟩
    · exact hunmap
    · rw [Machine.unmap_tell_fst, hunmap]
  rcases hstage with ⟨errno', m', -, ⟨f, hf⟩, hv⟩ | ⟨m', hok, -⟩
  · refine ⟨⟨f, congrArg (Except.map fun _ => none) hf⟩, ?_⟩
    show (w.releaseExecuteOnly address length).2.store.get? = _
    rw [hv]
    exact Store.get?_remove_eq_update hremove
  · rw [hok] at hrefused
    cases hrefused

/-- So the record does not stay as it was. -/
theorem bare?_ne_of_forfeits (hw : w.Forfeits op h) :
    (w.perform op).2.store.bare? ≠ w.store.bare? := by
  obtain ⟨address, length, r, errno, -, -, -, hr, -⟩ := id hw
  intro hsame
  have hgone : (w.perform op).2.store.bare? h = none := by
    rw [Store.bare?, (perform_of_forfeits hw).2, Function.update_self, Option.map_none]
  rw [hsame, Store.bare?, hr] at hgone
  cases hgone

/-- **An operation that fails keeps the records**, guards aside, or
forfeits one. -/
theorem bare?_of_failed (hf : (w.perform op).1 = .error f) :
    (w.perform op).2.store.bare? = w.store.bare? ∨ ∃ h, w.Forfeits op h := by
  cases op with
  | create q =>
    rcases w.create_cases q with ⟨-, hsame⟩ | ⟨a, m, -, hok, -⟩
    · exact Or.inl (congrArg Store.bare? hsame.store)
    · simp [perform, located, hok, Except.map] at hf
  | remove a l =>
    rcases w.remove_cases a l with ⟨-, hsame⟩ | ⟨m, -, hok, -⟩
    · exact Or.inl (congrArg Store.bare? hsame.store)
    · simp [perform, completed, hok, Except.map] at hf
  | reprotect a l ρ =>
    rcases w.reprotect_cases a l ρ with ⟨-, hsame⟩ | ⟨m, -, hok, -⟩
    · exact Or.inl (congrArg Store.bare? hsame.store)
    · simp [perform, completed, hok, Except.map] at hf
  | relocate q =>
    refine Or.inl ?_
    show (w.relocate q).2.store.bare? = _
    rcases hcache : w.config.useMappingCache with _ | _
    · rw [(w.store_relocate_of_not_cache q hcache).1]
    · rcases w.relocate_cases q hcache with ⟨e, m, -, -, hv⟩ | ⟨moved, m, -, hok, -⟩
      · rw [hv, bare?_restore]
        exact bare?_lifted w q.address
      · simp [perform, located, hok, Except.map] at hf
  | makeExecuteOnly s c =>
    rcases w.makeExecuteOnly_cases s c with ⟨-, hsame, -⟩ | ⟨a, x, m, -, -, -, -, -, -, hok, -⟩
    · exact Or.inl (congrArg Store.bare? hsame)
    · simp [perform, located, hok, Except.map] at hf
  | releaseExecuteOnly a l =>
    rcases w.releaseExecuteOnly_stages a l with
      ⟨-, hsame⟩ | ⟨h, r, t, m, hcache, hfind, hremove, hxo, hm, hstage⟩
    · exact Or.inl (congrArg Store.bare? hsame.store)
    · rcases hstage with ⟨errno, m', hunmap, -⟩ | ⟨m', -, hok, -⟩
      · refine Or.inr ⟨h, a, l, r, errno, rfl, hcache, hfind,
          (Store.remove_eq_some_iff.1 hremove).1, hxo, ?_⟩
        rcases hm with rfl | ⟨e, -, rfl⟩
        · rw [hunmap]
        · rw [← Machine.unmap_tell_fst _ e, hunmap]
      · simp [perform, completed, hok, Except.map] at hf
  | teardown => cases hf

/-- **Nothing is forfeited where no unmapping is scheduled to fail.** -/
theorem not_forfeits (hs : w.store.Shaped) (hm : w.machine.faults .unmap = []) :
    ¬ w.Forfeits op h := by
  rintro ⟨address, length, r, errno, -, -, -, hr, -, hunmap⟩
  obtain ⟨ha, hlen⟩ := hs h r hr
  have hlifted := (Guard.upkeep_removeAll w.machine r).calls.unscheduled hm
  rw [Machine.unmap_of_aligned hlifted ha hlen] at hunmap
  cases hunmap

/-- **A failed operation keeps the records unless it forfeits one.** In
every state and under every fault: what an operation leaves when it fails
is every record under its handle, guards aside, exactly when nothing is
forfeited; and what is forfeited is one record, while all others stay with
their guards. -/
theorem failed_keeps_records_iff (hf : (w.perform op).1 = .error f) :
    ((w.perform op).2.store.bare? = w.store.bare? ↔ ∀ h, ¬ w.Forfeits op h) ∧
      ∀ h, w.Forfeits op h →
        (w.perform op).2.store.get? = Function.update w.store.get? h none := by
  refine ⟨⟨fun hsame h hw => bare?_ne_of_forfeits hw hsame, fun hno => ?_⟩,
    fun h hw => (perform_of_forfeits hw).2⟩
  rcases bare?_of_failed hf with hsame | ⟨h, hw⟩
  · exact hsame
  · exact absurd hw (hno h)

/-- A machine refuses to unmap execute-only memory: the record is forfeited,
while its page stays executable and its key allocated. A release where
nothing is tracked fails as well, and costs nothing. -/
theorem record_forfeited_at_a_refused_release :
    let w : Warden := run
      { config := { useMappingCache := true },
        machine :=
          { space := .emptyWithKeys, faults := Faults.never.schedule .unmap Errno.nomem 0 1 } }
      [.makeExecuteOnly 4096 [0xc3]]
    let refused := w.perform (.releaseExecuteOnly 0x7efffffff000 4096)
    let untracked := w.perform (.releaseExecuteOnly 0x10000 4096)
    (refused.1 = .error (.callFailed "munmap" Errno.nomem) ∧
        refused.2.store.bare? ≠ w.store.bare? ∧
        refused.2.store.get? = Function.update w.store.get? ⟨0, 0⟩ none ∧
        refused.2.machine.rightsAt (pageOf 0x7efffffff000) = some .exec ∧
        refused.2.machine.space.keys = [(1, .disableAccess)]) ∧
      untracked.1 = .error (.notTracked 0x10000) ∧ untracked.2.store.bare? = w.store.bare? := by
  intro w refused untracked
  have hfailed : refused.1 = .error (.callFailed "munmap" Errno.nomem) := rfl
  have hforfeits : w.Forfeits (.releaseExecuteOnly 0x7efffffff000 4096) ⟨0, 0⟩ :=
    ⟨0x7efffffff000, 4096,
      { Record.fresh 0x7efffffff000 4096 .exec with executeOnly := some ⟨some 1, .disableAccess⟩ },
      Errno.nomem, rfl, rfl, by decide +kernel, by decide +kernel, rfl, rfl⟩
  have huntracked : untracked.1 = .error (.notTracked 0x10000) := rfl
  obtain ⟨hkept, hcost⟩ := failed_keeps_records_iff hfailed
  refine ⟨⟨hfailed, fun hsame => hkept.1 hsame _ hforfeits, hcost _ hforfeits, by decide +kernel,
    by decide +kernel⟩, huntracked, (failed_keeps_records_iff huntracked).1.2 ?_⟩
  rintro h ⟨a, l, r, errno, hop, -, hfind, -⟩
  cases hop
  have hnone : w.store.find? 0x10000 = none := by decide +kernel
  rw [hnone] at hfind
  cases hfind

/-- **So in a run where no unmapping is scheduled to fail**, whatever else
is, failed operations keep the records. -/
theorem failed_keeps_records_throughout (hs : w.store.Shaped) (hm : w.machine.faults .unmap = [])
    (ops : List Operation) (hf : ((w.run ops).perform op).1 = .error f) :
    ((w.run ops).perform op).2.store.bare? = (w.run ops).store.bare? := by
  rcases bare?_of_failed hf with hsame | ⟨h, hw⟩
  · exact hsame
  · exact absurd hw (not_forfeits (shaped_run hs ops) ((calls_run w ops).unscheduled hm))

end Warden

end PageWarden
