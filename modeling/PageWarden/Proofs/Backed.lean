import PageWarden.Proofs.InStep.Operation
import PageWarden.Proofs.Unguarded
/-!
# Backed records — when a record is a phantom

Every page that a record covers should be mapped; a record of pages that
are gone would later capture whatever is put in their place. Each request
that takes pages away takes them out of the records as well, except one:
of a move only the record found at its start is told. So no record is a
phantom in a run whose moves strand no pages, and where no guards are
placed, in no other run (`backed_throughout_iff`).
-/

namespace PageWarden

variable {V V' : View} {m m' : Machine} {start stop : Nat} {keep : Option Handle}

/-- What clearing finds unmapped it leaves unmapped. -/
theorem Clearing.rightsAt_eq_none {n : Nat} (hc : Clearing start stop keep V m V' m')
    (hn : m.rightsAt n = none) : m'.rightsAt n = none := by
  refine hc.machine (P := fun v => v.rightsAt n = none) ?_ ?_ ?_ hn
  · exact fun _ hv => hv
  · intro v κ hv
    rw [Machine.rightsAt_keyFree]
    exact hv
  · intro v g hv
    rw [Option.eq_none_iff_forall_ne_some]
    intro ρ hρ
    have hold := Guard.rightsAt_of_lift hρ
    rw [hv] at hold
    cases hold

namespace Warden

variable {w : Warden} {h : Handle} {r : Record} {n : Nat}

/-- No record is a phantom: every page that a record covers is mapped. -/
def Backed (w : Warden) : Prop :=
  ∀ k r n, w.store.get? k = some r → r.Covers n → (w.machine.rightsAt n).isSome

/-- Where records and memory are in step no record is a phantom. -/
theorem Consistent.backed (hc : w.Consistent) : w.Backed :=
  fun _ _ _ hr hn => hc.inStep.mapped (p := .body) hr hn not_false

/-! ## Without guards -/

variable {q : MoveRequest} {moved : Nat} {e : Errno} {m : Machine}

/-- What is gone after the call of a move is gone after the move. -/
theorem rightsAt_relocate_eq_none (hs : w.store.Shaped)
    (hcache : w.config.useMappingCache = true) (hoff : w.config.guardPagesActive = false)
    (hmove : (w.lifted q.address).machine.move q = (.ok moved, m)) (hgone : m.rightsAt n = none) :
    (w.relocate q).2.machine.rightsAt n = none := by
  obtain ⟨V, m', hclear, -, hstage⟩ := relocate_steps hs hcache hmove
  have hcleared := hclear.rightsAt_eq_none hgone
  rcases hstage with ⟨-, -, hm⟩ | ⟨k, f, -, -, -, hguard⟩
  · rw [hm]
    exact hcleared
  · rw [hoff] at hguard
    have hsame := hguard.of_not_asked.2.keeps (f := Machine.rightsAt) fun _ _ => rfl
    rw [hsame]
    exact hcleared

/-- **A page that a move leaves behind** is gone, but covered still. -/
theorem not_backed_of_left (hs : w.store.Shaped) (hcache : w.config.useMappingCache = true)
    (hoff : w.config.guardPagesActive = false)
    (hmove : (w.lifted q.address).machine.move q = (.ok moved, m))
    (hh : some h ≠ w.store.find? q.address) (hr : w.store.get? h = some r) (hn : r.Covers n)
    (hold : q.Old n) (hnew : ¬ q.New moved n) : ¬ (w.relocate q).2.Backed := by
  intro hbacked
  have hgone : m.rightsAt n = none := by
    rw [Machine.rightsAt_move hmove hnew, if_pos hold]
  obtain ⟨k, s, -, hs', hcovers, -⟩ :=
    tracks_relocate hs hcache hmove ⟨h, r, hh, hr, hn, rfl⟩ hnew
  have hmapped := hbacked k s n hs' hcovers
  rw [rightsAt_relocate_eq_none hs hcache hoff hmove hgone] at hmapped
  cases hmapped

/-- **A page that a move loses as it fails** is covered still: the records
are as they were, if they had no guards. -/
theorem not_backed_of_lost (hw : View.Unguarded w.store.get?)
    (hcache : w.config.useMappingCache = true)
    (hmove : (w.lifted q.address).machine.move q = (.error e, m))
    (hr : (w.lifted q.address).store.get? h = some r) (hn : r.Covers n)
    (hgone : m.rightsAt n = none) : ¬ (w.relocate q).2.Backed := by
  intro hbacked
  have hguard := guarding_restore { w.lifted q.address with machine := m }
    (w.store.find? q.address) (w.hasBelow q.address) (w.hasAbove q.address)
  rw [hasGuards_of_unguarded hw, ← relocate_of_move_error hcache hmove] at hguard
  obtain ⟨hview, hsilent⟩ := hguard.of_not_asked
  have hmapped := hbacked h r n (by rw [hview]; exact hr) hn
  rw [hsilent.keeps (f := Machine.rightsAt) fun _ _ => rfl] at hmapped
  simp only [hgone] at hmapped
  cases hmapped

/-- **What is stranded is left behind as a phantom**, where no record has a
guard. -/
theorem not_strands_of_backed (hs : w.store.Shaped) (hw : View.Unguarded w.store.get?)
    (hcache : w.config.useMappingCache = true) (hoff : w.config.guardPagesActive = false)
    {op : Operation} (hbacked : (w.perform op).2.Backed) : ¬ w.Strands op := by
  cases op with
  | relocate q =>
    have hbacked : (w.relocate q).2.Backed := hbacked
    have hlifted := hw.clearing (clearing_lifted w q.address 0 0 none)
    intro hstrands
    rcases hmove : (w.lifted q.address).machine.move q with ⟨e | moved, m⟩
    · simp only [Strands, hmove] at hstrands
      obtain ⟨k, r, p, n, hr, hp, -, hgone⟩ := hstrands
      rw [← hlifted k r hr] at hp
      exact not_backed_of_lost hw hcache hmove hr (Record.eq_body_of_holds_bare hp).2 hgone hbacked
    · simp only [Strands, hmove] at hstrands
      obtain ⟨k, r, p, n, hk, hr, hp, hold, hnew⟩ := hstrands
      rw [← hw k r hr] at hp
      exact not_backed_of_left hs hcache hoff hmove hk hr (Record.eq_body_of_holds_bare hp).2
        hold hnew hbacked
  | create | remove | reprotect | makeExecuteOnly | releaseExecuteOnly | teardown => exact id

/-! ## Runs -/

/-- **When a record is a phantom.** Over every run that begins without
records, under every fault: no record covers a page that is not mapped
after any step of a run whose moves strand no pages; and where no guards
are placed, that is so in no other run. -/
theorem backed_throughout_iff (hempty : w.store = .empty)
    (hcache : w.config.useMappingCache = true) (ops : List Operation) :
    (w.Avoids Strands ops → w.Throughout Backed ops) ∧
      (w.config.guardPagesActive = false →
        (w.Throughout Backed ops ↔ w.Avoids Strands ops)) := by
  have hbacked : w.Avoids Strands ops → w.Throughout Backed ops := by
    intro hno done hdone
    exact (consistent_of_avoids hempty hcache hno done hdone).backed
  refine ⟨hbacked, fun hoff => ⟨fun hall done op hdone => ?_, hbacked⟩⟩
  -- the shape of the records and the absence of guards are kept whether or not pages are stranded
  have hs := shaped_run (shaped_of_empty hempty) done
  have hw := unguarded_run hempty hoff done
  rw [← config_run w done] at hcache hoff
  refine not_strands_of_backed hs hw hcache hoff ?_
  have hnext := hall (done ++ [op]) hdone
  rw [run_append, run_cons, run_nil] at hnext
  exact hnext

/-- A move that takes two mappings along in the record of one, and leaves
the record of the other behind; and a move of one whole mapping, which
strands nothing. -/
theorem phantom_after_stranding_move :
    ¬ (Warden.start { useMappingCache := true }).Throughout Backed
      [.create ⟨0, 4096, .readWrite, .privateAnonymous, -1, 0⟩,
        .create ⟨0, 4096, .readWrite, .privateAnonymous, -1, 0⟩,
        .relocate ⟨0x7effffffe000, 8192, 8192, ⟨3⟩, 0x1000000000⟩] ∧
    (Warden.start { useMappingCache := true }).Throughout Backed
      [.create ⟨0, 4096, .readWrite, .privateAnonymous, -1, 0⟩,
        .relocate ⟨0x7efffffff000, 4096, 4096, ⟨3⟩, 0x1000000000⟩] := by
  constructor
  · intro hbacked
    have havoids := ((backed_throughout_iff rfl rfl _).2 rfl).1 hbacked
    refine havoids
      [.create ⟨0, 4096, .readWrite, .privateAnonymous, -1, 0⟩,
        .create ⟨0, 4096, .readWrite, .privateAnonymous, -1, 0⟩]
      (.relocate ⟨0x7effffffe000, 8192, 8192, ⟨3⟩, 0x1000000000⟩) (List.prefix_refl _) ?_
    refine strands_of_ok (h := ⟨0, 0⟩) (r := .fresh 0x7efffffff000 4096 .readWrite)
      (n := pageOf 0x7efffffff000) (p := .body) (a := 0x1000000000) ?_ ?_ ?_ ?_ ?_ ?_ ?_
    · rfl
    · rfl
    · decide
    · rfl
    · decide
    · decide
    · decide
  · refine (backed_throughout_iff rfl rfl _).1 ?_
    refine avoids_cons.2 ⟨id, avoids_cons.2 ⟨?_, avoids_nil⟩⟩
    rintro ⟨k, r, -, -, hk, hr, -⟩
    have hmem := Store.mem_entries_iff.2 hr
    obtain ⟨rfl, -⟩ := Prod.mk.inj (List.mem_singleton.1 hmem)
    exact hk rfl

end Warden

end PageWarden
