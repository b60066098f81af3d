import PageWarden.Proofs.Account
import PageWarden.Proofs.Backed
import PageWarden.Proofs.Flank
/-!
# Accounts — operations and runs

Where no unmapping is scheduled to fail, every operation keeps the account
of the mapped pages, if moves concern one mapping as a whole and do not
fail halfway (`Warden.Irregular`). So over a run of such operations the
mapped pages are exactly the pages of the records, their guards, and the
pages of files; each of them belongs to one record in one way, and each
guard lies where it should (`balanced_throughout`).
-/

namespace PageWarden

namespace Warden

variable {w v : Warden} {X : Nat → Prop}

/-- A rightful warden whose mapped pages are accounted for, on a machine
that does not fail to unmap. -/
structure Accountable (w : Warden) : Prop where
  rightful : w.Rightful
  accounted : Accounted Nowhere w.store.get? w.machine
  unmaps : w.machine.faults .unmap = []

/-- What a difference in bytes and keys leaves is accounted for as well. -/
theorem Alike.accounted (h : Alike v w) (hv : Accounted X v.store.get? v.machine) :
    Accounted X w.store.get? w.machine := by
  rw [h.store]
  refine hv.machine fun n hn hX => ⟨hX, ?_, congrFun h.path.tenant n⟩
  rw [h.rightsAt] at hn
  exact hn

/-- **A record that enters accounts for the exempt pages** that it covers. -/
theorem accounted_entered {V : View} {m : Machine} {r : Record} {h : Handle}
    (ha : Accounted X V m) (hfree : V h = none)
    (hX : ∀ n, (m.rightsAt n).isSome → X n → r.Covers n) :
    Accounted Nowhere (Function.update V h (some r)) m := by
  have hentered : Accounted X (Function.update V h (some r)) m :=
    ha.records fun n ⟨k, s, p, hs, hp⟩ _ => ⟨k, s, p, View.update_of_free hs hfree, hp⟩
  refine hentered.settle fun n hn hXn => ?_
  exact Or.inl ⟨h, r, .body, Function.update_self h _ V, hX n hn hXn⟩

/-- Following up a mapping accounts for its range. -/
theorem accounted_settle {q : MapRequest} {a : Nat} (hs : w.store.Shaped)
    (hcache : w.config.useMappingCache = true) (hm : w.machine.faults .unmap = [])
    (ha : Aligned a)
    (htenant : ∀ n, PageIn a (a + roundUp q.length pageSize) n →
      w.machine.tenant n = some (if q.isAnonymous then .memory else .file))
    (hacc : Accounted (PageIn a (a + roundUp q.length pageSize)) w.store.get? w.machine) :
    Accounted Nowhere (w.settle q a).store.get? (w.settle q a).machine := by
  have hstop := ha.add_roundUp q.length
  have hcarve : Clearing a (a + roundUp q.length pageSize) none w.store.get? w.machine _ _ :=
    clearing_carve hs hstop w.live_none
  have hcarved := hacc.clearing hm (fun _ hn => hn) ha hstop hcarve
  by_cases hanon : q.isAnonymous = true
  · have hentered := accounted_entered (r := .fresh a q.length q.rights) hcarved
      (Store.get?_nextHandle _) fun n _ hn => hn
    exact hentered.guarding (hcarve.calls.unscheduled hm) (guarding_settle hcache hanon a)
  · rw [settle_of_file hcache hanon]
    refine hcarved.settle fun n _ hn => Or.inr ?_
    rw [hcarve.tenant, htenant n hn, if_neg hanon]

/-- Following up a release accounts for what is left. -/
theorem accounted_vacate {a l : Nat} (hs : w.store.Shaped) (hm : w.machine.faults .unmap = [])
    (ha : Aligned a) (hlen : 0 < l)
    (hgone : ∀ n, PageIn a (a + roundUp l pageSize) n → w.machine.rightsAt n = none)
    (hacc : Accounted Nowhere w.store.get? w.machine) :
    Accounted Nowhere (w.vacate a l).store.get? (w.vacate a l).machine := by
  obtain ⟨V, m, hclear, -, hguard⟩ := vacate_steps hs ha hlen
  have hcleared := (hacc.exempt (Y := PageIn a (a + roundUp l pageSize)) fun _ hX => hX.elim).clearing
    hm (fun _ hn => hn) ha (ha.add_roundUp l) hclear
  refine Accounted.guarding (hcleared.settle fun n hn hin => ?_) (hclear.calls.unscheduled hm) hguard
  rw [hclear.rightsAt_eq_none (hgone n hin)] at hn
  cases hn

/-- Noting a protection changes no account. -/
theorem accounted_note {a l : Nat} {ρ : Rights} (hacc : Accounted X w.store.get? w.machine) :
    Accounted X (w.note a l ρ).store.get? (w.note a l ρ).machine := by
  have hnoted : w.machine.Path Act.Idle (w.note a l ρ).machine := path_note w a l ρ
  have hsame : Accounted X w.store.get? (w.note a l ρ).machine := by
    refine hacc.machine fun n hn hX => ⟨hX, ?_, congrFun hnoted.tenant n⟩
    rw [rightsAt_note] at hn
    exact hn
  refine hsame.records fun n ⟨k, s, p, hs, hp⟩ _ => ?_
  cases hfound : w.found a with
  | none =>
    rw [note_of_not_found hfound]
    exact ⟨k, s, p, hs, hp⟩
  | some h =>
    obtain ⟨r, hr⟩ := exists_of_found hfound
    unfold note
    simp only [hfound]
    rw [(w.noteProtection_of_get? hr a l ρ).1]
    by_cases hk : k = h
    · subst hk
      obtain rfl : s = r := Option.some.inj (hs.symm.trans hr)
      exact ⟨k, _, p, Function.update_self k _ _, by cases p <;> exact hp⟩
    · refine ⟨k, s, p, ?_, hp⟩
      rw [Function.update_of_ne hk, hs]

/-- **Execute-only memory is accounted for**, or taken back. -/
theorem accounted_makeExecuteOnly (hw : w.Accountable) (size : Nat) (code : List UInt8) :
    Accounted Nowhere (w.makeExecuteOnly size code).2.store.get?
      (w.makeExecuteOnly size code).2.machine := by
  rcases w.makeExecuteOnly_stages size code with ⟨-, h⟩ | ⟨a, m, -, hmap, hstage⟩
  · exact h.accounted hw.accounted
  · obtain ⟨ha, hlen⟩ := Machine.aligned_of_map hmap
    have hcopied := (Machine.calls_of_map hmap).copy a code
    rcases hstage with ⟨f, m', hseal, -, h⟩ | ⟨key, m', hseal, -, h⟩
    · have hm' := (hcopied.trans (calls_sealPages hseal)).unscheduled hw.unmaps
      have hlen : 0 < size := hlen
      have hok := Machine.unmap_of_aligned hm' ha hlen
      rw [h]
      refine hw.accounted.machine fun n hn hX => ⟨hX, ?_⟩
      have hout := (Machine.isSome_rightsAt_of_unmap (Prod.ext hok rfl) hn).1
      rw [rightsAt_taken_back hmap hseal hout] at hn
      refine ⟨hn, ?_⟩
      rw [Machine.tenant_unmap, tenant_reserved hmap hseal, if_neg hout]
    · have hready := (hcopied.trans (calls_sealPages hseal)).trans (path_isolation m' key).calls
      have hmapped : Accounted (PageIn a (a + roundUp size pageSize)) w.store.get?
          (isolation m' key).2 := by
        refine hw.accounted.machine fun n hn hout => ⟨not_false, ?_, ?_⟩
        · rw [rightsAt_isolation, rightsAt_sealed hmap hseal, if_neg hout] at hn
          exact hn
        · rw [(path_isolation m' key).tenant, tenant_reserved hmap hseal, if_neg hout]
      have hentered := accounted_entered (h := w.store.nextHandle)
        (r := { Record.fresh a size .exec with executeOnly := some ⟨key, (isolation m' key).1⟩ })
        hmapped (Store.get?_nextHandle _) fun n _ hn => hn
      exact h.accounted (hentered.guarding (hready.unscheduled hw.unmaps)
        (guarding_enroll { w with machine := (isolation m' key).2 } _))

/-- **What is released of execute-only memory is gone.** -/
theorem accounted_releaseExecuteOnly (hw : w.Accountable) (a l : Nat) :
    Accounted Nowhere (w.releaseExecuteOnly a l).2.store.get?
      (w.releaseExecuteOnly a l).2.machine := by
  rcases w.releaseExecuteOnly_stages a l with
    ⟨-, h⟩ | ⟨h, r, t, m, -, -, hremove, -, hm, hstage⟩
  · exact h.accounted hw.accounted
  · have hr := (Store.remove_eq_some_iff.1 hremove).1
    obtain ⟨hbase, hlen⟩ := hw.rightful.consistent.shaped h r hr
    have hlift : Clearing 0 0 none w.store.get? w.machine _ _ := Clearing.refl.liftAll hr
    have hbare : Accounted Nowhere (Function.update w.store.get? h (some r.bare)) m ∧
        m.faults .unmap = [] := by
      have hlifted := hw.accounted.clearing hw.unmaps (fun _ => of_pageIn_zero) aligned_zero
        aligned_zero hlift
      have hfaults := hlift.calls.unscheduled hw.unmaps
      rcases hm with rfl | ⟨e, he, rfl⟩
      · exact ⟨hlifted, hfaults⟩
      · refine ⟨hlifted.machine fun n hn hX => ⟨hX, hn, ?_⟩, hfaults⟩
        rw [Machine.tenant_tell _ he]
    have hok := Machine.unmap_of_aligned hbare.2 hbase hlen
    rcases hstage with ⟨errno, m', hunmap, -⟩ | ⟨m', hunmap, -, hv⟩
    · rw [hunmap] at hok
      cases hok
    · have htenant := Machine.tenant_unmap m r.base r.length
      rw [hunmap] at htenant
      rw [hv]
      intro n hn _
      rw [rightsAt_releaseKey] at hn
      obtain ⟨hout, hmapped⟩ := Machine.isSome_rightsAt_of_unmap hunmap hn
      rw [store_releaseKey, tenant_releaseKey]
      rcases hbare.1 n hmapped not_false with ⟨k, s, p, hs, hp⟩ | hfile
      · -- the record that leaves held only pages that are gone
        refine Or.inl ⟨k, s, p, ?_, hp⟩
        rw [Function.update_apply] at hs
        split at hs
        · cases hs
          exact absurd (Record.eq_body_of_holds_bare hp).2 hout
        · rename_i hk
          rw [Store.get?_remove_eq_update hremove, Function.update_of_ne hk, hs]
      · exact Or.inr ((congrFun htenant n).trans hfile)

/-! ## Moves -/

/-- The old range of the move is the range of one record. -/
def Whole (w : Warden) (q : MoveRequest) : Prop :=
  ∃ h r, w.store.get? h = some r ∧ q.address = r.base ∧
    roundUp q.length pageSize = r.span pageSize

/-- The move fails for want of room, after it has taken its old pages. -/
def Exhausts (w : Warden) (q : MoveRequest) : Prop :=
  ∃ errno m n, (w.lifted q.address).machine.move q = (.error errno, m) ∧
    ((w.lifted q.address).machine.rightsAt n).isSome ∧ m.rightsAt n = none

/-- The operation gives everything up, moves something else than one whole
mapping, or loses what it moves. -/
def Irregular (w : Warden) : Operation → Prop
  | .relocate q => ¬ w.Whole q ∨ w.Exhausts q
  | .teardown => True
  | .create _ => False
  | .remove _ _ => False
  | .reprotect _ _ _ => False
  | .makeExecuteOnly _ _ => False
  | .releaseExecuteOnly _ _ => False

/-- **The record of a whole mapping is the one that is found** at its start,
and its pages are the old range. -/
theorem Whole.found (hc : w.Consistent) {q : MoveRequest} (hq : w.Whole q) :
    ∃ h r, w.store.find? q.address = some h ∧ w.store.get? h = some r ∧
      ∀ n, q.Old n ↔ r.Covers n := by
  obtain ⟨h, r, hr, hbase, hspan⟩ := hq
  have hshaped := hc.shaped h r hr
  have hcontains : r.contains q.address = true := by
    simp only [Record.contains, hbase, beq_self_eq_true, Bool.true_or]
  obtain ⟨k, hfind⟩ := Store.exists_find? hr hcontains
  obtain ⟨t, ht, hfound⟩ := Store.get?_of_find? hfind
  have ha : Aligned q.address := hbase ▸ hshaped.1
  -- both records cover the page of the address, so they are one
  have hpage : r.Covers (pageOf q.address) := Record.covers_of_contains hshaped ha hcontains
  have hsame : h = k := (hc.inStep.sole (p := .body) (q := .body) hr ht hpage
    (Record.covers_of_contains (hc.shaped k t ht) ha hfound)).1
  subst hsame
  refine ⟨h, r, hfind, hr, fun n => ?_⟩
  unfold MoveRequest.Old Record.Covers Record.stop
  rw [hbase, hspan]

/-- **A regular operation strands no pages.** -/
theorem not_strands_of_regular (hc : w.Consistent) {op : Operation} (hop : ¬ w.Irregular op) :
    ¬ w.Strands op := by
  cases op with
  | relocate q =>
    obtain ⟨hwhole, hroom⟩ := not_or.1 hop
    obtain ⟨h, r, hfind, hr, hold⟩ := (not_not.1 hwhole).found hc
    rcases hmove : (w.lifted q.address).machine.move q with ⟨errno | moved, m⟩
    · simp only [Strands, hmove]
      rintro ⟨k, s, p, n, hs, hp, -, hgone⟩
      have hmapped := (inStep_lifted hc.inStep q.address).mapped hs hp not_false
      exact hroom ⟨errno, m, n, hmove, hmapped, hgone⟩
    · simp only [Strands, hmove]
      rintro ⟨k, s, p, n, hk, hs, hp, hn, -⟩
      have hsame := (hc.inStep.sole (q := .body) hs hr hp ((hold n).1 hn)).1
      exact hk (by rw [hsame, hfind])
  | create | remove | reprotect | makeExecuteOnly | releaseExecuteOnly | teardown => exact id

/-- **A move of a whole mapping takes its account along.** -/
theorem accounted_relocate (hw : w.Accountable) (hcache : w.config.useMappingCache = true)
    {q : MoveRequest} (hop : ¬ w.Irregular (.relocate q)) :
    Accounted Nowhere (w.relocate q).2.store.get? (w.relocate q).2.machine := by
  have hc := hw.rightful.consistent
  obtain ⟨hwhole, hroom⟩ := not_or.1 hop
  obtain ⟨h, f, hfind, hf, hold⟩ := (not_not.1 hwhole).found hc
  have hlift := clearing_lifted w q.address 0 0 none
  have hlifted := hw.accounted.clearing hw.unmaps (fun _ => of_pageIn_zero) aligned_zero
    aligned_zero hlift
  rcases w.relocate_cases q hcache with ⟨e, m, hmove, -, hv⟩ | ⟨moved, m, hmove, -, -⟩ <;>
    have hunmaps := (hlift.calls.trans (Machine.calls_of_move hmove)).unscheduled hw.unmaps
  · have hfailed : Accounted Nowhere (w.lifted q.address).store.get? m := by
      refine hlifted.machine fun n hn hX => ⟨hX, ?_, by rw [Machine.tenant_move_error hmove]⟩
      rcases Machine.rightsAt_move_error hmove with hsame | hlost
      · rw [hsame] at hn
        exact hn
      · rw [hlost] at hn
        split at hn
        · cases hn
        · exact hn
    rw [hv]
    exact hfailed.guarding hunmaps
      (guarding_restore { w.lifted q.address with machine := m } _ _ _)
  · obtain ⟨-, ha, -⟩ := Machine.aligned_of_move hmove
    have hmoved : Accounted (q.New moved) (w.lifted q.address).store.get? m := by
      refine hlifted.machine fun n hn hout => ⟨not_false, ?_, ?_⟩
      · rw [Machine.rightsAt_move hmove hout] at hn
        split at hn
        · cases hn
        · exact hn
      · rw [Machine.tenant_move hmove, if_neg hout]
    obtain ⟨V, m', hclear, -, hstage⟩ := relocate_steps hc.shaped hcache hmove
    have hcleared := hmoved.clearing hunmaps (fun _ hn => hn) ha (ha.add_roundUp _) hclear
    rcases hstage with ⟨hnone, -, -⟩ | ⟨k, r, hk, hr, hstays, hguard⟩
    · rw [hfind] at hnone
      cases hnone
    · obtain rfl : h = k := Option.some.inj (hfind.symm.trans hk)
      obtain rfl : f = r := Option.some.inj (hf.symm.trans hr)
      refine Accounted.guarding ?_ (hclear.calls.unscheduled hunmaps) hguard
      intro n hn _
      by_cases hnew : q.New moved n
      · exact Or.inl ⟨h, _, .body, Function.update_self h _ _, hnew⟩
      · refine (hcleared n hn hnew).imp_left fun ⟨k, s, p, hs, hp⟩ => ⟨k, s, p, ?_, hp⟩
        rw [Function.update_of_ne, hs]
        -- the record that moves held the old range only, which is gone
        rintro rfl
        obtain rfl : s = f.bare := Option.some.inj (hs.symm.trans hstays)
        have hgone : m.rightsAt n = none := by
          rw [Machine.rightsAt_move hmove hnew, if_pos]
          exact (hold n).2 (Record.eq_body_of_holds_bare hp).2
        rw [hclear.rightsAt_eq_none hgone] at hn
        cases hn

/-! ## Every operation -/

/-- **A regular operation keeps the account.** -/
theorem accounted_perform (hw : w.Accountable) (hcache : w.config.useMappingCache = true)
    {op : Operation} (hop : ¬ w.Irregular op) :
    Accounted Nowhere (w.perform op).2.store.get? (w.perform op).2.machine := by
  have hs := hw.rightful.consistent.shaped
  cases op with
  | create q =>
    show Accounted Nowhere (w.create q).2.store.get? (w.create q).2.machine
    rcases w.create_cases q with ⟨-, h⟩ | ⟨a, m, hmap, -, h⟩
    · exact h.accounted hw.accounted
    · have hunmaps := (Machine.calls_of_map hmap).unscheduled hw.unmaps
      refine h.accounted (accounted_settle (w := { w with machine := m }) hs hcache hunmaps
        (Machine.aligned_of_map hmap).1 (fun n hn => ?_) ?_)
      · show m.tenant n = _
        rw [Machine.tenant_map hmap, if_pos hn]
      · refine hw.accounted.machine fun n hn hout => ⟨not_false, ?_, ?_⟩
        · rw [Machine.rightsAt_map hmap, if_neg hout] at hn
          exact hn
        · rw [Machine.tenant_map hmap, if_neg hout]
  | remove a l =>
    show Accounted Nowhere (w.remove a l).2.store.get? (w.remove a l).2.machine
    rcases w.remove_cases a l with ⟨-, h⟩ | ⟨m, hunmap, -, h⟩
    · exact h.accounted hw.accounted
    · obtain ⟨ha, hlen⟩ := Machine.aligned_of_unmap hunmap
      have hunmaps := (Machine.calls_of_unmap hunmap).unscheduled hw.unmaps
      have htenant := Machine.tenant_unmap w.machine a l
      rw [hunmap] at htenant
      rw [h, if_pos hcache]
      refine accounted_vacate (w := { w with machine := m }) hs hunmaps ha hlen (fun n hn => ?_) ?_
      · show m.rightsAt n = none
        rw [Machine.rightsAt_unmap hunmap, if_pos hn]
      · exact hw.accounted.machine fun n hn hX =>
          ⟨hX, (Machine.isSome_rightsAt_of_unmap hunmap hn).2, congrFun htenant n⟩
  | reprotect a l ρ =>
    show Accounted Nowhere (w.reprotect a l ρ).2.store.get? (w.reprotect a l ρ).2.machine
    rcases w.reprotect_cases a l ρ with ⟨-, h⟩ | ⟨m, hprotect, -, h⟩
    · exact h.accounted hw.accounted
    · have hidle := Machine.idle_protect hprotect
      rw [h]
      refine accounted_note (w := { w with machine := m }) ?_
      refine hw.accounted.machine fun n hn hX => ⟨hX, ?_, congrFun hidle.tenant n⟩
      rw [hidle.isSome_rightsAt] at hn
      exact hn
  | relocate q => exact accounted_relocate hw hcache hop
  | makeExecuteOnly s c => exact accounted_makeExecuteOnly hw s c
  | releaseExecuteOnly a l => exact accounted_releaseExecuteOnly hw a l
  | teardown => exact absurd trivial hop

/-- **A regular operation keeps a warden accountable.** -/
theorem accountable_perform (hw : w.Accountable) (hcache : w.config.useMappingCache = true)
    {op : Operation} (hop : ¬ w.Irregular op) : (w.perform op).2.Accountable :=
  ⟨rightful_perform hw.rightful hcache (not_strands_of_regular hw.rightful.consistent hop),
    accounted_perform hw hcache hop, (calls_perform w op).unscheduled hw.unmaps⟩

/-! ## Runs -/

/-- The page is a file's: it is mapped, and a mapping of a file was the
last to take it. -/
def FilePage (w : Warden) (n : Nat) : Prop :=
  (w.machine.rightsAt n).isSome ∧ w.machine.tenant n = some .file

/-- **The accounts balance.** -/
structure Balanced (w : Warden) : Prop where
  /-- The guard below a record lies one page below it. -/
  guard_below : ∀ {k r g}, w.store.get? k = some r → r.guardBelow = some g →
    g + pageSize = r.base
  /-- The guard above a record lies right behind it. -/
  guard_above : ∀ {k r g}, w.store.get? k = some r → r.guardAbove = some g →
    g = r.stop pageSize
  /-- What is named as a guard is a mapped page. -/
  guard_mapped : ∀ {k r g}, w.store.get? k = some r →
    r.guardBelow = some g ∨ r.guardAbove = some g →
    Aligned g ∧ (w.machine.rightsAt (pageOf g)).isSome
  /-- No page is held twice: not by two records, and not in two ways. -/
  sole : ∀ {h k r s p q n}, w.store.get? h = some r → w.store.get? k = some s →
    r.Holds p n → s.Holds q n → h = k ∧ p = q
  /-- Mapped are the pages that records hold and the pages of files. -/
  mapped_iff : ∀ n, (w.machine.rightsAt n).isSome ↔
    View.Held w.store.get? n ∨ w.FilePage n
  /-- No record holds a page of a file. -/
  apart : ∀ {n}, View.Held w.store.get? n → ¬ w.FilePage n

/-- An accountable warden with its guards in place is balanced. -/
theorem balanced_of_accountable (hw : w.Accountable) (hflank : View.Flanked w.store.get?) :
    w.Balanced where
  guard_below := fun hr hg => (hflank _ _ hr).2.below hg
  guard_above := fun hr hg => (hflank _ _ hr).2.above hg
  guard_mapped := by
    intro k r g hr hg
    obtain ⟨hshaped, hflanks⟩ := hflank k r hr
    have ha := hflanks.aligned hshaped.1 hg
    have hpage := pageOf_mul_pageSize ha
    refine ⟨ha, ?_⟩
    rcases hg with hg | hg
    · refine hw.rightful.consistent.inStep.mapped (p := .below) hr ?_ not_false
      rw [Record.Holds, hpage, hg]
    · refine hw.rightful.consistent.inStep.mapped (p := .above) hr ?_ not_false
      rw [Record.Holds, hpage, hg]
  sole := hw.rightful.consistent.inStep.sole
  mapped_iff := by
    intro n
    constructor
    · intro hn
      exact (hw.accounted n hn not_false).imp_right fun hfile => ⟨hn, hfile⟩
    · rintro (⟨k, r, p, hr, hp⟩ | hfile)
      · exact hw.rightful.consistent.inStep.mapped hr hp not_false
      · exact hfile.1
  apart := by
    rintro n ⟨k, r, p, hr, hp⟩ ⟨-, hfile⟩
    by_cases hbody : p = .body
    · subst hbody
      exact hw.rightful.titled.body hr hp not_false hfile
    · rw [hw.rightful.titled.guard hr hbody hp not_false] at hfile
      cases hfile

/-- **The accounts balance throughout.** Over every run that begins without
records and without mapped pages, whatever fails but unmapping: if moves
concern one mapping as a whole and do not fail halfway, guards lie where
they should, no page is held twice, and the mapped pages are those of the
records, of their guards, and of files. -/
theorem balanced_throughout (hempty : w.store = .empty)
    (hspace : w.machine.space.table = .empty) (hcache : w.config.useMappingCache = true)
    (hunmap : w.machine.faults .unmap = []) {ops : List Operation}
    (hno : w.Avoids Irregular ops) : w.Throughout Balanced ops := by
  have hstart : w.Accountable := by
    refine ⟨rightful_of_no_records (shaped_of_empty hempty) (get?_of_empty hempty), ?_, hunmap⟩
    intro n hn
    rw [Machine.rightsAt, hspace] at hn
    cases hn
  have hall : w.Throughout (fun v => v.Accountable ∧ v.config.useMappingCache = true) ops := by
    refine throughout_of_avoids (fun v op hv hop => ⟨accountable_perform hv.1 hv.2 hop, ?_⟩)
      ⟨hstart, hcache⟩ hno
    rw [config_perform]
    exact hv.2
  intro done hdone
  exact balanced_of_accountable (hall done hdone).1 (flanked_run hempty done)

/-- A mapping loses its page in the middle, and each half keeps the guard on
its outer side; beside a file, the lower half is moved and grows. -/
theorem balanced_after_splitting_and_moving :
    (Warden.start { useMappingCache := true, enableGuardPages := true }).Throughout Balanced
      [.create ⟨0, 12288, .readWrite, .privateAnonymous, -1, 0⟩,
        .remove 0x7effffffe000 4096,
        .create ⟨0, 4096, .readWrite, ⟨2⟩, 3, 0⟩,
        .relocate ⟨0x7effffffd000, 4096, 8192, ⟨3⟩, 0x1000000000⟩] := by
  refine balanced_throughout ?_ ?_ ?_ ?_ ?_
  · rfl
  · rfl
  · rfl
  · rfl
  · refine avoids_cons.2 ⟨id, avoids_cons.2 ⟨id, avoids_cons.2 ⟨id, avoids_cons.2
      ⟨?_, avoids_nil⟩⟩⟩⟩
    refine not_or.2 ⟨not_not.2 ⟨⟨0, 0⟩, ⟨0x7effffffd000, 4096, .readWrite, .readWrite,
      some 0x7effffffc000, none, none⟩, ?_, ?_, ?_⟩, ?_⟩
    · rfl
    · rfl
    · decide
    · rintro ⟨errno, m, n, hmove, -, -⟩
      have hok := congrArg Prod.fst hmove
      cases hok

end Warden

end PageWarden
