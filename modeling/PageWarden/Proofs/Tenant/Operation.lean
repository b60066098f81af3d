import PageWarden.Proofs.InStep.Operation
import PageWarden.Proofs.Path.Operation
import PageWarden.Proofs.Tenant
/-!
# Tenants — operations and runs

Every operation that strands no pages leaves the records right about
their pages (`titled_perform`): what a record covers was mapped as memory
and what it names as a guard was mapped as one, by the last call that
took the page. So a run that strands nothing has its guard fields right
throughout, whoever took and gave back pages in between.
-/

namespace PageWarden

namespace Warden

variable {w : Warden} {X : Nat → Prop}

/-- Records are well formed, in step with memory and right about their
pages. -/
structure Rightful (w : Warden) : Prop where
  consistent : w.Consistent
  titled : Titled Nowhere w.store.get? w.machine

/-- What a difference in bytes and keys leaves is right about its pages as
well. -/
theorem Alike.titled {v : Warden} (h : Alike v w) (hv : Titled X v.store.get? v.machine) :
    Titled X w.store.get? w.machine := by
  rw [h.store]
  exact hv.same h.path.tenant

/-- A carve leaves records right about their pages, and nobody has a page
of its range but the record that is spared. -/
theorem titled_carve {start stop : Nat} {keep : Option Handle} (hs : w.store.Shaped)
    (hstart : Aligned start) (hstop : Aligned stop) (hlive : w.Live keep)
    (ht : Titled (PageIn start stop) w.store.get? w.machine) :
    Titled (PageIn start stop) (w.carve start stop keep).store.get?
        (w.carve start stop keep).machine ∧
      ∀ k s p n, some k ≠ keep → (w.carve start stop keep).store.get? k = some s → s.Holds p n →
        ¬ PageIn start stop n :=
  ⟨ht.clearing hstart hstop (clearing_carve hs hstop hlive),
    fun _ _ _ _ hk hget hp hn => hk (held_carve hs hstart hstop hget hp hn).2⟩

/-- Records stay right about their pages as a mapping is followed up. -/
theorem titled_settle {q : MapRequest} {a : Nat} (hs : w.store.Shaped)
    (hcache : w.config.useMappingCache = true)
    (hin : InStep Nowhere w.store.get? w.machine.rightsAt) (ha : Aligned a)
    (hmapped : ∀ n, PageIn a (a + roundUp q.length pageSize) n →
      (w.machine.rightsAt n).isSome ∧
        w.machine.tenant n = some (if q.isAnonymous then .memory else .file))
    (ht : Titled (PageIn a (a + roundUp q.length pageSize)) w.store.get? w.machine) :
    Titled Nowhere (w.settle q a).store.get? (w.settle q a).machine := by
  have hstop := ha.add_roundUp q.length
  obtain ⟨hcarved, hapart⟩ := titled_carve hs ha hstop w.live_none ht
  by_cases hanon : q.isAnonymous = true
  · have hentered := hcarved.rehouse
      (h := (w.carve a (a + roundUp q.length pageSize) none).store.nextHandle)
      (r := .fresh a q.length q.rights) (fun _ _ hp => Record.eq_body_of_holds rfl hp)
      (fun n hn => ?_) fun k s p n _ => hapart k s p n (Option.some_ne_none k)
    · exact hentered.guarding (inStep_tracked hs hin ha fun n hn => (hmapped n hn).1)
        (guarding_settle hcache hanon a)
    · have htenant := (hmapped n hn).2
      rw [(clearing_carve hs hstop w.live_none).tenant, htenant, if_pos hanon]
      decide
  · rw [settle_of_file hcache hanon]
    exact hcarved.close fun k s p n hk hp hn =>
      absurd hn (hapart k s p n (Option.some_ne_none k) hk hp)

/-- Records stay right about their pages as a protection change is noted. -/
theorem titled_note {a l : Nat} {ρ : Rights} (ht : Titled X w.store.get? w.machine) :
    Titled X (w.note a l ρ).store.get? (w.note a l ρ).machine := by
  have hnoted : w.machine.Path Act.Idle (w.note a l ρ).machine := path_note w a l ρ
  refine (ht.shrink fun {k s p n} hs hp => ?_).same hnoted.tenant
  cases hfound : w.found a with
  | none =>
    rw [note_of_not_found hfound] at hs
    exact ⟨k, s, hs, hp⟩
  | some h =>
    obtain ⟨r, hr⟩ := exists_of_found hfound
    unfold note at hs
    simp only [hfound] at hs
    rw [(w.noteProtection_of_get? hr a l ρ).1, Function.update_apply] at hs
    split at hs
    · cases hs
      exact ⟨h, r, hr, by cases p <;> exact hp⟩
    · exact ⟨k, s, hs, hp⟩

/-- **Records stay right about their pages as they follow a move** that
strands none. -/
theorem titled_relocate (hw : w.Rightful) (hcache : w.config.useMappingCache = true)
    {q : MoveRequest} (hno : ¬ w.Strands (.relocate q)) :
    Titled Nowhere (w.relocate q).2.store.get? (w.relocate q).2.machine := by
  have hc := hw.consistent
  have hshaped : (w.lifted q.address).store.Shaped := shaped_congr hc.shaped (bare?_lifted w _)
  have hlifted := hw.titled.clearing aligned_zero aligned_zero
    (clearing_lifted w q.address 0 0 none)
  rcases w.relocate_cases q hcache with ⟨e, m, hmove, -, h⟩ | ⟨moved, m, hmove, -, h⟩
  · rw [h]
    have hfailed : Titled Nowhere (w.lifted q.address).store.get? m :=
      hlifted.same (Machine.tenant_move_error hmove)
    exact hfailed.guarding (inStep_of_move_error hc hmove hno)
      (guarding_restore { w.lifted q.address with machine := m } _ _ _)
  · obtain ⟨-, ha, -⟩ := Machine.aligned_of_move hmove
    obtain ⟨hnew, -, hsome⟩ := inStep_of_move hc hmove hno
    have hstop := ha.add_roundUp q.newLength
    have hmoved : Titled (q.New moved) (w.lifted q.address).store.get? m := by
      refine hlifted.machine (fun n hn => ?_) fun _ hX => hX.elim
      rw [Machine.tenant_move hmove, if_neg hn]
    rw [h]
    cases hfind : w.store.find? q.address with
    | none =>
      obtain ⟨hcarved, hapart⟩ := titled_carve (w := { w.lifted q.address with machine := m })
        hshaped ha hstop (live_none _) hmoved
      exact hcarved.close fun k s p n hk hp hn =>
        hapart k s p n (Option.some_ne_none k) hk hp hn
    | some h =>
      obtain ⟨f, hf, -⟩ := Store.get?_of_find? hfind
      obtain ⟨hkept, hin⟩ := hsome h f hfind hf
      obtain ⟨hcarved, hapart⟩ := titled_carve (w := { w.lifted q.address with machine := m })
        hshaped ha hstop (live_some hkept) hmoved
      have hhome := hcarved.rehouse (h := h)
        (r := { f.bare with base := moved, length := q.newLength })
        (fun _ _ hp => Record.eq_body_of_holds rfl hp) (fun n hn => ?_)
        fun k s p n hk => hapart k s p n fun heq => hk (Option.some.inj heq)
      · exact hhome.guarding
          (inStep_rehoused (w := { w.lifted q.address with machine := m }) hshaped ha hkept rfl
            hin hnew)
          (resettle_steps (w := { w.lifted q.address with machine := m }) q moved hkept rfl).2
      · have hrange : q.New moved n := hn
        rw [(clearing_carve (w := { w.lifted q.address with machine := m }) hshaped hstop
          (live_some hkept)).tenant, Machine.tenant_move hmove, if_pos hrange]
        decide

/-- Sealing a fresh mapping takes only pages that were free. -/
theorem tenant_reserved {size a n : Nat} {code : List UInt8} {v m m' : Machine}
    {o : Except Failure (Option Nat)} (hmap : v.map (.ofLength size .readWrite) = (.ok a, m))
    (hseal : sealPages (m.copy a code) a size = (o, m')) :
    m'.tenant n = if PageIn a (a + roundUp size pageSize) n then some .memory else v.tenant n := by
  have hsealed : m'.tenant = m.tenant := by
    have hcopy := (Machine.Path.refl.act (m := m) (.copy a code) trivial).tenant
    rcases path_sealPages hseal with hidle | ⟨-, m₁, κ, hidle, rfl⟩
    · exact hidle.tenant.trans hcopy
    · rw [Machine.tenant_keyFree]
      exact hidle.tenant.trans hcopy
  rw [hsealed, Machine.tenant_map hmap, isAnonymous_ofLength]
  rfl

/-- **Records stay right about their pages as execute-only memory is made**,
or fails to be. -/
theorem titled_makeExecuteOnly (hw : w.Rightful) (size : Nat) (code : List UInt8) :
    Titled Nowhere (w.makeExecuteOnly size code).2.store.get?
      (w.makeExecuteOnly size code).2.machine := by
  have hin := hw.consistent.inStep
  rcases w.makeExecuteOnly_stages size code with ⟨-, h⟩ | ⟨a, m, -, hmap, hstage⟩
  · exact h.titled hw.titled
  · rcases hstage with ⟨f, m', hseal, -, h⟩ | ⟨key, m', hseal, -, h⟩
    · rw [h]
      refine hw.titled.outside hin fun n hn => ?_
      rw [Machine.tenant_unmap, tenant_reserved hmap hseal,
        if_neg (not_pageIn_of_reserved hmap hn)]
    · have hsealed : ∀ n, (isolation m' key).2.tenant n =
          if PageIn a (a + roundUp size pageSize) n then some .memory else w.machine.tenant n := by
        intro n
        rw [(path_isolation m' key).tenant, tenant_reserved hmap hseal]
      have htitled : Titled Nowhere w.store.get? (isolation m' key).2 :=
        hw.titled.outside hin fun n hn => by
          rw [hsealed, if_neg (not_pageIn_of_reserved hmap hn)]
      have hentered := htitled.rehouse (h := w.store.nextHandle)
        (r := { Record.fresh a size .exec with executeOnly := some ⟨key, (isolation m' key).1⟩ })
        (fun _ _ hp => Record.eq_body_of_holds rfl hp) (fun n hn => ?_) fun _ _ _ _ _ _ _ => id
      · have henrolled := hentered.guarding (inStep_sealed hin hmap hseal)
          (guarding_enroll { w with machine := (isolation m' key).2 } _)
        exact h.titled henrolled
      · have hrange : PageIn a (a + roundUp size pageSize) n := hn
        rw [hsealed, if_pos hrange]
        decide

/-- Giving back a record's key takes nothing. -/
theorem tenant_releaseKey (w : Warden) (r : Record) :
    (w.releaseKey r).machine.tenant = w.machine.tenant := by
  unfold releaseKey
  split
  · rfl
  · split
    · exact Machine.tenant_tell _ rfl
    · exact (Machine.tenant_tell _ rfl).trans (Machine.tenant_keyFree _ _)

/-- **Records stay right about their pages as one is released.** -/
theorem titled_releaseExecuteOnly (ht : Titled Nowhere w.store.get? w.machine) (a l : Nat) :
    Titled Nowhere (w.releaseExecuteOnly a l).2.store.get?
      (w.releaseExecuteOnly a l).2.machine := by
  rcases w.releaseExecuteOnly_stages a l with
    ⟨-, h⟩ | ⟨h, r, t, m, -, -, hremove, -, hm, hstage⟩
  · exact h.titled ht
  · have hr := (Store.remove_eq_some_iff.1 hremove).1
    have hlifted : m.tenant = w.machine.tenant := by
      have hclear : Clearing 0 0 none w.store.get? w.machine _ _ := Clearing.refl.liftAll hr
      rcases hm with rfl | ⟨e, he, rfl⟩
      · exact hclear.tenant
      · exact (Machine.tenant_tell _ he).trans hclear.tenant
    have hafter : (w.releaseExecuteOnly a l).2.store = t ∧
        (w.releaseExecuteOnly a l).2.machine.tenant = w.machine.tenant := by
      have hunmapped := (Machine.tenant_unmap m r.base r.length).trans hlifted
      rcases hstage with ⟨errno, m', hunmap, -, hv⟩ | ⟨m', hunmap, -, hv⟩ <;>
        rw [hunmap] at hunmapped <;> rw [hv]
      · exact ⟨rfl, hunmapped⟩
      · exact ⟨store_releaseKey _ _, (tenant_releaseKey _ _).trans hunmapped⟩
    rw [hafter.1]
    have hless : Titled Nowhere t.get? w.machine := by
      refine ht.shrink fun {k s p n} hs hp => ⟨k, s, ?_, hp⟩
      rw [Store.get?_remove_eq_update hremove, Function.update_apply] at hs
      split at hs
      · cases hs
      · exact hs
    exact hless.same hafter.2

/-! ## Every operation -/

/-- **One operation that strands no pages leaves records right about their
pages.** -/
theorem titled_perform (hw : w.Rightful) (hcache : w.config.useMappingCache = true)
    {op : Operation} (hno : ¬ w.Strands op) :
    Titled Nowhere (w.perform op).2.store.get? (w.perform op).2.machine := by
  have hc := hw.consistent
  cases op with
  | create q =>
    show Titled Nowhere (w.create q).2.store.get? (w.create q).2.machine
    rcases w.create_cases q with ⟨-, h⟩ | ⟨a, m, hmap, -, h⟩
    · exact h.titled hw.titled
    · have hmapped : Titled (PageIn a (a + roundUp q.length pageSize)) w.store.get? m := by
        refine hw.titled.machine (fun n hn => ?_) fun _ hX => hX.elim
        rw [Machine.tenant_map hmap, if_neg hn]
      have hsettled := titled_settle (w := { w with machine := m }) hc.shaped hcache
        (hc.inStep_of_map hmap) (Machine.aligned_of_map hmap).1 (fun n hn => ⟨?_, ?_⟩) hmapped
      · exact h.titled hsettled
      · show (m.rightsAt n).isSome
        rw [Machine.rightsAt_map hmap, if_pos hn]
        rfl
      · show m.tenant n = _
        rw [Machine.tenant_map hmap, if_pos hn]
  | remove a l =>
    show Titled Nowhere (w.remove a l).2.store.get? (w.remove a l).2.machine
    rcases w.remove_cases a l with ⟨-, h⟩ | ⟨m, hunmap, -, h⟩
    · exact h.titled hw.titled
    · obtain ⟨ha, hlen⟩ := Machine.aligned_of_unmap hunmap
      have htenant := Machine.tenant_unmap w.machine a l
      rw [hunmap] at htenant
      obtain ⟨_, _, hclear, hin, hguard⟩ := inStep_vacated (w := { w with machine := m }) hc.shaped
        ha hlen (hc.inStep_of_unmap hunmap)
      rw [h, if_pos hcache]
      exact ((hw.titled.same htenant).clearing ha (ha.add_roundUp l) hclear).guarding hin hguard
  | reprotect a l ρ =>
    show Titled Nowhere (w.reprotect a l ρ).2.store.get? (w.reprotect a l ρ).2.machine
    rcases w.reprotect_cases a l ρ with ⟨-, h⟩ | ⟨m, hprotect, -, h⟩
    · exact h.titled hw.titled
    · rw [h]
      exact titled_note (w := { w with machine := m })
        (hw.titled.same (Machine.idle_protect hprotect).tenant)
  | relocate q => exact titled_relocate hw hcache hno
  | makeExecuteOnly s c => exact titled_makeExecuteOnly hw s c
  | releaseExecuteOnly a l => exact titled_releaseExecuteOnly hw.titled a l
  | teardown => exact Titled.of_no_records fun _ => rfl

/-- **One operation that strands no pages keeps records rightful.** -/
theorem rightful_perform (hw : w.Rightful) (hcache : w.config.useMappingCache = true)
    {op : Operation} (hno : ¬ w.Strands op) : (w.perform op).2.Rightful :=
  ⟨consistent_perform hw.consistent hcache hno, titled_perform hw hcache hno⟩

/-- Where nothing is tracked, nobody is wrong about anything. -/
theorem rightful_of_no_records (hs : w.store.Shaped) (hV : ∀ k, w.store.get? k = none) :
    w.Rightful :=
  ⟨⟨hs, InStep.of_no_records hV⟩, Titled.of_no_records hV⟩

/-- **A run that strands no pages is rightful throughout.** -/
theorem rightful_of_avoids (hempty : w.store = .empty) {ops : List Operation}
    (hno : w.Avoids Strands ops) : w.Throughout Rightful ops := by
  have hstart := rightful_of_no_records (shaped_of_empty hempty) (get?_of_empty hempty)
  cases hcache : w.config.useMappingCache with
  | true =>
    have hall : w.Throughout (fun v => v.Rightful ∧ v.config.useMappingCache = true) ops := by
      refine throughout_of_avoids (fun v op hv hop => ⟨rightful_perform hv.1 hv.2 hop, ?_⟩)
        ⟨hstart, hcache⟩ hno
      rw [config_perform]
      exact hv.2
    exact fun done hdone => (hall done hdone).1
  | false =>
    -- without tracking there are no records at any time
    exact fun done _ => rightful_of_no_records (shaped_run (shaped_of_empty hempty) done)
      (get?_run_of_not_cache hcache (get?_of_empty hempty) done)

end Warden

end PageWarden
