import PageWarden.Proofs.Bookkeeping
import PageWarden.Proofs.Key
import PageWarden.Proofs.Path.Operation
import PageWarden.Proofs.Run
/-!
# Keys — operations and runs

Every operation that abandons no page keeps tagged pages locked
(`secured_perform`), where nothing is scheduled to fail, and gives back
only keys that no page carries (`careful_of_secured`). So in a run that
abandons no page, what pages carry is in use until everything is given up
(`allocated_of_tagged`).
-/

namespace PageWarden

namespace Warden

variable {w : Warden} {X : Nat → Prop} {keep : Option Handle}

/-- Each page that carries the key of a record is covered by a record with
that key. -/
def Secured (w : Warden) : Prop := Locked Nowhere none w.store.get? w.machine

/-- **The move abandons a page**: it leaves a page that carries the key of
a record, and no record to lock it. -/
def Abandons (w : Warden) : Operation → Prop
  | .relocate q => ∃ moved m n κ, (w.lifted q.address).machine.move q = (.ok moved, m) ∧
      m.keyAt n = some κ ∧ View.Keys w.store.get? κ ∧
      ¬ View.Locks (q.New moved) (w.store.find? q.address) w.store.get? κ n
  | .create _ => False
  | .remove _ _ => False
  | .reprotect _ _ _ => False
  | .makeExecuteOnly _ _ => False
  | .releaseExecuteOnly _ _ => False
  | .teardown => False

/-- Where nothing is tracked there is nothing to lock. -/
theorem secured_of_no_records (hm : w.machine.Issued) (hV : ∀ k, w.store.get? k = none) :
    w.Secured := by
  have hkeys : ∀ {κ}, ¬ View.Keys w.store.get? κ := by
    rintro κ ⟨k, r, hr, -⟩
    rw [hV k] at hr
    cases hr
  exact ⟨hm, fun hκ => absurd hκ hkeys, fun _ hκ => absurd hκ hkeys⟩

/-! ## After the call of a request -/

/-- A fresh mapping carries no key. -/
theorem locked_of_map {q : MapRequest} {a : Nat} {m : Machine} (hw : w.Secured)
    (hmap : w.machine.map q = (.ok a, m)) :
    Locked (PageIn a (a + roundUp q.length pageSize)) none w.store.get? m := by
  refine hw.untag (Machine.calls_of_map hmap) fun htag => ?_
  obtain ⟨hout, hold⟩ := Machine.keyAt_of_map hmap htag
  exact ⟨hold, iff_of_false hout id⟩

/-- What is unmapped carries none. -/
theorem locked_of_unmap {a l : Nat} {m : Machine} (hw : w.Secured)
    (hunmap : w.machine.unmap a l = (.ok (), m)) :
    Locked (PageIn a (a + roundUp l pageSize)) none w.store.get? m := by
  refine hw.untag (Machine.calls_of_unmap hunmap) fun htag => ?_
  obtain ⟨hout, hold⟩ := Machine.keyAt_of_unmap hunmap htag
  exact ⟨hold, iff_of_false hout id⟩

/-- Lifting guards before a move leaves tagged pages locked. -/
theorem locked_lifted (hw : w.Secured) (address : Nat) : (w.lifted address).Secured :=
  hw.clearing aligned_zero aligned_zero (fun _ => of_pageIn_zero)
    (clearing_lifted w address 0 0 none)

/-- **A move that abandons no page** leaves tagged pages locked, those of
its new range by the record that goes there. -/
theorem locked_of_move {q : MoveRequest} {moved : Nat} {m : Machine} (hw : w.Secured)
    (hno : ¬ w.Abandons (.relocate q))
    (hmove : (w.lifted q.address).machine.move q = (.ok moved, m)) :
    Locked (q.New moved) (w.store.find? q.address) (w.lifted q.address).store.get? m := by
  have hcalls := Machine.calls_of_move hmove
  have hclaims := View.claims_of_bare? (bare?_lifted w q.address)
  refine (locked_lifted hw q.address).machine hcalls fun {n κ} htag hκ => ?_
  refine View.Locks.congr ?_ hclaims
  by_contra hlocks
  exact hno ⟨moved, m, n, κ, hmove, htag, hκ.congr hclaims.symm, hlocks⟩

/-! ## Follow-ups -/

/-- A difference in bytes is no matter. -/
theorem Alike.locked {v : Warden} (h : Alike v w) (hv : Locked X keep v.store.get? v.machine) :
    Locked X keep w.store.get? w.machine := by
  rw [h.store]
  refine hv.untag h.calls fun {n κ} htag => ⟨?_, Iff.rfl⟩
  rw [h.keyAt] at htag
  exact htag

/-- Following up a mapping leaves tagged pages locked. -/
theorem secured_settle {q : MapRequest} {a : Nat} (hs : w.store.Shaped)
    (hcache : w.config.useMappingCache = true) (ha : Aligned a)
    (hw : Locked (PageIn a (a + roundUp q.length pageSize)) none w.store.get? w.machine) :
    (w.settle q a).Secured := by
  have hstop := ha.add_roundUp q.length
  have hcarved := hw.clearing ha hstop (fun _ hn => hn) (clearing_carve hs hstop w.live_none)
  by_cases hanon : q.isAnonymous = true
  · have hentered := hcarved.enter (r := .fresh a q.length q.rights) (Store.get?_nextHandle _)
      fun hκ => nomatch hκ
    exact hentered.guarding (guarding_settle hcache hanon a)
  · rw [settle_of_file hcache hanon]
    exact hcarved.rest

/-- Noting a protection changes no claim. -/
theorem claims_note (w : Warden) (a l : Nat) (ρ : Rights) :
    View.claims (w.note a l ρ).store.get? = View.claims w.store.get? := by
  cases hfound : w.found a with
  | none => rw [note_of_not_found hfound]
  | some h =>
    obtain ⟨r, hr⟩ := exists_of_found hfound
    unfold note
    simp only [hfound]
    rw [(w.noteProtection_of_get? hr a l ρ).1]
    exact View.claims_update hr rfl

/-- Nor any tag. -/
theorem locked_note {a l : Nat} {ρ : Rights} (hw : Locked X keep w.store.get? w.machine) :
    Locked X keep (w.note a l ρ).store.get? (w.note a l ρ).machine := by
  have htold : w.machine.Path (fun _ _ => False) (w.note a l ρ).machine := path_note w a l ρ
  have htags : (w.note a l ρ).machine.keyAt = w.machine.keyAt :=
    htold.keeps (P := fun v => v.keyAt = w.machine.keyAt) rfl (fun _ _ hv => hv)
      fun _ _ hc => hc.elim
  refine (hw.congr (claims_note w a l ρ)).untag htold.calls fun {n κ} htag => ⟨?_, Iff.rfl⟩
  rw [htags] at htag
  exact htag

/-- **A move that abandons no page** keeps tagged pages locked. -/
theorem secured_relocate (hs : w.store.Shaped) (hcache : w.config.useMappingCache = true)
    (hw : w.Secured) {q : MoveRequest} (hno : ¬ w.Abandons (.relocate q)) :
    (w.relocate q).2.Secured := by
  rcases w.relocate_cases q hcache with ⟨e, m, hmove, -, h⟩ | ⟨moved, m, hmove, -, -⟩
  · have hfailed : Locked Nowhere none (w.lifted q.address).store.get? m :=
      (locked_lifted hw q.address).untag (Machine.calls_of_move hmove) fun htag =>
        ⟨Machine.keyAt_of_move_error hmove htag, Iff.rfl⟩
    rw [h]
    exact hfailed.guarding
      (guarding_restore { w.lifted q.address with machine := m } _ _ _)
  · obtain ⟨-, ha, -⟩ := Machine.aligned_of_move hmove
    obtain ⟨V, m', hclear, -, hstage⟩ := relocate_steps hs hcache hmove
    have hcleared := (locked_of_move hw hno hmove).clearing ha (ha.add_roundUp q.newLength)
      (fun _ hn => hn) hclear
    rcases hstage with ⟨hnone, hV, hm⟩ | ⟨h, f, hfind, -, hstays, hguard⟩
    · rw [hnone] at hcleared
      unfold Secured
      rw [hV, hm]
      exact hcleared.rest
    · rw [hfind] at hcleared
      have hhome := hcleared.rehome (s := { f.bare with base := moved, length := q.newLength })
        hstays rfl fun _ hn => hn
      exact hhome.guarding hguard

/-- The key of what is sealed was issued for it: its number is at least
that of the next key before. -/
theorem nextKey_le_of_sealed {size a κ : Nat} {code : List UInt8} {m m' : Machine}
    (hw : w.Secured) (hmap : w.machine.map (.ofLength size .readWrite) = (.ok a, m))
    (hseal : sealPages (m.copy a code) a size = (.ok (some κ), m')) :
    w.machine.space.nextKey ≤ κ := by
  have hcopied := (Machine.calls_of_map hmap).copy a code
  rw [key_of_sealPages hseal]
  exact (hcopied.issued hw.issued).2

/-- **Sealing leaves tagged pages locked**: what is sealed carries a key
that no record has yet. -/
theorem locked_of_sealed {size a : Nat} {code : List UInt8} {key : Option Nat} {m m' : Machine}
    (hw : w.Secured) (hmap : w.machine.map (.ofLength size .readWrite) = (.ok a, m))
    (hseal : sealPages (m.copy a code) a size = (.ok key, m')) :
    Locked Nowhere none w.store.get? (isolation m' key).2 := by
  have hcopied := (Machine.calls_of_map hmap).copy a code
  have hcalls := (hcopied.trans (calls_sealPages hseal)).trans (path_isolation m' key).calls
  refine hw.machine hcalls fun {n κ} htag hκ => ?_
  rw [keyAt_isolation, keyAt_sealed hmap hseal] at htag
  split at htag
  · subst htag
    exact absurd (hw.held hκ) (Nat.not_lt_of_le (nextKey_le_of_sealed hw hmap hseal))
  · exact hw.locks htag hκ

/-- **Execute-only memory is locked by its record**, and by no other. -/
theorem secured_makeExecuteOnly (hfaults : w.machine.faults = .never) (hw : w.Secured)
    (size : Nat) (code : List UInt8) : (w.makeExecuteOnly size code).2.Secured := by
  rcases w.makeExecuteOnly_stages size code with ⟨-, h⟩ | ⟨a, m, -, hmap, hstage⟩
  · exact h.locked hw
  · obtain ⟨key', m', hsealed⟩ := sealPages_of_reserved hfaults hmap code
    rcases hstage with ⟨f, m'', hseal, -, -⟩ | ⟨key, m', hseal, -, h⟩
    · rw [hsealed] at hseal
      cases hseal
    · have hready := locked_of_sealed hw hmap hseal
      have htags : ∀ n, (isolation m' key).2.keyAt n =
          if PageIn a (a + roundUp size pageSize) n then key else w.machine.keyAt n := by
        intro n
        rw [keyAt_isolation, keyAt_sealed hmap hseal]
      have hentered := hready.enter (h := w.store.nextHandle)
        (r := { Record.fresh a size .exec with executeOnly := some ⟨key, (isolation m' key).1⟩ })
        (Store.get?_nextHandle _) fun {κ} hκ => ?_
      · exact h.locked (hentered.guarding
          (guarding_enroll { w with machine := (isolation m' key).2 } _))
      · obtain rfl : key = some κ := hκ
        constructor
        · obtain ⟨ha, hlen⟩ := Machine.aligned_of_map hmap
          refine hready.issued.tagged (n := pageOf a) ?_
          rw [htags]
          exact if_pos (pageIn_first ha hlen)
        · -- pages outside of the new memory carry keys that were issued before
          intro n htag
          rw [htags] at htag
          split at htag
          · assumption
          · exact absurd (hw.issued.tagged htag)
              (Nat.not_lt_of_le (nextKey_le_of_sealed hw hmap hseal))

/-- Giving back a record's key takes no tag off. -/
theorem keyAt_releaseKey (w : Warden) (r : Record) :
    (w.releaseKey r).machine.keyAt = w.machine.keyAt := by
  unfold releaseKey
  split
  · rfl
  · split
    · rfl
    · exact Machine.keyAt_keyFree _ _

/-- **A record that leaves with its pages** locked nothing else. -/
theorem secured_releaseExecuteOnly (hs : w.store.Shaped) (hfaults : w.machine.faults = .never)
    (hw : w.Secured) (a l : Nat) : (w.releaseExecuteOnly a l).2.Secured := by
  rcases w.releaseExecuteOnly_stages a l with
    ⟨-, h⟩ | ⟨h, r, t, m, -, -, hremove, -, hm, hstage⟩
  · exact h.locked hw
  · have hr := (Store.remove_eq_some_iff.1 hremove).1
    obtain ⟨hbase, hlen⟩ := hs h r hr
    have hlift : Clearing 0 0 none w.store.get? w.machine _ _ := Clearing.refl.liftAll hr
    have hlifted := hw.clearing aligned_zero aligned_zero (fun _ => of_pageIn_zero) hlift
    have htold : w.machine.Calls m ∧
        Locked Nowhere none (Function.update w.store.get? h (some r.bare)) m := by
      rcases hm with rfl | ⟨e, -, rfl⟩
      · exact ⟨hlift.calls, hlifted⟩
      · exact ⟨hlift.calls.tell e, hlifted.untag (Machine.Calls.refl.tell e)
          fun htag => ⟨htag, Iff.rfl⟩⟩
    rcases hstage with ⟨errno, m', hunmap, -⟩ | ⟨m', hunmap, -, hv⟩
    · have hok := Machine.unmap_of_aligned
        (by rw [htold.1.faults hfaults]; rfl : m.faults .unmap = []) hbase hlen
      rw [hunmap] at hok
      cases hok
    · have hunmapped : Locked Nowhere none (Function.update w.store.get? h (some r.bare)) m' :=
        htold.2.untag (Machine.calls_of_unmap hunmap) fun htag =>
          ⟨(Machine.keyAt_of_unmap hunmap htag).2, Iff.rfl⟩
      have hleft := hunmapped.leave (Function.update_self h _ _) fun n hn => by
        rw [Machine.keyAt_unmap hunmap]
        exact if_pos hn
      rw [Function.update_idem, ← Store.get?_remove_eq_update hremove] at hleft
      rw [hv]
      unfold Secured
      rw [store_releaseKey]
      refine hleft.untag (upkeep_releaseKey { w with store := t, machine := m' } r).calls
        fun {n κ} htag => ⟨?_, Iff.rfl⟩
      rw [keyAt_releaseKey] at htag
      exact htag

/-! ## Every operation -/

/-- **Every operation that abandons no page keeps tagged pages locked**,
where nothing is scheduled to fail. -/
theorem secured_perform (hs : w.store.Shaped) (hcache : w.config.useMappingCache = true)
    (hfaults : w.machine.faults = .never) (hw : w.Secured) {op : Operation}
    (hno : ¬ w.Abandons op) : (w.perform op).2.Secured := by
  cases op with
  | create q =>
    show (w.create q).2.Secured
    rcases w.create_cases q with ⟨-, h⟩ | ⟨a, m, hmap, -, h⟩
    · exact h.locked hw
    · exact h.locked (secured_settle (w := { w with machine := m }) hs hcache
        (Machine.aligned_of_map hmap).1 (locked_of_map (w := w) hw hmap))
  | remove a l =>
    show (w.remove a l).2.Secured
    rcases w.remove_cases a l with ⟨-, h⟩ | ⟨m, hunmap, -, h⟩
    · exact h.locked hw
    · obtain ⟨ha, hlen⟩ := Machine.aligned_of_unmap hunmap
      obtain ⟨V, m', hclear, -, hguard⟩ := vacate_steps (w := { w with machine := m }) hs ha hlen
      have hcleared := (locked_of_unmap hw hunmap).clearing ha (ha.add_roundUp l)
        (fun _ hn => hn) hclear
      rw [h, if_pos hcache]
      exact hcleared.rest.guarding hguard
  | reprotect a l ρ =>
    show (w.reprotect a l ρ).2.Secured
    rcases w.reprotect_cases a l ρ with ⟨-, h⟩ | ⟨m, hprotect, -, h⟩
    · exact h.locked hw
    · have hidle := Machine.idle_protect hprotect
      rw [h]
      refine locked_note (w := { w with machine := m }) ?_
      refine hw.untag hidle.calls fun {n κ} htag => ⟨?_, Iff.rfl⟩
      rw [Machine.keyAt_protect hprotect] at htag
      exact htag
  | relocate q => exact secured_relocate hs hcache hw hno
  | makeExecuteOnly s c => exact secured_makeExecuteOnly hfaults hw s c
  | releaseExecuteOnly a l => exact secured_releaseExecuteOnly hs hfaults hw a l
  | teardown =>
    exact secured_of_no_records ((calls_perform w .teardown).issued hw.issued).1 fun _ => rfl

/-! ## Which keys an operation gives back -/

/-- **The operation is careful**: it gives back no key that a page carries
at that moment. -/
def Careful (w : Warden) (op : Operation) : Prop :=
  w.machine.Path FreesUnused (w.perform op).2.machine

/-- Only keys are given back. -/
theorem lenient_freesUnused : Machine.Lenient FreesUnused := by
  constructor
  · rintro v c hc κ n rfl
    exact hc.elim
  · rintro v a κ n heq
    cases heq

/-- A move is careful. -/
theorem careful_relocate (hs : w.store.Shaped) (hw : w.Secured) {q : MoveRequest}
    (hno : ¬ w.Abandons (.relocate q)) :
    w.machine.Path FreesUnused (w.relocate q).2.machine := by
  by_cases hcache : w.config.useMappingCache = true
  · refine path_relocate lenient_freesUnused hs hcache ?_ (fun _ _ _ _ heq => nomatch heq)
      fun {moved m V m'} hmove _ hclear => ?_
    · exact (clearing_lifted w q.address 0 0 none).freesUnused hw aligned_zero aligned_zero
        fun _ => of_pageIn_zero
    · have ha := (Machine.aligned_of_move hmove).2.1
      exact hclear.freesUnused (locked_of_move hw hno hmove) ha (ha.add_roundUp _) fun _ hn => hn
  · exact path_relocate_of_not_cache (Bool.eq_false_iff.2 hcache) fun _ _ _ _ heq => nomatch heq

/-- So is the release of execute-only memory: pages that carry the key lie
in its range, which is gone by then. -/
theorem careful_releaseExecuteOnly (hw : w.Secured) (a l : Nat) :
    w.machine.Path FreesUnused (w.releaseExecuteOnly a l).2.machine := by
  have hlift : ∀ {h r}, w.store.get? h = some r → Clearing 0 0 none w.store.get? w.machine _
      (Guard.removeAll w.machine r).2 := fun hr => Clearing.refl.liftAll hr
  refine path_releaseExecuteOnly lenient_freesUnused (fun {h r} _ hr _ => ?_)
    (fun _ _ _ _ _ _ heq => nomatch heq)
    fun {h r t κ m m'} _ hremove hspace hunmap hκ hno κ' n heq htag => ?_
  · exact (hlift hr).freesUnused hw aligned_zero aligned_zero fun _ => of_pageIn_zero
  · cases heq
    have hr := (Store.remove_eq_some_iff.1 hremove).1
    obtain ⟨hout, hbefore⟩ := Machine.keyAt_of_unmap hunmap htag
    rw [Machine.keyAt_congr (congrFun (Machine.pageAt_of_space hspace.symm) n)] at hbefore
    obtain ⟨k, s, hs, hkey, ⟨hX, -⟩ | ⟨-, -, hn⟩⟩ :=
      hw.locks ((hlift hr).keyAt hbefore) ⟨h, r, hr, hκ⟩
    · exact hX
    · refine hno ⟨k, s, ?_, hkey⟩
      rw [Store.get?_remove_eq_update hremove, Function.update_of_ne, hs]
      rintro rfl
      obtain rfl : s = r := Option.some.inj (hs.symm.trans hr)
      exact hout hn

/-- **An operation is careful**, where tagged pages are locked, unless it
abandons a page or gives up everything. -/
theorem careful_of_secured (hs : w.store.Shaped) (hfaults : w.machine.faults = .never)
    (hw : w.Secured) {op : Operation} (hno : ¬ w.Abandons op) (hop : op ≠ .teardown) :
    w.Careful op := by
  cases op with
  | create q =>
    refine path_create lenient_freesUnused hs (fun _ _ _ _ heq => nomatch heq)
      fun {a m V m'} _ hmap _ hclear => ?_
    have ha := (Machine.aligned_of_map hmap).1
    exact hclear.freesUnused (locked_of_map hw hmap) ha (ha.add_roundUp _) fun _ hn => hn
  | remove a l =>
    refine path_remove lenient_freesUnused hs (fun _ _ _ heq => nomatch heq)
      fun {m V m'} _ hunmap hclear => ?_
    have ha := (Machine.aligned_of_unmap hunmap).1
    exact hclear.freesUnused (locked_of_unmap hw hunmap) ha (ha.add_roundUp _) fun _ hn => hn
  | reprotect a l ρ => exact (path_reprotect w a l ρ).ofIdle lenient_freesUnused
  | relocate q => exact careful_relocate hs hw hno
  | makeExecuteOnly s c =>
    exact path_makeExecuteOnly lenient_freesUnused (fun _ _ _ heq => nomatch heq)
      fun hmap => sealPages_of_reserved hfaults hmap c
  | releaseExecuteOnly a l => exact careful_releaseExecuteOnly hw a l
  | teardown => exact absurd rfl hop

/-! ## Runs -/

/-- Before anything is mapped the next key is a new one. -/
theorem issued_of_empty {m : Machine} (hspace : m.space.table = .empty)
    (hkeys : m.space.keys = []) : m.Issued := by
  constructor
  · rintro κ ⟨ρ, hρ⟩
    rw [hkeys] at hρ
    cases hρ
  · intro n κ hκ
    rw [Machine.keyAt, Machine.pageAt, hspace] at hκ
    cases hκ

/-- **A run that abandons no page** keeps tagged pages locked throughout. -/
theorem secured_of_avoids (hempty : w.store = .empty) (hissued : w.machine.Issued)
    (hfaults : w.machine.faults = .never) {ops : List Operation} (hno : w.Avoids Abandons ops) :
    w.Throughout Secured ops := by
  cases hcache : w.config.useMappingCache with
  | true =>
    have hall : w.Throughout (fun v => v.Secured ∧ v.store.Shaped ∧
        v.config.useMappingCache = true ∧ v.machine.faults = .never) ops := by
      refine throughout_of_avoids (fun v op hv hop => ?_)
        ⟨secured_of_no_records hissued (get?_of_empty hempty), shaped_of_empty hempty, hcache,
          hfaults⟩ hno
      obtain ⟨hsecured, hs, hcache, hfaults⟩ := hv
      refine ⟨secured_perform hs hcache hfaults hsecured hop, shaped_perform hs op, ?_,
        (calls_perform v op).faults hfaults⟩
      rw [config_perform]
      exact hcache
    exact fun done hdone => (hall done hdone).1
  | false =>
    -- without tracking there are no records at any time
    intro done _
    refine secured_of_no_records ?_ (get?_run_of_not_cache hcache (get?_of_empty hempty) done)
    exact run_keeps (P := fun v => v.machine.Issued)
      (fun v op hv => ((calls_perform v op).issued hv).1) hissued done

/-- **No key is given back while a page carries it.** Over every run that
begins with no record, no mapped page and no key in use, where nothing is
scheduled to fail and no move abandons a page: what an operation gives
back, short of giving up everything, no page carries at that moment. -/
theorem keys_given_back_unused (hempty : w.store = .empty)
    (hspace : w.machine.space.table = .empty) (hkeys : w.machine.space.keys = [])
    (hfaults : w.machine.faults = .never) {ops : List Operation} (hno : w.Avoids Abandons ops)
    {done : List Operation} {op : Operation} (hdone : done ++ [op] <+: ops)
    (hop : op ≠ .teardown) : (w.run done).Careful op := by
  have hsecured := secured_of_avoids hempty (issued_of_empty hspace hkeys) hfaults hno
  exact careful_of_secured (shaped_run (shaped_of_empty hempty) done) (faults_run hfaults done)
    (hsecured.before hdone) (hno done op hdone) hop

/-- Execute-only memory of which a part is moved. The record goes with the
part, and its release gives back the key that the rest still carries. Where
the part is removed instead, the key goes with the rest. -/
theorem key_given_back_under_a_page :
    ¬ (Warden.run { config := { useMappingCache := true }, machine := { space := .emptyWithKeys } }
        [.makeExecuteOnly 8192 [0xc3],
          .relocate ⟨0x7effffffe000, 4096, 4096, ⟨3⟩, 0x1000000000⟩]).Careful
      (.releaseExecuteOnly 0x1000000000 4096) ∧
    (Warden.run { config := { useMappingCache := true }, machine := { space := .emptyWithKeys } }
        [.create ⟨0, 4096, .readWrite, .privateAnonymous, -1, 0⟩,
          .relocate ⟨0x7efffffff000, 4096, 4096, ⟨3⟩, 0x1000000000⟩,
          .makeExecuteOnly 8192 [0xc3], .remove 0x7effffffe000 4096]).Careful
      (.releaseExecuteOnly 0x7efffffff000 4096) := by
  constructor
  · intro hcareful
    have hused := hcareful.allocated (n := pageOf 0x7efffffff000) (κ := 1) ?_ ?_
    · obtain ⟨ρ, hρ⟩ := hused
      cases hρ
    · exact fun _ _ => ⟨.disableAccess, List.mem_singleton.2 rfl⟩
    · rfl
  · refine keys_given_back_unused rfl rfl rfl rfl ?_ (List.prefix_refl _) (by decide)
    refine avoids_cons.2 ⟨id, avoids_cons.2 ⟨?_, avoids_cons.2 ⟨id, avoids_cons.2 ⟨id,
      avoids_cons.2 ⟨id, avoids_nil⟩⟩⟩⟩⟩
    rintro ⟨moved, m, n, κ, -, -, ⟨k, r, hr, hκ⟩, -⟩
    have hmem := Store.mem_entries_iff.2 hr
    obtain ⟨-, rfl⟩ := Prod.mk.inj (List.mem_singleton.1 hmem)
    cases hκ

/-- **What pages carry is in use**, in every run that abandons no page and
does not give up everything. -/
theorem allocated_of_tagged (hempty : w.store = .empty)
    (hspace : w.machine.space.table = .empty) (hkeys : w.machine.space.keys = [])
    (hfaults : w.machine.faults = .never) {ops : List Operation} (hno : w.Avoids Abandons ops)
    (hkeep : .teardown ∉ ops) {n κ : Nat} (hn : (w.run ops).machine.keyAt n = some κ) :
    (w.run ops).machine.space.Allocated κ := by
  have hsecured := secured_of_avoids hempty (issued_of_empty hspace hkeys) hfaults hno
  have hall : w.Throughout (fun v => ∀ k, v.machine.keyAt k = some κ →
      v.machine.space.Allocated κ) ops := by
    refine throughout_of_steps (fun k hk => ?_) fun done op hdone hv k hk => ?_
    · rw [Machine.keyAt, Machine.pageAt, hspace] at hk
      cases hk
    · have hop : op ≠ .teardown := by
        rintro rfl
        exact hkeep (hdone.subset (List.mem_append_right done List.mem_cons_self))
      have hcareful := careful_of_secured (shaped_run (shaped_of_empty hempty) done)
        (faults_run hfaults done) (hsecured.before hdone) (hno done op hdone) hop
      exact hcareful.allocated hv hk
  exact hall ops (List.prefix_refl ops) n hn

end Warden

end PageWarden
