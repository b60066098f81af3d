import PageWarden.Proofs.Balance
import PageWarden.Proofs.Chart
import PageWarden.Proofs.Shard
/-!
# Confluence — a record released in pieces is released

A record may be released in one call or in many, in any order, the pieces
of any size and overlapping. The states in between differ in the number of
shards, in their guards, and in who shares a key with whom. But once every
page has been released nothing is left of the record, and the end is the
same: its pages and guards are unmapped, whatever else is mapped is what
it was, the other records are what they were (`run_removals`), and of the
keys those are gone that only this record held.

The last of these is said for any stretch of releases: from one state to
another keys are given back with their last holders (`GivesBack`), so
which keys are left is decided by the records that are.
-/

namespace PageWarden

variable {V₀ V : View} {m₀ m : Machine} {h k : Handle} {r s : Record}

/-! ## Nothing is left of a record -/

namespace Shards

/-- **Once no page of the record is covered there is no shard**, and the
other records remain. -/
theorem view_of_spent (hS : Shards V₀ m₀ h r V m)
    (hspent : ∀ k s n, V k = some s → s.Covers n → ¬ r.Covers n) :
    V = Function.update V₀ h none := by
  -- a shard would cover its first page, which is one of the record's
  have hnone : ∀ {k s}, V k = some s → ¬ s.ShardOf r := fun hk hs =>
    hspent _ _ _ hk (Store.covers_first hs.shaped) (hs.covers (Store.covers_first hs.shaped))
  funext k
  rw [Function.update_apply]
  cases hk : V k with
  | none =>
    split
    · rfl
    · rename_i hne
      cases hold : V₀ k with
      | none => rfl
      | some s => exact hk.symm.trans (hS.rest hne hold)
  | some s =>
    obtain ⟨hne, hold⟩ := (hS.origin hk).resolve_right (hnone hk)
    rw [if_neg hne, hold]

/-- **Its pages and guards are unmapped then.** -/
theorem pageAt_of_spent (hS : Shards V₀ m₀ h r V m) (hV : V₀.Whole h r)
    (hview : V = Function.update V₀ h none) {n : Nat} (hn : r.Owns n) : m.pageAt n = none := by
  rw [← Option.not_isSome_iff_eq_none]
  intro hmapped
  obtain ⟨k, s, p, hs, hp⟩ := hS.held hn hmapped
  rw [hview, Function.update_apply] at hs
  split at hs
  · cases hs
  · rename_i hne
    exact hV.apart hne hs ⟨p, hp⟩ hn

end Shards

/-! ## Keys go with their last holders -/

/-- Giving a key back takes it out of the keys in use, where there are calls
for keys. -/
theorem Machine.keys_keyFree (m : Machine) (κ : Nat) :
    (m.keyFree κ).space.keys =
      m.space.keys.filter fun e => decide (m.platform.hasKeyCalls = true → e.1 ≠ κ) := by
  unfold Machine.keyFree
  split
  · rename_i hcalls
    simp only [hcalls, Space.keyFree, forall_const]
  · rename_i hcalls
    rw [List.filter_eq_self.2 fun _ _ => decide_eq_true fun hon => absurd hon hcalls]

namespace Warden

variable {w v u : Warden} {start stop : Nat}

/-- **From `w` to `v` keys are given back with their last holders**: of the
keys in use those are gone that records held then and hold no more. -/
structure GivesBack (w v : Warden) : Prop where
  platform : v.machine.platform = w.machine.platform
  held : ∀ {κ}, View.Keys v.store.get? κ → View.Keys w.store.get? κ
  keys : ∃ stays : Nat → Bool,
    (∀ κ, stays κ = true ↔ (w.machine.platform.hasKeyCalls = true →
      View.Keys w.store.get? κ → View.Keys v.store.get? κ)) ∧
    v.machine.space.keys = w.machine.space.keys.filter fun e => stays e.1

namespace GivesBack

/-- Where nothing was done with keys and the same are held, none is gone. -/
theorem of_sameKeys (hm : w.machine.SameKeys v.machine)
    (hkeys : ∀ κ, View.Keys w.store.get? κ ↔ View.Keys v.store.get? κ) : GivesBack w v := by
  refine ⟨hm.calls.platform, (hkeys _).2, fun _ => true, fun κ => ?_, ?_⟩
  · exact ⟨fun _ _ hκ => (hkeys κ).1 hκ, fun _ => rfl⟩
  · rw [List.filter_eq_self.2 fun _ _ => rfl]
    exact congrArg Prod.snd hm.register

/-- One stretch after another. -/
theorem trans (hwv : GivesBack w v) (hvu : GivesBack v u) : GivesBack w u := by
  obtain ⟨stays, hstays, hkeys⟩ := hwv.keys
  obtain ⟨stays', hstays', hkeys'⟩ := hvu.keys
  refine ⟨hvu.platform.trans hwv.platform, fun hκ => hwv.held (hvu.held hκ),
    fun κ => stays' κ && stays κ, fun κ => ?_, ?_⟩
  · -- a key held at the end was held in between, and one held in between was held at first
    rw [Bool.and_eq_true, hstays, hstays', hwv.platform]
    constructor
    · exact fun ⟨hlast, hfirst⟩ hcalls hκ => hlast hcalls (hfirst hcalls hκ)
    · exact fun hall => ⟨fun hcalls hκ => hall hcalls (hwv.held hκ),
        fun hcalls hκ => hvu.held (hall hcalls hκ)⟩
  · rw [hkeys', hkeys, List.filter_filter]

/-- **Which keys are left is decided by the records that are.** -/
theorem keys_eq (hv : GivesBack w v) (hu : GivesBack w u) (hsame : v.store.get? = u.store.get?) :
    v.machine.space.keys = u.machine.space.keys := by
  obtain ⟨stays, hstays, hkeys⟩ := hv.keys
  obtain ⟨stays', hstays', hkeys'⟩ := hu.keys
  rw [hkeys, hkeys']
  refine List.filter_congr fun e _ => Bool.eq_iff_iff.2 ?_
  rw [hstays, hstays', hsame]

end GivesBack

/-- **A record that leaves gives its key back**, unless another one holds it. -/
theorem givesBack_releaseKey (hm : w.machine.SameKeys v.machine)
    (hleave : ∀ κ, View.Keys w.store.get? κ ↔ View.Keys v.store.get? κ ∨ r.key = some κ) :
    GivesBack w (v.releaseKey r) := by
  have hquiet : (∀ κ, r.key = some κ → View.Keys v.store.get? κ) → ∀ κ,
      View.Keys w.store.get? κ ↔ View.Keys v.store.get? κ :=
    fun hshared κ => (hleave κ).trans (or_iff_left_of_imp (hshared κ))
  unfold releaseKey
  cases hkey : r.key with
  | none => exact .of_sameKeys hm (hquiet fun κ hκ => nomatch hkey.symm.trans hκ)
  | some κ =>
    simp only
    split
    · rename_i hshared
      rw [any_key_iff] at hshared
      refine .of_sameKeys (hm.trans (Machine.sameKeys_tell _ _)) (hquiet fun κ' hκ' => ?_)
      obtain rfl : κ = κ' := Option.some.inj (hkey.symm.trans hκ')
      exact hshared
    · rename_i hno
      rw [any_key_iff] at hno
      have hkeys : v.machine.space.keys = w.machine.space.keys := congrArg Prod.snd hm.register
      refine ⟨(Machine.Calls.refl.keyFree κ).platform.trans hm.calls.platform,
        fun hκ => (hleave _).2 (Or.inl hκ),
        fun κ' => decide (v.machine.platform.hasKeyCalls = true → κ' ≠ κ), fun κ' => ?_, ?_⟩
      · -- nobody holds the key any more, and of any other the record was no holder
        rw [decide_eq_true_eq, hm.calls.platform]
        refine imp_congr_right fun _ => ⟨fun hne hκ' => ?_, fun hstays heq => ?_⟩
        · refine ((hleave κ').1 hκ').resolve_right fun hlast => hne ?_
          exact Option.some.inj (hlast.symm.trans hkey)
        · rw [heq] at hstays
          exact hno (hstays ((hleave κ).2 (Or.inr hkey)))
      · exact (Machine.keys_keyFree v.machine κ).trans (by rw [hkeys])

/-- So does one that is dropped. -/
theorem givesBack_dropRecord (hr : w.store.get? h = some r) (hs : s.key = r.key) :
    GivesBack w (w.dropRecord h s) := by
  obtain ⟨t, ht⟩ := Store.exists_remove_of_get? hr
  unfold dropRecord
  simp only [ht]
  have hleft : GivesBack w (Warden.releaseKey { w with
      store := t, machine := (Guard.removeAll w.machine s).2 } (Guard.removeAll w.machine s).1) := by
    refine givesBack_releaseKey (path_removeAll _ _).sameKeys fun κ => ?_
    rw [View.keys_leave_iff hr, Store.get?_remove_eq_update ht, Guard.removeAll_fst]
    exact or_congr_right (by rw [← hs]; rfl)
  exact hleft.trans (.of_sameKeys (Machine.sameKeys_tell _ _) fun _ => Iff.rfl)

/-- **A cut gives back the key of a record that it drops**, and no other. -/
theorem givesBack_cut (w : Warden) (h : Handle) (start stop : Nat) (guarded : Bool) :
    GivesBack w (w.cut h start stop guarded) := by
  cases hr : w.store.get? h with
  | none =>
    unfold cut
    rw [hr]
    exact .of_sameKeys .refl fun _ => Iff.rfl
  | some found =>
    rcases cut_keys_cases hr guarded with ⟨-, -, hdrop⟩ | ⟨-, hquiet, hkeys⟩
    · rw [hdrop]
      exact givesBack_dropRecord hr rfl
    · exact .of_sameKeys hquiet.sameKeys fun κ => (hkeys κ).symm

/-- So does a carve. -/
theorem givesBack_carve (w : Warden) (start stop : Nat) (keep : Option Handle) :
    GivesBack w (w.carve start stop keep) := by
  refine carve_induction (motive := fun _ v => GivesBack w v) ?_ ?_
  · exact .of_sameKeys .refl fun κ => (View.keys_congr (bare?_forgetGuards w start stop)).symm
  · intro v k f _ hv _ _ _
    have htold : GivesBack v (v.tell (.changedBehind f.base f.length)) :=
      .of_sameKeys (Machine.sameKeys_tell _ _) fun _ => Iff.rfl
    exact (hv.trans htold).trans (givesBack_cut _ k start stop false)

/-- **So does a release.** -/
theorem givesBack_remove (w : Warden) (a l : Nat) : GivesBack w (w.remove a l).2 := by
  have hunmapped : GivesBack w { w with machine := (w.machine.unmap a l).2 } :=
    .of_sameKeys (Machine.sameKeys_act (c := .unmap a l) trivial _) fun _ => Iff.rfl
  rw [remove_eq]
  rcases hunmap : w.machine.unmap a l with ⟨errno | ⟨⟩, m⟩
  · rw [hunmap] at hunmapped
    exact hunmapped
  · rw [hunmap] at hunmapped
    simp only
    split
    · refine hunmapped.trans ?_
      unfold vacate
      simp only
      split
      · exact givesBack_carve _ _ _ _
      · exact (givesBack_carve _ _ _ _).trans (givesBack_cut _ _ _ _ _)
    · exact hunmapped

/-! ## Runs of releases -/

/-- The operations that release the pieces one after another. -/
def removals (pieces : List (Nat × Nat)) : List Operation :=
  pieces.map fun piece => .remove piece.1 piece.2

/-- A run of releases gives keys back with their last holders. -/
theorem givesBack_run (w : Warden) (pieces : List (Nat × Nat)) :
    GivesBack w (w.run (removals pieces)) := by
  induction pieces generalizing w with
  | nil => exact .of_sameKeys .refl fun _ => Iff.rfl
  | cons piece rest ih => exact (givesBack_remove w piece.1 piece.2).trans (ih _)

/-- A release takes its whole pages off the chart, if no unmapping is
scheduled to fail. -/
theorem charts_remove {a l n : Nat} {x : Marking} (hcache : w.config.useMappingCache = true)
    (hs : w.store.Shaped) (hm : w.machine.faults .unmap = []) (ha : Aligned a) :
    (w.remove a l).2.store.Charts none n x ↔
      w.store.Charts none n x ∧ ¬ PageIn a (a + roundUp l pageSize) n := by
  rcases Nat.eq_zero_or_pos l with rfl | hlen
  · -- an empty release fails, and has no pages
    have hnone : ¬ PageIn a (a + roundUp 0 pageSize) n := fun hn => by
      simp only [PageIn, roundUp, pageSize] at hn
      omega
    rcases w.remove_cases a 0 with ⟨-, hsame⟩ | ⟨m, hunmap, -⟩
    · rw [hsame.store]
      exact ⟨fun hx => ⟨hx, hnone⟩, fun hx => hx.1⟩
    · exact absurd (Machine.aligned_of_unmap hunmap).2 (Nat.lt_irrefl 0)
  · have hok := Machine.unmap_of_aligned hm ha hlen
    rcases w.remove_cases a l with ⟨⟨f, hf⟩, -⟩ | ⟨m, -, -, hv⟩
    · rw [remove_eq] at hf
      rcases hunmap : w.machine.unmap a l with ⟨errno | ⟨⟩, m⟩
      · rw [hunmap] at hok
        cases hok
      · rw [hunmap] at hf
        cases hf
    · rw [hv, if_pos hcache]
      exact charts_vacate (w := { w with machine := m }) hs ha hlen

/-- **What a run of releases leaves on the chart** lies in none of the
pieces. -/
theorem charts_run {pieces : List (Nat × Nat)} {n : Nat} {x : Marking}
    (hcache : w.config.useMappingCache = true) (hs : w.store.Shaped)
    (hm : w.machine.faults .unmap = []) (ha : ∀ piece ∈ pieces, Aligned piece.1)
    (hx : (w.run (removals pieces)).store.Charts none n x) :
    ∀ piece ∈ pieces, ¬ PageIn piece.1 (piece.1 + roundUp piece.2 pageSize) n := by
  -- what is charted after the rest of the run was charted after the first release
  have hall : w.store.Charts none n x ∧
      ∀ piece ∈ pieces, ¬ PageIn piece.1 (piece.1 + roundUp piece.2 pageSize) n := by
    induction pieces generalizing w with
    | nil => exact ⟨hx, List.forall_mem_nil _⟩
    | cons piece rest ih =>
      obtain ⟨hfirst, hrest⟩ := List.forall_mem_cons.1 ha
      have hstep := calls_perform w (.remove piece.1 piece.2)
      obtain ⟨hleft, hout⟩ := ih ((config_perform w (.remove piece.1 piece.2)).symm ▸ hcache)
        (shaped_perform hs (.remove piece.1 piece.2)) (hstep.unscheduled hm) hrest hx
      obtain ⟨hbefore, hin⟩ := (charts_remove hcache hs hm hfirst).1 hleft
      exact ⟨hbefore, List.forall_mem_cons.2 ⟨hin, hout⟩⟩
  exact hall.2

/-- **A run of releases of its pages leaves shards of a record.** -/
theorem shards_run {pieces : List (Nat × Nat)} (hcache : w.config.useMappingCache = true)
    (hV : V₀.Whole h r) (hs : w.store.Shaped)
    (hrange : ∀ piece ∈ pieces, ∀ n,
      PageIn piece.1 (piece.1 + roundUp piece.2 pageSize) n → r.Owns n)
    (hS : Shards V₀ m₀ h r w.store.get? w.machine) :
    Shards V₀ m₀ h r (w.run (removals pieces)).store.get? (w.run (removals pieces)).machine := by
  induction pieces generalizing w with
  | nil => exact hS
  | cons piece rest ih =>
    obtain ⟨hfirst, hrest⟩ := List.forall_mem_cons.1 hrange
    exact ih ((config_perform w (.remove piece.1 piece.2)).symm ▸ hcache)
      (shaped_perform hs (.remove piece.1 piece.2)) hrest
      (shards_remove hcache hV hs hfirst hS)

/-- The pieces lie in the whole pages of a record, and cover them. -/
structure Fragments (pieces : List (Nat × Nat)) (r : Record) : Prop where
  inside : ∀ piece ∈ pieces, Aligned piece.1 ∧ r.base ≤ piece.1 ∧
    piece.1 + roundUp piece.2 pageSize ≤ r.stop pageSize
  cover : ∀ n, r.Covers n → ∃ piece ∈ pieces,
    PageIn piece.1 (piece.1 + roundUp piece.2 pageSize) n

/-- **Once all pieces of a record are released nothing is left of it**: its
handle finds nothing, its pages and guards are unmapped, and all else is
what it was. -/
theorem run_removals {pieces : List (Nat × Nat)} (hcache : w.config.useMappingCache = true)
    (hs : w.store.Shaped) (hm : w.machine.faults .unmap = [])
    (hV : View.Whole w.store.get? h r) (hpieces : Fragments pieces r) :
    (w.run (removals pieces)).store.get? = Function.update w.store.get? h none ∧
      ∀ n, (r.Owns n → (w.run (removals pieces)).machine.pageAt n = none) ∧
        (¬ r.Owns n → (w.run (removals pieces)).machine.pageAt n = w.machine.pageAt n) := by
  have hrange : ∀ piece ∈ pieces, ∀ n,
      PageIn piece.1 (piece.1 + roundUp piece.2 pageSize) n → r.Owns n := by
    intro piece hpiece n hn
    obtain ⟨-, hlow, hhigh⟩ := hpieces.inside piece hpiece
    exact ⟨.body, Nat.le_trans hlow hn.1, Nat.lt_of_lt_of_le hn.2 hhigh⟩
  have hS := shards_run hcache hV hs hrange (Shards.refl hV hm)
  have hview := hS.view_of_spent fun k s n hk hn hr => by
    obtain ⟨piece, hpiece, hin⟩ := hpieces.cover n hr
    exact charts_run hcache hs hm (fun piece hmem => (hpieces.inside piece hmem).1)
      ⟨k, s, Option.some_ne_none k, hk, hn, rfl⟩ piece hpiece hin
  exact ⟨hview, fun n => ⟨fun hn => hS.pageAt_of_spent hV hview hn, fun hn => hS.frame hn⟩⟩

/-- Where records and memory are in step each record is whole, if guards
lie on the flanks. -/
theorem Consistent.whole (hw : w.Consistent) (hflank : View.Flanked w.store.get?)
    (hr : w.store.get? h = some r) : View.Whole w.store.get? h r where
  found := hr
  flanked := hflank
  apart := fun hne hs ⟨_, hp⟩ ⟨_, hq⟩ => hne (hw.inStep.sole hs hr hp hq).1

/-- A record in one piece. -/
theorem fragments_self (hr : Aligned r.base) : Fragments [(r.base, r.length)] r where
  inside := by
    intro piece hpiece
    obtain rfl := List.mem_singleton.1 hpiece
    exact ⟨hr, Nat.le_refl _, Nat.le_refl _⟩
  cover := fun _ hn => ⟨_, List.mem_singleton.2 rfl, hn⟩

/-- **To release a record in pieces is to release it.** Take records that
start on pages and are not empty, all of whose pages and guards are mapped
and each held by one record and in one way, the guards on the flanks. If a
record is released piece by piece, whatever the order and the sizes of the
pieces, whether or not they overlap and whether or not guards are placed
in between, then what is mapped in the end, what each handle finds, how
many records there are and which keys are in use is what it is after one
release of the whole record. -/
theorem released_in_pieces (hcache : w.config.useMappingCache = true) (hw : w.Consistent)
    (hflank : View.Flanked w.store.get?) (hm : w.machine.faults .unmap = [])
    (hr : w.store.get? h = some r) {pieces : List (Nat × Nat)} (hpieces : Fragments pieces r) :
    (w.run (removals pieces)).machine.space.table =
        (w.remove r.base r.length).2.machine.space.table ∧
      (w.run (removals pieces)).store.get? = (w.remove r.base r.length).2.store.get? ∧
      (w.run (removals pieces)).tracked = (w.remove r.base r.length).2.tracked ∧
      (w.run (removals pieces)).machine.space.keys =
        (w.remove r.base r.length).2.machine.space.keys := by
  have hV := hw.whole hflank hr
  -- the release of the whole is a run of one release
  have hwhole : w.run (removals [(r.base, r.length)]) = (w.remove r.base r.length).2 := rfl
  obtain ⟨hview, hpage⟩ := run_removals hcache hw.shaped hm hV hpieces
  obtain ⟨hview', hpage'⟩ :=
    run_removals hcache hw.shaped hm hV (fragments_self (hw.shaped h r hr).1)
  rw [hwhole] at hview' hpage'
  have hsame := hview.trans hview'.symm
  refine ⟨PageTable.ext_get? fun n => ?_, hsame, Store.size_congr hsame,
    (givesBack_run w pieces).keys_eq (givesBack_remove w r.base r.length) hsame⟩
  by_cases hn : r.Owns n
  · exact ((hpage n).1 hn).trans ((hpage' n).1 hn).symm
  · exact ((hpage n).2 hn).trans ((hpage' n).2 hn).symm

/-- The code between its neighbours, released page by page: first the
middle one, which leaves two shards with one key, then the last, then the
first two, one of them for the second time. The key goes with the last of
the shards, and the guard below with it. -/
theorem code_released_in_pieces :
    let pieced := neighbours.run
      (removals [(0x7effffffa000, 100), (0x7effffffb000, 4096), (0x7effffff9000, 8192)])
    let whole := (neighbours.remove 0x7effffff9000 9000).2
    (pieced.machine.space.table = whole.machine.space.table ∧
      pieced.store.get? = whole.store.get? ∧ pieced.tracked = whole.tracked ∧
      pieced.machine.space.keys = whole.machine.space.keys) ∧
    neighbours.machine.space.keys = [(1, .disableAccess)] ∧ whole.machine.space.keys = [] ∧
    neighbours.machine.rightsAt 0x7effffff8 = some .noAccess ∧
    whole.machine.rightsAt 0x7effffff8 = none := by
  have hcode : neighbours.store.get? ⟨1, 0⟩ = some
      { Record.fresh 0x7effffff9000 9000 .exec with
        executeOnly := some ⟨some 1, .disableAccess⟩, guardBelow := some 0x7effffff8000 } := by
    decide +kernel
  have hconsistent : neighbours.Consistent :=
    consistent_of_avoids rfl rfl
      (avoids_cons.2 ⟨id, avoids_cons.2 ⟨id, avoids_cons.2 ⟨id, avoids_nil⟩⟩⟩) _
      (List.prefix_refl _)
  have hfragments : Fragments
      [(0x7effffffa000, 100), (0x7effffffb000, 4096), (0x7effffff9000, 8192)]
      { Record.fresh 0x7effffff9000 9000 .exec with
        executeOnly := some ⟨some 1, .disableAccess⟩, guardBelow := some 0x7effffff8000 } := by
    refine ⟨by decide, fun n hn => ?_⟩
    simp only [Record.Covers, Record.stop, Record.span, Record.fresh, PageIn, roundUp, pageSize,
      List.mem_cons, List.not_mem_nil, or_false, exists_eq_or_imp, exists_eq_left] at hn ⊢
    omega
  refine ⟨released_in_pieces rfl hconsistent (flanked_run rfl _)
    (calls_neighbours.unscheduled rfl) hcode hfragments, by decide +kernel, by decide +kernel,
    by decide +kernel, by decide +kernel⟩

end Warden

end PageWarden
