import PageWarden.Proofs.Account
import PageWarden.Proofs.Balance
import PageWarden.Proofs.Key.Operation
/-!
# Balance — operations and runs

Every operation settles (`settles_perform`), so along a run the keys in
use are the keys that records hold, and nothing is given back but what is
in use and held by nobody (`keys_in_use_are_held`): no key leaks, is given
back twice, or is given back while a part of what it isolated is left.
-/

namespace PageWarden

namespace Warden

variable {w v : Warden} {owed : List Nat} {r : Record} {κ : Nat}

/-! ## Follow-ups -/

/-- Which keys are held after a record has entered. -/
theorem keys_enroll_iff : View.Keys (w.enroll r).store.get? κ ↔
    View.Keys w.store.get? κ ∨ r.key = some κ := by
  have henter := View.keys_enter_iff (r := r.bare) (κ := κ) w.store.bare?_nextHandle
  rw [← View.keys_bare_iff, bare?_enroll, henter, View.keys_bare_iff]
  exact Iff.rfl

/-- **The record that a key was issued for enters.** -/
theorem settles_enroll (hw : w.Owing r.key.toList) : Settles w [] (w.enroll r) [] := by
  refine hw.settles ?_ fun κ => ?_
  · exact ((guarding_enroll w r).path (fun _ _ => trivial)).sameKeys
  · rw [keys_enroll_iff, Option.mem_toList]
    simp only [List.not_mem_nil, or_false]

/-- **Following up a mapping settles.** -/
theorem settles_settle (hw : w.Owing []) (hcache : w.config.useMappingCache = true)
    (q : MapRequest) (a : Nat) :
    Settles w ((w.carveCuts a (a + roundUp q.length pageSize) none).flatMap Cut.releases)
      (w.settle q a) [] := by
  have hcarve := (trail_carve w a (a + roundUp q.length pageSize) none).settles_of_forgetGuards hw
  unfold settle
  rw [if_pos hcache]
  split
  · rw [track_eq]
    have hentered := hcarve.andThen
      (settles_enroll (r := .fresh a q.length q.rights) hcarve.owing)
    exact hentered.quiet (Machine.Path.refl.tell rfl) fun _ => Iff.rfl
  · exact hcarve

/-- A record that follows its mapping keeps its key. -/
theorem settles_follow (hw : w.Owing []) (h : Handle) (q : MoveRequest) (moved : Nat) :
    Settles w [] (w.follow h q moved) [] := by
  cases hr : w.store.get? h with
  | none =>
    unfold follow
    rw [hr]
    exact hw.done
  | some r =>
    refine hw.quiet ?_ fun κ => ?_
    · have hhome : ∀ m : Machine, m.Keyless
          (Guard.rehome m r moved q.newLength w.config.guardPagesActive).2 := by
        intro m
        unfold Guard.rehome
        simp only
        split
        · exact (path_removeAll m r).trans (path_placeAll _ _)
        · exact path_removeAll m r
      unfold follow
      simp only [hr]
      split
      · exact (hhome _).tell rfl
      · exact ((Machine.Path.refl.tell rfl).trans (hhome _)).tell rfl
    · rw [← View.keys_bare_iff, ← View.keys_bare_iff (s := w.store), bare?_follow hr]
      exact View.keys_replace_iff (Store.bare?_of_get? hr) rfl

/-- **Following up a move settles.** -/
theorem settles_resettle (hw : w.Owing []) (handle : Option Handle) (q : MoveRequest)
    (moved : Nat) :
    Settles w ((w.carveCuts moved (moved + roundUp q.newLength pageSize) handle).flatMap
      Cut.releases) (w.resettle handle q moved) [] := by
  have hcarve := (trail_carve w moved (moved + roundUp q.newLength pageSize)
    handle).settles_of_forgetGuards hw
  unfold resettle
  cases handle with
  | none => exact hcarve
  | some h => exact hcarve.andThen (settles_follow hcarve.owing h q moved)

/-! ## Requests -/

/-- Overwriting fresh memory has nothing to do with keys. -/
theorem path_poison (w : Warden) (q : MapRequest) (a : Nat) :
    w.machine.Keyless (w.poison q a).machine := by
  unfold poison
  split
  · exact Machine.Path.refl.act (.fill a q.length poisonByte) trivial
  · exact .refl

/-- **A creation settles.** -/
theorem settles_create (hw : w.Owing []) (q : MapRequest) :
    Settles w ((w.createCuts q).flatMap Cut.releases) (w.create q).2 [] := by
  rw [create_eq]
  unfold createCuts
  cases w.vet q with
  | error d => exact hw.quiet (Machine.Path.refl.tell rfl) fun _ => Iff.rfl
  | ok =>
    have hmapped : w.machine.Keyless (w.machine.map q).2 :=
      Machine.Path.refl.act (.map q) trivial
    rcases hmap : w.machine.map q with ⟨errno | a, m⟩ <;> rw [hmap] at hmapped
    · exact hw.quiet (v := { w with machine := m }) hmapped fun _ => Iff.rfl
    · refine hw.first (v := { w with machine := m }) hmapped (fun _ => Iff.rfl) fun hv => ?_
      have hpoisoned : ∀ {ρs}, Settles { w with machine := m } ρs
          (settle { w with machine := m } q a) [] → Settles { w with machine := m } ρs
            (poison (settle { w with machine := m } q a) q a) [] := fun hsettled =>
        hsettled.quiet (path_poison _ q a) fun κ => by rw [(alike_poison _ q a).store]
      simp only
      split
      · rename_i hcache
        exact hpoisoned (settles_settle hv hcache q a)
      · rename_i hcache
        refine hpoisoned ?_
        unfold settle
        rw [if_neg hcache]
        exact hv.done

/-- **A release settles.** -/
theorem settles_remove (hw : w.Owing []) (a l : Nat) :
    Settles w ((w.removeCuts a l).flatMap Cut.releases) (w.remove a l).2 [] := by
  have hunmapped : w.machine.Keyless (w.machine.unmap a l).2 :=
    Machine.Path.refl.act (.unmap a l) trivial
  rw [remove_eq]
  unfold removeCuts
  rcases hunmap : w.machine.unmap a l with ⟨errno | ⟨⟩, m⟩ <;> rw [hunmap] at hunmapped
  · exact hw.quiet (v := { w with machine := m }) hunmapped fun _ => Iff.rfl
  · refine hw.first (v := { w with machine := m }) hunmapped (fun _ => Iff.rfl) fun hv => ?_
    simp only
    split
    · exact (trail_vacate _ a l).settles_of_forgetGuards hv
    · exact hv.done

/-- **A change of protection settles.** -/
theorem settles_reprotect (hw : w.Owing []) (a l : Nat) (ρ : Rights) :
    Settles w [] (w.reprotect a l ρ).2 [] := by
  rw [reprotect_eq]
  cases w.config.checkReprotect ρ (w.known a) with
  | error d => exact hw.quiet (Machine.Path.refl.tell rfl) fun _ => Iff.rfl
  | ok =>
    have hprotected : w.machine.Keyless (w.machine.protect a l ρ).2 :=
      Machine.Path.refl.act (.protect a l ρ) trivial
    rcases hprotect : w.machine.protect a l ρ with ⟨errno | ⟨⟩, m⟩ <;>
      rw [hprotect] at hprotected
    · exact hw.quiet (v := { w with machine := m }) hprotected fun _ => Iff.rfl
    · refine hw.quiet (hprotected.trans (path_note { w with machine := m } a l ρ)) fun κ => ?_
      have hclaims := claims_note { w with machine := m } a l ρ
      exact ⟨fun hκ => hκ.congr hclaims.symm, fun hκ => hκ.congr hclaims⟩

/-- Lifting guards before a move has nothing to do with keys. -/
theorem path_lifted (w : Warden) (address : Nat) :
    w.machine.Keyless (w.lifted address).machine := by
  cases hfind : w.store.find? address with
  | none =>
    rw [lifted_of_not_find? hfind]
    exact .refl
  | some h =>
    obtain ⟨r, hr, -⟩ := Store.get?_of_find? hfind
    rw [(lifted_of_find? hfind hr).2]
    exact path_removeAll _ _

/-- **A move settles.** -/
theorem settles_relocate (hw : w.Owing []) (q : MoveRequest) :
    Settles w ((w.relocateCuts q).flatMap Cut.releases) (w.relocate q).2 [] := by
  unfold relocateCuts
  cases hcache : w.config.useMappingCache with
  | false =>
    have hmoved : w.machine.Keyless (w.machine.move q).2 :=
      Machine.Path.refl.act (.move q) trivial
    rw [relocate_eq_of_not_cache w q hcache]
    rcases hmove : w.machine.move q with ⟨errno | moved, m⟩ <;> rw [hmove] at hmoved
    · exact hw.quiet (v := { w with machine := m }) hmoved fun _ => Iff.rfl
    · exact hw.quiet (v := { w with machine := m }) hmoved fun _ => Iff.rfl
  | true =>
    have hmoved := (path_lifted w q.address).act (.move q) trivial
    have hkeys : ∀ κ, View.Keys (w.lifted q.address).store.get? κ ↔ View.Keys w.store.get? κ :=
      fun κ => View.keys_congr (bare?_lifted w q.address)
    rw [relocate_eq w q hcache, if_pos rfl]
    simp only [Machine.act] at hmoved
    rcases hmove : (w.lifted q.address).machine.move q with ⟨errno | moved, m⟩ <;>
      rw [hmove] at hmoved
    · have hback := guarding_restore { w.lifted q.address with machine := m }
        (w.store.find? q.address) (w.hasBelow q.address) (w.hasAbove q.address)
      refine hw.quiet (hmoved.trans (hback.path fun _ _ => trivial)) fun κ => ?_
      exact (View.keys_congr (bare?_restore _ _ _ _)).trans (hkeys κ)
    · exact hw.first (v := { w.lifted q.address with machine := m }) hmoved hkeys
        fun hv => settles_resettle hv _ q moved

/-! ## Execute-only memory -/

/-- Reserving memory changes the machine by a mapping at most. -/
theorem path_reserve (w : Warden) (size codeSize : Nat) :
    (w.reserve size codeSize).2.store = w.store ∧
      w.machine.Keyless (w.reserve size codeSize).2.machine := by
  unfold reserve
  split
  · exact ⟨rfl, .refl⟩
  · split
    · exact ⟨rfl, .refl⟩
    · split
      · exact ⟨rfl, .refl⟩
      · split <;> rename_i hmap <;>
          exact ⟨rfl, Machine.Path.refl.step (c := .map _) trivial (congrArg Prod.snd hmap)⟩

/-- **A key that is issued is owed**, and no record holds it yet. -/
theorem settles_keyAlloc {σ : KeyRights} {m : Machine} (hw : w.Owing [])
    (h : w.machine.keyAlloc σ = (.ok κ, m)) :
    Settles w [] { w with machine := m } [κ] ∧ ¬ View.Keys w.store.get? κ := by
  have hheld : ∀ κ', w.machine.space.Allocated κ' ↔ View.Keys w.store.get? κ' := by
    intro κ'
    rw [hw.held]
    exact or_iff_left List.not_mem_nil
  have hfreed := w.machine.freed_keyAlloc σ
  rcases w.machine.keyAlloc_cases σ with ⟨e, m', halloc, -⟩ | ⟨m', halloc, -, hplatform, hspace⟩
  · rw [halloc] at h
    cases h
  · rw [halloc] at h hfreed
    cases h
    have hallocated : ∀ κ', m.space.Allocated κ' ↔
        w.machine.space.Allocated κ' ∨ κ' = w.machine.space.nextKey := by
      intro κ'
      rw [hspace]
      simp only [Space.Allocated, List.mem_append, List.mem_singleton, Prod.mk.injEq, exists_or,
        exists_and_left, exists_eq, and_true]
    have hcalls := (Machine.Calls.refl (m := w.machine)).keyAlloc σ
    rw [halloc] at hcalls
    refine ⟨⟨⟨?_, fun κ' hκ' => ?_, fun κ' => ?_⟩, ?_, hcalls, List.forall_mem_nil _,
      List.forall_mem_nil _⟩, fun hκ => ?_⟩
    · rw [hplatform]
      exact hw.calls
    · show κ' < m.space.nextKey
      rw [hspace]
      rcases (hallocated κ').1 hκ' with hold | rfl
      · exact Nat.lt_succ_of_lt (hw.issued κ' hold)
      · exact Nat.lt_succ_self _
    · rw [hallocated, hheld, List.mem_singleton]
    · exact hfreed.trans (List.append_nil _).symm
    · exact Nat.lt_irrefl _ (hw.issued _ ((hheld _).2 hκ))

/-- The key that sealing hands out. -/
def sealedKey : Except Failure (Option Nat) → List Nat
  | .ok key => key.toList
  | .error _ => []

/-- **Sealing owes the key it hands out**, and gives a key of no use back. -/
theorem settles_sealPages {a size : Nat} {o : Except Failure (Option Nat)} {m : Machine}
    (hw : w.Owing []) (h : sealPages w.machine a size = (o, m)) :
    Settles w (w.sealReleases a size) { w with machine := m } (sealedKey o) := by
  unfold sealPages at h
  unfold sealReleases
  rcases halloc : w.machine.keyAlloc .disableAccess with ⟨errno | κ, m₁⟩
  · -- without a key the protection alone must do
    have hsame : w.machine.SameKeys m₁ := by
      have hkeys := w.machine.sameKeys_keyAlloc (σ := .disableAccess) (by rw [halloc])
      rwa [halloc] at hkeys
    have hprotected : m₁.Keyless (m₁.protect a size .exec).2 :=
      Machine.Path.refl.act (.protect a size .exec) trivial
    simp only [halloc] at h ⊢
    split at h
    · split at h <;> rename_i hprotect <;> cases h <;> rw [hprotect] at hprotected <;>
        exact hw.settles (hsame.trans hprotected.sameKeys) fun _ => Iff.rfl
    · cases h
      exact hw.settles hsame fun _ => Iff.rfl
  · obtain ⟨hissued, hno⟩ := settles_keyAlloc hw halloc
    have htagged : m₁.Keyless (m₁.keyProtect a size .exec κ).2 :=
      Machine.Path.refl.act (.keyProtect a size .exec κ) trivial
    simp only [halloc] at h ⊢
    rcases htag : m₁.keyProtect a size .exec κ with ⟨errno | ⟨⟩, m₂⟩ <;> rw [htag] at htagged <;>
      simp only [htag] at h ⊢ <;> cases h
    · have htried := hissued.quiet (u := { w with machine := m₂ }) htagged fun _ => Iff.rfl
      exact htried.trans (settles_keyFree htried.owing List.not_mem_nil hno)
    · exact hissued.quiet (u := { w with machine := m }) htagged fun _ => Iff.rfl

/-- Asking what a key isolates with has nothing to do with which keys are
in use. -/
theorem sameKeys_isolation (m : Machine) (key : Option Nat) : m.SameKeys (isolation m key).2 := by
  unfold isolation
  split
  · exact .refl
  · exact Machine.sameKeys_act (c := .keyRights _) trivial m

/-- **Enclosing code settles**: a key is its record's, or was given back. -/
theorem settles_enclose (hw : w.Owing []) (a size : Nat) (code : List UInt8) :
    Settles w (sealReleases { w with machine := w.machine.copy a code } a size)
      (w.enclose a size code).2 [] := by
  refine hw.first (v := { w with machine := w.machine.copy a code })
    (Machine.Path.refl.act (.copy a code) trivial) (fun _ => Iff.rfl) fun hv => ?_
  unfold enclose
  rcases hseal : sealPages (w.machine.copy a code) a size with ⟨f | key, m⟩
  · have hsealed := settles_sealPages hv hseal
    exact hsealed.quiet (u := { w with machine := (m.unmap a size).2 })
      (Machine.Path.refl.act (.unmap a size) trivial) fun _ => Iff.rfl
  · have hsealed := settles_sealPages hv hseal
    have hasked := hsealed.andThen (hsealed.owing.settles
      (v := { w with machine := (isolation m key).2 }) (sameKeys_isolation m key) fun _ => Iff.rfl)
    -- what sealing owes is the key of the record that enters
    have hentered := hasked.andThen (settles_enroll
      (r := { Record.fresh a size .exec with executeOnly := some ⟨key, (isolation m key).1⟩ })
      hasked.owing)
    exact hentered.quiet (Machine.Path.refl.tell (e := .executeOnlyCreated a size code.length key)
      rfl) fun _ => Iff.rfl

/-- **Making execute-only memory settles.** -/
theorem settles_makeExecuteOnly (hw : w.Owing []) (size : Nat) (code : List UInt8) :
    Settles w (w.makeReleases size code) (w.makeExecuteOnly size code).2 [] := by
  obtain ⟨hstore, hreserved⟩ := path_reserve w size code.length
  have hkeys : ∀ κ, View.Keys (w.reserve size code.length).2.store.get? κ ↔
      View.Keys w.store.get? κ := fun κ => by rw [hstore]
  unfold makeReleases makeExecuteOnly
  rcases hreserve : w.reserve size code.length with ⟨f | a, v⟩ <;>
    rw [hreserve] at hreserved hkeys
  · exact hw.quiet hreserved hkeys
  · exact hw.first hreserved hkeys fun hv => settles_enclose hv a size code

/-- **Giving execute-only memory up owes its key**, where unmapping does not
fail. -/
theorem settles_surrender (hs : w.store.Shaped) (hfaults : w.machine.faults .unmap = [])
    (hw : w.Owing []) {a l : Nat} {o : Except Failure Record} (h : w.surrender a l = (o, v)) :
    Settles w [] v (sealedKey (o.map Record.key)) := by
  unfold surrender at h
  split at h
  · cases h
    exact hw.done
  · split at h
    · cases h
      exact hw.done
    · split at h
      · cases h
        exact hw.done
      · rename_i r t hremove
        split at h
        · cases h
          exact hw.done
        · have hr := (Store.remove_eq_some_iff.1 hremove).1
          obtain ⟨hbase, hlen⟩ := hs _ r hr
          obtain ⟨m, hm, htold⟩ : ∃ m, w.machine.Keyless m ∧
              (if l = r.length then
                  { w with store := t, machine := (Guard.removeAll w.machine r).2 }
                else Warden.tell { w with store := t, machine := (Guard.removeAll w.machine r).2 }
                  (.releasingWhole a l r.length)) = { w with store := t, machine := m } := by
            split
            · exact ⟨_, path_removeAll _ r, rfl⟩
            · exact ⟨_, (path_removeAll _ r).tell rfl, rfl⟩
          simp only [htold] at h
          have hgone := Machine.unmap_of_aligned (hm.calls.unscheduled hfaults) hbase hlen
          have hunmapped := hm.act (.unmap r.base r.length) trivial
          simp only [Machine.act] at hunmapped
          rcases hunmap : m.unmap r.base r.length with ⟨errno | ⟨⟩, m'⟩ <;>
            rw [hunmap] at hgone hunmapped h
          · cases hgone
          · cases h
            refine hw.settles hunmapped.sameKeys fun κ => ?_
            show _ ∨ κ ∈ r.key.toList ↔ _
            rw [View.keys_leave_iff hr, Store.get?_remove_eq_update hremove, Option.mem_toList]
            simp only [List.not_mem_nil, or_false]

/-- **A release of execute-only memory settles**, where unmapping does not
fail. -/
theorem settles_releaseExecuteOnly (hs : w.store.Shaped) (hfaults : w.machine.faults .unmap = [])
    (hw : w.Owing []) (a l : Nat) :
    Settles w (w.giveUpReleases a l) (w.releaseExecuteOnly a l).2 [] := by
  unfold giveUpReleases releaseExecuteOnly
  rcases hgone : w.surrender a l with ⟨f | r, v⟩
  · exact settles_surrender hs hfaults hw hgone
  · have hleft := settles_surrender hs hfaults hw hgone
    exact hleft.trans (settles_releaseKey hleft.owing)

/-! ## Giving everything up -/

/-- Nothing is listed twice once duplicates are erased. -/
theorem nodup_eraseDups : ∀ l : List Nat, l.eraseDups.Nodup
  | [] => List.nodup_nil
  | a :: l => by
    rw [List.eraseDups_cons, List.nodup_cons]
    refine ⟨fun hmem => ?_, nodup_eraseDups _⟩
    have hne := (List.mem_filter.1 (List.mem_eraseDups.1 hmem)).2
    rw [beq_self_eq_true] at hne
    cases hne
termination_by l => l.length
decreasing_by exact Nat.lt_succ_of_le (List.length_filter_le _ l)

/-- **Giving everything up settles**: each key goes once. -/
theorem settles_teardown (hw : w.Owing []) : Settles w w.teardownReleases w.teardown [] := by
  have hmem : ∀ κ, κ ∈ (w.store.records.filterMap Record.key).eraseDups.mergeSort ↔
      View.Keys w.store.get? κ := by
    intro κ
    rw [List.mem_mergeSort, List.mem_eraseDups, List.mem_filterMap]
    constructor
    · rintro ⟨r, hr, hκ⟩
      obtain ⟨k, hk⟩ := Store.mem_records_iff.1 hr
      exact ⟨k, r, hk, hκ⟩
    · rintro ⟨k, r, hk, hκ⟩
      exact ⟨r, Store.mem_records_iff.2 ⟨k, hk⟩, hκ⟩
  have hnone : ∀ κ, ¬ View.Keys Store.empty.get? κ := fun κ ⟨_, _, hr, _⟩ => nomatch hr
  have hcleared : Settles w [] { w with store := .empty }
      (w.store.records.filterMap Record.key).eraseDups.mergeSort := by
    refine hw.settles .refl fun κ => ?_
    rw [hmem]
    simp only [hnone, false_or, List.not_mem_nil, or_false]
  have hfreed := hcleared.trans (settles_freeAll hcleared.owing
    ((List.mergeSort_perm _ _).nodup_iff.2 (nodup_eraseDups _)) fun κ _ => hnone κ)
  exact hfreed.quiet (Machine.Path.refl.tell rfl) fun _ => Iff.rfl

/-! ## Runs -/

/-- **Every operation settles.** -/
theorem settles_perform (hs : w.store.Shaped) (hfaults : w.machine.faults .unmap = [])
    (hw : w.Owing []) (op : Operation) : Settles w (w.releases op) (w.perform op).2 [] := by
  cases op with
  | create q => exact settles_create hw q
  | remove a l => exact settles_remove hw a l
  | reprotect a l ρ => exact settles_reprotect hw a l ρ
  | relocate q => exact settles_relocate hw q
  | makeExecuteOnly s c => exact settles_makeExecuteOnly hw s c
  | releaseExecuteOnly a l => exact settles_releaseExecuteOnly hs hfaults hw a l
  | teardown => exact settles_teardown hw

/-- **The keys in use are the keys that records hold.** Over every run that
begins without records and without keys in use, where there are calls for
keys and no unmapping is scheduled to fail, in every configuration and
under every other fault: after each operation a key is in use exactly if
a record holds it; and the keys that the journal says an operation gave
back are its releases, each of them in use at the moment the journal has
the call, and held by no record then. -/
theorem keys_in_use_are_held (hempty : w.store = .empty) (hkeys : w.machine.space.keys = [])
    (hcalls : w.machine.platform.hasKeyCalls = true) (hfaults : w.machine.faults .unmap = [])
    (ops : List Operation) :
    w.Throughout (fun v => ∀ κ, v.machine.space.Allocated κ ↔ View.Keys v.store.get? κ) ops ∧
      ∀ done op, done ++ [op] <+: ops →
        (w.run (done ++ [op])).machine.freed =
            (w.run done).machine.freed ++ ((w.run done).releases op).map Release.key ∧
          ∀ ρ ∈ (w.run done).releases op,
            ρ.Within (w.run done).machine (w.run (done ++ [op])).machine ∧
            ρ.warden.machine.space.Allocated ρ.key ∧ ¬ View.Keys ρ.warden.store.get? ρ.key := by
  have hstart : w.Owing [] := by
    have hnone : ∀ κ, ¬ w.machine.space.Allocated κ := by
      rintro κ ⟨ρ, hρ⟩
      rw [hkeys] at hρ
      cases hρ
    refine ⟨hcalls, fun κ hκ => absurd hκ (hnone κ), fun κ => iff_of_false (hnone κ) ?_⟩
    rintro (⟨k, r, hr, -⟩ | hmem)
    · rw [hempty] at hr
      cases hr
    · cases hmem
  have hall : w.Throughout (fun v => v.Owing [] ∧ v.store.Shaped ∧
      v.machine.faults .unmap = []) ops := by
    refine throughout_of_steps ⟨hstart, shaped_of_empty hempty, hfaults⟩
      fun done op _ ⟨hv, hs, hf⟩ => ?_
    exact ⟨(settles_perform hs hf hv op).owing, shaped_perform hs op,
      (calls_perform _ op).unscheduled hf⟩
  refine ⟨fun done hdone κ => ?_, fun done op hdone => ?_⟩
  · rw [(hall done hdone).1.held κ]
    exact or_iff_left List.not_mem_nil
  · obtain ⟨hv, hs, hf⟩ := hall.before hdone
    have hsettled := settles_perform hs hf hv op
    rw [run_append]
    exact ⟨hsettled.freed, fun ρ hρ => ⟨hsettled.passed ρ hρ, (hsettled.due ρ hρ).allocated,
      (hsettled.due ρ hρ).unheld⟩⟩

/-- Execute-only memory is split by a release of its middle page, after which
no page can be tagged for more of it. The key that was issued in vain
goes at once; the shared one stays when the lower part is released, and
goes with the upper part when everything is given up. -/
theorem shared_key_goes_last :
    let w : Warden :=
      { config := { useMappingCache := true }
        machine :=
          { space := .emptyWithKeys, faults := Faults.never.schedule .keyProtect .inval 1 1 } }
    let ops : List Operation :=
      [.makeExecuteOnly 12288 [0xc3], .remove 0x7effffffe000 4096, .makeExecuteOnly 4096 [0xc3],
        .releaseExecuteOnly 0x7effffffd000 4096, .teardown]
    (w.run (ops.take 4)).machine.space.keys.map Prod.fst = [1] ∧
      (w.run (ops.take 4)).machine.freed = [2] ∧ (w.run ops).machine.freed = [2, 1] ∧
      w.Throughout (fun v => ∀ κ, v.machine.space.Allocated κ ↔ View.Keys v.store.get? κ) ops ∧
      ∀ done op, done ++ [op] <+: ops →
        (w.run (done ++ [op])).machine.freed =
            (w.run done).machine.freed ++ ((w.run done).releases op).map Release.key ∧
          ∀ ρ ∈ (w.run done).releases op,
            ρ.Within (w.run done).machine (w.run (done ++ [op])).machine ∧
            ρ.warden.machine.space.Allocated ρ.key ∧ ¬ View.Keys ρ.warden.store.get? ρ.key := by
  refine ⟨rfl, rfl, by decide +kernel, ?_⟩
  exact keys_in_use_are_held rfl rfl rfl rfl _

end Warden

end PageWarden
