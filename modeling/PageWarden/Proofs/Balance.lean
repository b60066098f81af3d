import PageWarden.Proofs.Balance.Release
import PageWarden.Proofs.Key
/-!
# Keys — the ones in use are the ones held

A key is in use exactly as long as a record holds it. Within an operation
that is off for a moment: a key was issued and its record is yet to
enter, or a record has left and its key is yet to be given back. Such
keys are owed (`Warden.Owing`), and a stretch of an operation settles
when it leaves the balance right up to what it owes, has written into the
journal just the keys it names, and gave back none that was not due
(`Warden.Settles`). Stretches compose, and a whole operation owes nothing
at its end (`settles_perform`), in every configuration and under every
fault but one on unmapping: execute-only memory that is given up leaves
the store before its pages are unmapped, and keeps its key if they are
not.
-/

namespace PageWarden

variable {V V' : View} {h : Handle} {r s : Record} {κ : Nat}

/-! ## Which keys records hold -/

namespace View

/-- Keys are no matter of guards. -/
theorem keys_congr {s t : Store} (hst : t.bare? = s.bare?) :
    View.Keys t.get? κ ↔ View.Keys s.get? κ :=
  ⟨fun hκ => hκ.congr (claims_of_bare? hst.symm), fun hκ => hκ.congr (claims_of_bare? hst)⟩

/-- Seen guards aside, records hold the same keys. -/
theorem keys_bare_iff {s : Store} : View.Keys s.bare? κ ↔ View.Keys s.get? κ := by
  constructor
  · rintro ⟨k, q, hq, hκ⟩
    obtain ⟨r, hr, rfl⟩ := Store.exists_get?_of_bare? hq
    exact ⟨k, r, hr, hκ⟩
  · rintro ⟨k, r, hr, hκ⟩
    exact ⟨k, r.bare, Store.bare?_of_get? hr, hκ⟩

/-- A record that enters brings its key. -/
theorem keys_enter_iff (hfree : V h = none) :
    View.Keys (Function.update V h (some r)) κ ↔ V.Keys κ ∨ r.key = some κ := by
  constructor
  · intro hκ
    rcases keys_of_update hκ with ⟨s, ⟨⟩, hs⟩ | hold
    · exact Or.inr hs
    · exact Or.inl hold
  · rintro (⟨k, s, hs, hκ⟩ | hκ)
    · exact ⟨k, s, update_of_free hs hfree, hκ⟩
    · exact ⟨h, r, Function.update_self h _ V, hκ⟩

/-- A record that leaves takes its key along, unless another one holds it. -/
theorem keys_leave_iff (hr : V h = some r) :
    V.Keys κ ↔ View.Keys (Function.update V h none) κ ∨ r.key = some κ := by
  have hback := keys_enter_iff (V := Function.update V h none) (r := r) (κ := κ)
    (Function.update_self h none V)
  rwa [Function.update_idem, Function.update_eq_self_iff.2 hr.symm] at hback

/-- A record may be replaced by one with the same key. -/
theorem keys_replace_iff (hr : V h = some r) (hs : s.key = r.key) :
    View.Keys (Function.update V h (some s)) κ ↔ V.Keys κ := by
  have hback := keys_enter_iff (V := Function.update V h none) (r := s) (κ := κ)
    (Function.update_self h none V)
  rw [Function.update_idem] at hback
  rw [hback, hs, ← keys_leave_iff hr]

end View

/-! ## The balance -/

namespace Warden

variable {w v u : Warden} {owed owed' : List Nat} {start stop : Nat}

/-- **The keys in use are those that records hold and those that are owed**:
issued for a record that is yet to enter, or yet to be given back. The
next key is a new one. -/
structure Owing (owed : List Nat) (w : Warden) : Prop where
  calls : w.machine.platform.hasKeyCalls = true
  issued : ∀ κ, w.machine.space.Allocated κ → κ < w.machine.space.nextKey
  held : ∀ κ, w.machine.space.Allocated κ ↔ View.Keys w.store.get? κ ∨ κ ∈ owed

/-- **From `w` a stretch comes to `v`, and settles**: the balance is right up
to what is owed, the keys given back are the releases named, and each of
them was given back on the way and was due then. -/
structure Settles (w : Warden) (releases : List Release) (v : Warden) (owed : List Nat) :
    Prop where
  owing : v.Owing owed
  freed : v.machine.freed = w.machine.freed ++ releases.map Release.key
  calls : w.machine.Calls v.machine
  passed : ∀ ρ ∈ releases, ρ.Within w.machine v.machine
  due : ∀ ρ ∈ releases, ρ.Due

/-- One stretch after another. -/
theorem Settles.trans {ρs σs : List Release} (hwv : Settles w ρs v owed)
    (hvu : Settles v σs u owed') : Settles w (ρs ++ σs) u owed' := by
  refine ⟨hvu.owing, ?_, hwv.calls.trans hvu.calls, fun ρ hρ => ?_, fun ρ hρ => ?_⟩
  · rw [hvu.freed, hwv.freed, List.map_append, List.append_assoc]
  · rcases List.mem_append.1 hρ with hmem | hmem
    · obtain ⟨hbegun, hended, hnoted⟩ := hwv.passed ρ hmem
      exact ⟨hbegun, hended.trans hvu.calls, hnoted.trans hvu.calls.journal⟩
    · obtain ⟨hbegun, hended, hnoted⟩ := hvu.passed ρ hmem
      exact ⟨hwv.calls.trans hbegun, hended, hnoted⟩
  · exact (List.mem_append.1 hρ).elim (hwv.due ρ) (hvu.due ρ)

/-- **A stretch that has nothing to do with keys in the machine** settles,
if what records hold or is owed stays the same. -/
theorem Owing.settles (hw : w.Owing owed) (hm : w.machine.SameKeys v.machine)
    (hkeys : ∀ κ, (View.Keys v.store.get? κ ∨ κ ∈ owed') ↔
      (View.Keys w.store.get? κ ∨ κ ∈ owed)) : Settles w [] v owed' := by
  refine ⟨⟨?_, fun κ hκ => ?_, fun κ => ?_⟩, ?_, hm.calls, List.forall_mem_nil _,
    List.forall_mem_nil _⟩
  · rw [hm.calls.platform]
    exact hw.calls
  · rw [hm.nextKey]
    exact hw.issued κ ((hm.allocated κ).1 hκ)
  · rw [hm.allocated, hkeys]
    exact hw.held κ
  · rw [hm.freed]
    exact (List.append_nil _).symm

/-- A path of calls that have nothing to do with keys settles. -/
theorem Owing.quiet (hw : w.Owing owed) (hm : w.machine.Keyless v.machine)
    (hkeys : ∀ κ, View.Keys v.store.get? κ ↔ View.Keys w.store.get? κ) : Settles w [] v owed :=
  hw.settles hm.sameKeys fun κ => or_congr_left (hkeys κ)

/-- Nothing done is nothing owed. -/
theorem Owing.done (hw : w.Owing owed) : Settles w [] w owed :=
  hw.quiet .refl fun _ => Iff.rfl

/-- A stretch may be followed by one that gives nothing back. -/
theorem Settles.andThen {ρs : List Release} (hwv : Settles w ρs v owed)
    (hvu : Settles v [] u owed') : Settles w ρs u owed' := by
  have hboth := hwv.trans hvu
  rwa [List.append_nil] at hboth

/-- So by one that has nothing to do with keys. -/
theorem Settles.quiet {ρs : List Release} (hwv : Settles w ρs v owed)
    (hm : v.machine.Keyless u.machine)
    (hkeys : ∀ κ, View.Keys u.store.get? κ ↔ View.Keys v.store.get? κ) : Settles w ρs u owed :=
  hwv.andThen (hwv.owing.quiet hm hkeys)

/-- A stretch that has nothing to do with keys may come first. -/
theorem Owing.first (hw : w.Owing owed) {ρs : List Release} (hm : w.machine.Keyless v.machine)
    (hkeys : ∀ κ, View.Keys v.store.get? κ ↔ View.Keys w.store.get? κ)
    (hvu : v.Owing owed → Settles v ρs u owed') : Settles w ρs u owed' :=
  (hw.quiet hm hkeys).trans (hvu (hw.quiet hm hkeys).owing)

/-! ## Giving keys back -/

/-- **A key that is owed and held by nobody is given back.** -/
theorem settles_keyFree (hw : w.Owing (κ :: owed)) (hκ : κ ∉ owed)
    (hno : ¬ View.Keys w.store.get? κ) :
    Settles w [⟨κ, w⟩] { w with machine := w.machine.keyFree κ } owed := by
  have hspace : (w.machine.keyFree κ).space = w.machine.space.keyFree κ := by
    unfold Machine.keyFree
    rw [if_pos hw.calls]
  have hallocated : ∀ κ', (w.machine.keyFree κ).space.Allocated κ' ↔
      w.machine.space.Allocated κ' ∧ κ' ≠ κ := by
    intro κ'
    rw [hspace]
    simp only [Space.Allocated, Space.keyFree, List.mem_filter, decide_eq_true_eq,
      exists_and_right]
  have hjournal : (w.machine.keyFree κ).journal = w.machine.journal ++ [.call (.keyFree κ)] := by
    unfold Machine.keyFree
    rw [if_pos hw.calls]
  refine ⟨⟨?_, fun κ' hκ' => ?_, fun κ' => ?_⟩, Machine.freed_call (c := .keyFree κ) hjournal,
    Machine.Calls.refl.keyFree κ, fun ρ hρ => ?_, fun ρ hρ => ?_⟩
  · show (w.machine.keyFree κ).platform.hasKeyCalls = true
    unfold Machine.keyFree
    split
    · exact hw.calls
    · exact hw.calls
  · show κ' < (w.machine.keyFree κ).space.nextKey
    rw [hspace]
    exact hw.issued κ' ((hallocated κ').1 hκ').1
  · show (w.machine.keyFree κ).space.Allocated κ' ↔ View.Keys w.store.get? κ' ∨ κ' ∈ owed
    rw [hallocated, hw.held, List.mem_cons]
    constructor
    · rintro ⟨hheld | heq | hrest, hne⟩
      · exact Or.inl hheld
      · exact absurd heq hne
      · exact Or.inr hrest
    · rintro (hheld | hrest)
      · exact ⟨Or.inl hheld, fun heq => hno (heq ▸ hheld)⟩
      · exact ⟨Or.inr (Or.inr hrest), fun heq => hκ (heq ▸ hrest)⟩
  · obtain rfl := List.mem_singleton.1 hρ
    exact ⟨.refl, .refl, hjournal ▸ List.prefix_refl _⟩
  · obtain rfl := List.mem_singleton.1 hρ
    exact ⟨(hw.held κ).2 (Or.inr List.mem_cons_self), hno⟩

/-- **The key of a record that has left is given back**, unless another
record holds it. -/
theorem settles_releaseKey (hw : w.Owing r.key.toList) :
    Settles w (w.keyReleases r) (w.releaseKey r) [] := by
  unfold keyReleases releaseKey
  cases hkey : r.key with
  | none =>
    rw [hkey] at hw
    exact hw.done
  | some κ =>
    rw [hkey] at hw
    simp only
    by_cases hshared : w.store.records.any (·.key = some κ) = true
    · rw [if_pos hshared, if_pos hshared]
      refine hw.settles (Machine.sameKeys_tell _ _) fun κ' => ?_
      -- what was owed is held by another record
      rw [any_key_iff] at hshared
      constructor
      · rintro (hheld | hnone)
        · exact Or.inl hheld
        · cases hnone
      · rintro (hheld | hmem)
        · exact Or.inl hheld
        · obtain rfl := List.mem_singleton.1 hmem
          exact Or.inl hshared
    · rw [if_neg hshared, if_neg hshared]
      rw [any_key_iff] at hshared
      exact (settles_keyFree hw List.not_mem_nil hshared).quiet
        (u := Warden.tell _ _) (Machine.Path.refl.tell rfl) fun _ => Iff.rfl

/-- **Keys are given back one after the other**, if nobody holds them. -/
theorem settles_freeAll {keys : List Nat} (hw : w.Owing keys) (hnodup : keys.Nodup)
    (hno : ∀ κ ∈ keys, ¬ View.Keys w.store.get? κ) :
    Settles w (freeReleases keys w) { w with machine := keys.foldl Machine.keyFree w.machine }
      [] := by
  induction keys generalizing w with
  | nil => exact hw.done
  | cons κ keys ih =>
    obtain ⟨hκ, hnodup⟩ := List.nodup_cons.1 hnodup
    have hfree := settles_keyFree hw hκ (hno κ List.mem_cons_self)
    exact hfree.trans (ih hfree.owing hnodup fun κ' hκ' => hno κ' (List.mem_cons_of_mem κ hκ'))

/-! ## Cuts and carves -/

/-- Lifting the guards of a record has nothing to do with keys. -/
theorem path_removeAll (m : Machine) (r : Record) :
    m.Keyless (Guard.removeAll m r).2 :=
  (Machine.Path.refl.removeBelow fun _ _ => trivial).removeAbove fun _ _ => trivial

/-- Nor has placing them. -/
theorem path_placeAll (m : Machine) (r : Record) :
    m.Keyless (Guard.placeAll m r).2 :=
  (Machine.Path.refl.placeBelow r fun _ => trivial).placeAbove _ fun _ => trivial

/-- **A record is dropped, and its key with the last that holds it.** -/
theorem settles_dropRecord (hw : w.Owing []) (hr : w.store.get? h = some r)
    (hs : s.key = r.key) : Settles w (w.dropReleases h s) (w.dropRecord h s) [] := by
  obtain ⟨t, ht⟩ := Store.exists_remove_of_get? hr
  have hleft : Settles w [] { w with store := t, machine := (Guard.removeAll w.machine s).2 }
      (Guard.removeAll w.machine s).1.key.toList := by
    refine hw.settles (path_removeAll _ _).sameKeys fun κ => ?_
    have hkey : (Guard.removeAll w.machine s).1.key = r.key := by
      rw [Guard.removeAll_fst]
      exact hs
    rw [View.keys_leave_iff hr, Store.get?_remove_eq_update ht, hkey, Option.mem_toList]
    simp only [List.not_mem_nil, or_false]
  unfold dropReleases dropRecord
  simp only [ht]
  exact (hleft.trans (settles_releaseKey hleft.owing)).quiet (Machine.Path.refl.tell rfl)
    fun _ => Iff.rfl

/-- A cut that does not drop the record leaves its key with its parts. -/
theorem keys_cut_iff (hr : w.store.get? h = some r)
    (hstays : r.base < start ∨ stop < r.stop pageSize) (guarded : Bool) :
    View.Keys (w.cut h start stop guarded).store.get? κ ↔ View.Keys w.store.get? κ := by
  have hbare := Store.bare?_of_get? hr
  have hkept : ∃ q, r.bare.kept start stop = some q := by
    by_cases hbelow : r.base < start
    · exact ⟨_, Record.kept_of_lt (r := r.bare) hbelow⟩
    · exact ⟨_, Record.kept_of_le (r := r.bare) (Nat.le_of_not_lt hbelow)
        (hstays.resolve_left hbelow)⟩
  obtain ⟨q, hq⟩ := hkept
  have hqkey : q.key = r.bare.key := (Record.partOf_iff.2 (Or.inl hq)).key
  have hold := View.keys_replace_iff (κ := κ) hbare hqkey
  rw [← View.keys_bare_iff, ← View.keys_bare_iff (s := w.store), bare?_cut hr, hq]
  cases hsplit : r.bare.splitOff start stop with
  | none =>
    rw [Function.update_eq_self_iff.2, hold]
    rw [Function.update_of_ne (Store.ne_nextHandle hr).symm, Store.bare?_nextHandle]
  | some u =>
    have hukey : u.key = r.bare.key := (Record.partOf_iff.2 (Or.inr hsplit)).key
    rw [View.keys_enter_iff, hold]
    · -- the part that is split off brings no key that the record did not have
      refine or_iff_left_of_imp fun hκ => ?_
      exact ⟨h, r.bare, hbare, hukey.symm.trans hκ⟩
    · rw [Function.update_of_ne (Store.ne_nextHandle hr).symm, Store.bare?_nextHandle]

/-- Cutting a head off has nothing to do with keys. -/
theorem path_trimHead (w : Warden) (h : Handle) (r : Record) (stop : Nat) (guarded : Bool) :
    w.machine.Keyless (w.trimHead h r stop guarded).machine := by
  have hbare : w.machine.Keyless (Guard.removeBelow w.machine r).2 :=
    Machine.Path.refl.removeBelow fun _ _ => trivial
  rw [trimHead_eq]
  refine Machine.Path.tell ?_ rfl
  simp only
  split
  · exact hbare.placeBelow _ fun _ => trivial
  · exact hbare

/-- Nor has cutting a tail off. -/
theorem path_trimTail (w : Warden) (h : Handle) (r : Record) (start : Nat) (guarded : Bool) :
    w.machine.Keyless (w.trimTail h r start guarded).machine := by
  have hbare : w.machine.Keyless (Guard.removeAbove w.machine r).2 :=
    Machine.Path.refl.removeAbove fun _ _ => trivial
  rw [trimTail_eq]
  refine Machine.Path.tell ?_ rfl
  simp only
  split
  · exact hbare.placeAbove _ fun _ => trivial
  · exact hbare

/-- Nor has a split. -/
theorem path_splitRecord (w : Warden) (h : Handle) (r : Record) (start stop : Nat)
    (guarded : Bool) :
    w.machine.Keyless (w.splitRecord h r start stop guarded).machine := by
  rw [splitRecord_eq]
  refine Machine.Path.tell ?_ rfl
  split
  · exact (Machine.Path.refl.placeAbove _ fun _ => trivial).placeBelow _ fun _ => trivial
  · exact .refl

/-- **What a cut has to do with keys**: it drops the record, or it leaves keys
alone. -/
theorem cut_keys_cases (hr : w.store.get? h = some r) (guarded : Bool) :
    (start ≤ r.base ∧ r.stop pageSize ≤ stop ∧
        w.cut h start stop guarded = w.dropRecord h (r.forgetWithin start stop)) ∨
      (r.base < start ∨ stop < r.stop pageSize) ∧
        w.machine.Keyless (w.cut h start stop guarded).machine ∧
        ∀ κ, View.Keys (w.cut h start stop guarded).store.get? κ ↔ View.Keys w.store.get? κ := by
  by_cases hstays : r.base < start ∨ stop < r.stop pageSize
  · refine Or.inr ⟨hstays, ?_, fun κ => keys_cut_iff hr hstays guarded⟩
    unfold cut
    simp only [hr]
    split
    · rename_i hbelow
      rw [if_neg]
      · exact path_trimHead _ _ _ _ _
      · exact Nat.not_le_of_lt (hstays.resolve_left (Nat.not_lt_of_le hbelow))
    · split
      · exact path_trimTail _ _ _ _ _
      · exact path_splitRecord _ _ _ _ _ _
  · have hbelow : start ≤ r.base := Nat.le_of_not_lt fun hlt => hstays (Or.inl hlt)
    have habove : r.stop pageSize ≤ stop := Nat.le_of_not_lt fun hlt => hstays (Or.inr hlt)
    refine Or.inl ⟨hbelow, habove, ?_⟩
    unfold cut
    simp only [hr]
    exact (if_pos hbelow).trans (if_pos habove)

/-- **A cut settles.** -/
theorem settles_cut (c : Cut) (hw : c.warden.Owing []) :
    Settles c.warden c.releases c.result [] := by
  unfold Cut.releases Cut.result
  cases hr : c.warden.store.get? c.handle with
  | none =>
    unfold cut
    rw [hr]
    exact hw.done
  | some found =>
    simp only
    rcases cut_keys_cases hr c.guarded with ⟨hbelow, habove, hdrop⟩ | ⟨hstays, hquiet, hkeys⟩
    · have hwhole : c.start ≤ (found.forgetWithin c.start c.stop).base ∧
          (found.forgetWithin c.start c.stop).stop pageSize ≤ c.stop := ⟨hbelow, habove⟩
      rw [hdrop, if_pos hwhole]
      exact settles_dropRecord hw hr rfl
    · have hnone : ¬ (c.start ≤ (found.forgetWithin c.start c.stop).base ∧
          (found.forgetWithin c.start c.stop).stop pageSize ≤ c.stop) := by
        rintro ⟨hbelow, habove⟩
        exact hstays.elim (Nat.not_lt_of_le hbelow) (Nat.not_lt_of_le habove)
      rw [if_neg hnone]
      exact hw.quiet hquiet hkeys

end Warden

/-- **So does a trail of cuts**, cut by cut. -/
theorem Trail.settles {u v : Warden} {cuts : List Cut} (h : Trail u cuts v) (hu : u.Owing []) :
    Warden.Settles u (cuts.flatMap Cut.releases) v [] := by
  induction h with
  | done => exact hu.done
  | @tell w _ _ e he _ ih =>
    exact hu.first (v := w.tell e) (Machine.Path.refl.tell he) (fun _ => Iff.rfl) ih
  | cut _ ih =>
    have hcut := Warden.settles_cut _ hu
    exact hcut.trans (ih hcut.owing)

/-- And one that begins where guards are forgotten. -/
theorem Trail.settles_of_forgetGuards {w v : Warden} {start stop : Nat} {cuts : List Cut}
    (h : Trail (w.forgetGuards start stop) cuts v) (hw : w.Owing []) :
    w.Settles (cuts.flatMap Cut.releases) v [] :=
  hw.first (v := w.forgetGuards start stop) .refl
    (fun _ => View.keys_congr (Warden.bare?_forgetGuards w start stop)) h.settles

end PageWarden
